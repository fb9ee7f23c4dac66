import Fod.Data.Sharing
import Fod.Quota.Model

/-!
# The tables of the replayed operations

The tables that the operations read and write when a connection is lost, with the
names that entries have in the tree.  Texts are lists of characters.
-/

namespace Fod.Replay

open Fod.Data

abbrev Text := List Char

abbrev Location := Nat × Text

def isWhitespace (c : Char) : Bool :=
  (9 ≤ c.toNat && c.toNat ≤ 13) || (0x2000 ≤ c.toNat && c.toNat ≤ 0x200A) ||
    [0x20, 0x85, 0xA0, 0x1680, 0x2028, 0x2029, 0x202F, 0x205F, 0x3000].contains c.toNat

def trim (text : Text) : Text := (text.rdropWhile isWhitespace).dropWhile isWhitespace

structure Directory where
  location : Location
  mode : Nat
  uid : Nat
  gid : Nat
  seed : Text

structure Special where
  kind : Text
  major : Nat
  minor : Nat

/-- A row of `files` and `special_files` but for the size and the data object. -/
structure File where
  location : Location
  unlinked : Bool
  mode : Nat
  uid : Nat
  gid : Nat
  seed : Text
  special : Option Special

structure Hardlink where
  file : Nat
  location : Location
  uid : Nat
  gid : Nat

structure Symlink where
  location : Location
  target : Text
  uid : Nat
  gid : Nat
  seed : Text

structure SymlinkHardlink where
  symlink : Nat
  location : Location

structure FlockLease where
  exclusive : Bool
  expiresAt : Nat

abbrev FlockKey := Nat × (Nat × Nat)

/-- `hashes` holds the size and the hash of the objects that have a hash, `promotionTokens`
the file and the outcome of a request, `writeLeases` the fencing token of the files with a
live write lease, and `opened` the files with a live open lease. -/
structure Tables where
  directories : Table Nat Directory
  files : Table Nat File
  hardlinks : Table Nat Hardlink
  symlinks : Table Nat Symlink
  symlinkHardlinks : Table Nat SymlinkHardlink
  nextEntry : Nat
  data : Db
  hashes : Table Nat (Nat × Text)
  dataObjectTokens : Table Nat Nat
  promotionTokens : Table Nat (Nat × Bool)
  lockTokens : Table Nat Bool
  flocks : Table FlockKey FlockLease
  reservations : Table Nat Quota.Reservation
  writeLeases : Table Nat Nat
  destinationLeases : List Location
  opened : List Nat

inductive Entry where
  | file (id : Nat)
  | hardlink (id file : Nat)
  | symlink (id : Nat)
  | symlinkHardlink (id symlink : Nat)
  | directory (id : Nat)
  deriving DecidableEq

def Entry.fileId : Entry → Option Nat
  | .file id => some id
  | .hardlink _ inode => some inode
  | _ => none

def Entry.symlinkId : Entry → Option Nat
  | .symlink id => some id
  | .symlinkHardlink _ inode => some inode
  | _ => none

def Entry.id : Entry → Nat
  | .file id => id
  | .hardlink id _ => id
  | .symlink id => id
  | .symlinkHardlink id _ => id
  | .directory id => id

namespace Tables

def entries (t : Tables) : List (Entry × Location) :=
  (t.files.entries.filter fun row => !row.2.unlinked).map (fun row => (.file row.1, row.2.location)) ++
    (t.hardlinks.entries.map fun row => (.hardlink row.1 row.2.file, row.2.location)) ++
    (t.symlinks.entries.map fun row => (.symlink row.1, row.2.location)) ++
    (t.symlinkHardlinks.entries.map fun row =>
      (.symlinkHardlink row.1 row.2.symlink, row.2.location)) ++
    t.directories.entries.map fun row => (.directory row.1, row.2.location)

def entriesAt (t : Tables) (location : Location) : List Entry :=
  (t.entries.filter fun row => row.2 == location).map Prod.fst

def Located (t : Tables) (location : Location) : Entry → Prop
  | .file id => ∃ row, t.files.lookup id = some row ∧ row.unlinked = false ∧ row.location = location
  | .hardlink id file =>
    ∃ row, t.hardlinks.lookup id = some row ∧ row.file = file ∧ row.location = location
  | .symlink id => ∃ row, t.symlinks.lookup id = some row ∧ row.location = location
  | .symlinkHardlink id symlink =>
    ∃ row, t.symlinkHardlinks.lookup id = some row ∧ row.symlink = symlink ∧
      row.location = location
  | .directory id => ∃ row, t.directories.lookup id = some row ∧ row.location = location

lemma mem_entriesAt {t : Tables} {location : Location} {e : Entry} :
    e ∈ t.entriesAt location ↔ t.Located location e := by
  simp only [entriesAt, entries, List.mem_map, List.mem_filter, List.mem_append, beq_iff_eq,
    Prod.exists, exists_and_right, exists_eq_right]
  cases e with
  | file id => simp [Located, Table.lookup_eq_some, and_assoc]
  | hardlink id file => simp [Located, Table.lookup_eq_some]
  | symlink id => simp [Located, Table.lookup_eq_some]
  | symlinkHardlink id symlink => simp [Located, Table.lookup_eq_some]
  | directory id => simp [Located, Table.lookup_eq_some]

lemma nodup_of_keys {ν : Type} (rows : Table Nat ν) (entry : (Σ _ : Nat, ν) → Entry)
    (hid : ∀ row, (entry row).id = row.1) : (rows.entries.map entry).Nodup := by
  refine List.Nodup.of_map Entry.id ?_
  have hkeys : (rows.entries.map entry).map Entry.id = rows.entries.keys := by
    simp [List.keys, Function.comp_def, hid]
  rw [hkeys]
  exact rows.nodupKeys

lemma nodup_entriesAt (t : Tables) (location : Location) : (t.entriesAt location).Nodup := by
  have hfiles : ((t.files.entries.filter fun row => !row.2.unlinked).map
      fun row => Entry.file row.1).Nodup :=
    (nodup_of_keys t.files (fun row => .file row.1) fun _ => rfl).sublist
      (List.filter_sublist.map _)
  have hall : (t.entries.map Prod.fst).Nodup := by
    simp only [entries, List.map_append, List.map_map, Function.comp_def]
    refine List.Nodup.append (List.Nodup.append (List.Nodup.append (List.Nodup.append hfiles
      (nodup_of_keys t.hardlinks _ fun _ => rfl) ?_) (nodup_of_keys t.symlinks _ fun _ => rfl) ?_)
      (nodup_of_keys t.symlinkHardlinks _ fun _ => rfl) ?_)
      (nodup_of_keys t.directories _ fun _ => rfl) ?_ <;>
    · intro e he he'
      cases e <;> simp at he he'
  exact hall.sublist (List.filter_sublist.map _)

lemma entriesAt_eq_singleton {t : Tables} {location : Location} {e : Entry}
    (hthere : t.Located location e) (honly : ∀ e', t.Located location e' → e' = e) :
    t.entriesAt location = [e] := by
  have hnodup := nodup_entriesAt t location
  match hlist : t.entriesAt location with
  | [] =>
    have := mem_entriesAt.mpr hthere
    simp [hlist] at this
  | [e'] =>
    rw [honly e' (mem_entriesAt.mp (by simp [hlist]))]
  | e' :: e'' :: rest =>
    have h' := honly e' (mem_entriesAt.mp (by simp [hlist]))
    have h'' := honly e'' (mem_entriesAt.mp (by simp [hlist]))
    rw [hlist, h', h''] at hnodup
    simp at hnodup

end Tables

end Fod.Replay
