import Fod.Data.Stored

/-!
# Transports

Blocks reach PostgreSQL through a staging table or one statement each.  The
direct statements delete a block that the file does not fill.
-/

namespace Fod.Data

open ZeroPadded BlockMap

namespace Db

variable {db : Db} {f size bs : Nat} {row : FileRow} {object : DataObject}
  {rows : List PersistBlockRow}

structure Planned (size bs : Nat) (rows : List PersistBlockRow) : Prop where
  nodup : (rows.map PersistBlockRow.blockIndex).Nodup
  inside : ∀ r ∈ rows, r.blockIndex < blockCountForLength size bs
  length : ∀ r ∈ rows, r.data.length ≤ bs
  used : ∀ r ∈ rows, r.usedLen = dirtyBlockSize size r.blockIndex bs

def ZeroTail (bs : Nat) (rows : List PersistBlockRow) : Prop :=
  ∀ r ∈ rows, r.usedLen < bs → ∀ j < r.usedLen, ZeroPadded.cell r.data j = 0

instance (bs : Nat) (rows : List PersistBlockRow) : Decidable (ZeroTail bs rows) :=
  inferInstanceAs (Decidable (∀ r ∈ rows, r.usedLen < bs → ∀ j < r.usedLen, _))

def rowData (rows : List PersistBlockRow) (b : Nat) : Bytes :=
  ((rows.find? (·.blockIndex == b)).map PersistBlockRow.data).getD []

lemma rowData_eq (hnodup : (rows.map PersistBlockRow.blockIndex).Nodup) {r : PersistBlockRow}
    (hr : r ∈ rows) : rowData rows r.blockIndex = r.data := by
  rw [rowData]
  cases hfind : rows.find? (·.blockIndex == r.blockIndex) with
  | none => simpa using List.find?_eq_none.mp hfind r hr
  | some r' =>
    have hsame : r'.blockIndex = r.blockIndex := by simpa using List.find?_some hfind
    have heq := List.inj_on_of_nodup_map hnodup (List.mem_of_find?_eq_some hfind) hr hsame
    rw [Option.map_some, Option.getD_some, heq]

lemma Planned.cell_persist (h : Planned size bs rows) (hbs : 0 < bs)
    (hrow : db.files.lookup f = some row) (hobject : db.objects.lookup row.dataObject = some object)
    (hne : row.dataObject ≠ db.nextObject) {transport : PersistBlockTransport}
    (htail : transport = .copyBinaryStaging ∨ ZeroTail bs rows) (deferred truncatePending : Bool)
    {i : Nat} (hi : i < size) :
    (db.persistFileBlocks transport deferred f size bs (blockCountForLength size bs) truncatePending
        rows).cell bs f i =
      if i / bs ∈ rows.map PersistBlockRow.blockIndex then
        ZeroPadded.cell (rowData rows (i / bs)) (i % bs)
      else db.cell bs f i := by
  have hblock := div_lt_blockCountForLength hbs hi
  rw [cell_persistFileBlocks hrow hobject hne hbs (fun b => dirtyBlockSize size b bs)
    (fun r hr => (rowData_eq h.nodup hr).symm) h.used]
  split
  next hmem =>
    obtain ⟨r, hr, hindex⟩ := List.mem_map.mp hmem
    have hdata := rowData_eq h.nodup hr
    have hused := h.used r hr
    rw [hindex] at hdata hused
    rw [kept, ← hused, hdata]
    split
    next => rfl
    next hdropped =>
      -- the row is deleted, and its bytes in the file are zeros
      rw [not_or] at hdropped
      have hin : i % bs < r.usedLen := by
        have hdiv := Nat.div_add_mod i bs
        rw [Nat.mul_comm] at hdiv
        rw [hused, dirtyBlockSize]
        have hmod := Nat.mod_lt i hbs
        omega
      rw [cell_nil, htail.resolve_left hdropped.1 r hr (Nat.lt_of_not_le hdropped.2) _ hin]
  next hmem =>
    rw [if_neg]
    rintro (⟨_, htotal⟩ | hcover)
    · omega
    · exact hmem (mem_of_coverFullFile hcover hblock)

def oneFile : Db where
  files := AList.insert 1 ⟨4, 7⟩ ∅
  objects := AList.insert 7 ⟨1, AList.insert 0 [1, 2, 3, 4] ∅⟩ ∅
  nextObject := 8

end Db

end Fod.Data
