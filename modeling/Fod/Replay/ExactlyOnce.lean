import Fod.Replay.Data
import Fod.Replay.RenameOnce

/-!
# A lost acknowledgement changes nothing

The operations together: when the first run of one is committed and its acknowledgement
is lost, the second run gives the result and the tables of the first.
-/

namespace Fod.Replay

open Fod.Data

/-- What an operation needs so that a second run can recognise or repeat the first. -/
def Operation.Repeatable (cfg : Config) (t : Tables) : Operation → Prop
  | .createFile new => SeedFound t new.seed
  | .createSpecialFile new special => SeedFound t new.seed ∧ trim special.kind = special.kind
  | .createDirectory new => trim new.seed = new.seed
  | .createSymlink new target => trim new.seed = new.seed ∧ trim target = target
  | .persistFileBlocks flush _ => FlushRepeatable cfg t flush
  | .reservePayloadCapacity token bytes => ReservationRepeatable cfg t token bytes
  | _ => True

instance (cfg : Config) (t : Tables) (op : Operation) : Decidable (op.Repeatable cfg t) := by
  cases op <;> unfold Operation.Repeatable <;> infer_instance

def oneFile : Tables where
  directories := (∅ : Table Nat Directory).insert 1 ⟨(0, ['/']), 0o755, 0, 0, []⟩
  files := (∅ : Table Nat File).insert 2 ⟨(0, ['a']), false, 0o644, 0, 0, ['s'], none⟩
  hardlinks := ∅
  symlinks := ∅
  symlinkHardlinks := ∅
  nextEntry := 3
  data := {
    files := (∅ : Table Nat FileRow).insert 2 ⟨4, 0⟩
    objects := (∅ : Table Nat DataObject).insert 0 ⟨1, (∅ : Table Nat Bytes).insert 0 [1, 2, 3, 4]⟩
    nextObject := 1 }
  hashes := ∅
  dataObjectTokens := ∅
  promotionTokens := ∅
  lockTokens := ∅
  flocks := ∅
  reservations := ∅
  writeLeases := ∅
  destinationLeases := []
  opened := []

lemma oneFile_wellFormed : oneFile.WellFormed where
  object := Table.forall_insert Nat.zero_lt_one (by simp)
  file := Table.forall_insert Nat.zero_lt_one (by simp)
  hash _ _ h := by cases h
  token _ _ h := by cases h

def blocksOfFour (maxFsSizeBytes : Nat) : Config := ⟨⟨maxFsSizeBytes, 4⟩, .binaryBytea, false, 0⟩

theorem reservation_counted_twice_twelveBytes :
    ¬ ReservationRepeatable (blocksOfFour 12) oneFile 1 8 ∧
      (Operation.reservePayloadCapacity 1 8).afterLostAck (blocksOfFour 12) oneFile =
        .error .storageQuotaExceeded :=
  ⟨by decide, reservation_counted_twice (by decide) rfl⟩

theorem createSymlink_unconfirmed_blank :
    (Operation.createSymlink ⟨(0, ['l']), 0o777, 0, 0, ['t']⟩ [' ']).afterLostAck (blocksOfFour 0)
      oneFile = .error .namespaceEntryExists :=
  createSymlink_unconfirmed (by decide) rfl

end Fod.Replay
