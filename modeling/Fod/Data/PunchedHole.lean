import Fod.Data.Stored
import Fod.Replay.Payload

/-!
# Holes

`punch_hole_keep_size` deletes the blocks that lie in the hole, clears the part of the
first and the last one that does, and deletes these too if nothing is left in them.
The object of the file is taken out of sharing first.
-/

namespace Fod.Data

open ZeroPadded BlockMap Replay

namespace Db

variable {bs offset punchEnd b : Nat} {blocks : Table Nat Bytes} {data : Bytes}

lemma exists_ne_zero_of_partialZero {sliceStart sliceEnd : Nat} (hslice : sliceStart < sliceEnd)
    {stored : Option Bytes} (h : partialZero sliceStart sliceEnd stored = some data) :
    ∃ byte ∈ data, byte ≠ 0 := by
  rw [partialZero, if_neg (Nat.not_le.mpr hslice)] at h
  obtain ⟨old, -, hdata⟩ := Option.bind_eq_some_iff.mp h
  dsimp only at hdata
  generalize (if sliceStart < old.length then zero old sliceStart sliceEnd else old) = left at hdata
  split at hdata
  · cases hdata
  next hleft =>
    cases hdata
    simpa using hleft

lemma lookup_ite_zeroPartialBlock (needed : Prop) [Decidable needed] (sliceStart sliceEnd k : Nat) :
    (if needed then zeroPartialBlock b sliceStart sliceEnd blocks else blocks).lookup k =
      if needed ∧ k = b then partialZero sliceStart sliceEnd (blocks.lookup b)
      else blocks.lookup k := by
  split
  next hneeded =>
    rw [lookup_zeroPartialBlock]
    exact if_congr (by simp [hneeded]) rfl rfl
  next hneeded => rw [if_neg fun h => hneeded h.1]

lemma exists_ne_zero_of_punchBlocks (hbs : 0 < bs) {i : Nat} (hlow : offset ≤ i)
    (hhigh : i < punchEnd) (h : (punchBlocks bs offset punchEnd blocks).lookup (i / bs) = some data) :
    ∃ byte ∈ data, byte ≠ 0 := by
  have hfirst : offset / bs ≤ i / bs := Nat.div_le_div_right hlow
  have hlast : i / bs ≤ (punchEnd - 1) / bs := Nat.div_le_div_right (by omega)
  have hstart : offset % bs < bs := Nat.mod_lt _ hbs
  rw [punchBlocks] at h
  dsimp only at h
  split at h
  next hone =>
    have hsame : i / bs = offset / bs := by omega
    have hslice : offset % bs < if punchEnd % bs = 0 then bs else punchEnd % bs := by
      -- the hole ends behind its start, in the same block
      have hoffset := Nat.div_add_mod offset bs
      have hpred := Nat.div_add_mod (punchEnd - 1) bs
      rw [← hone] at hpred
      have hend := mod_pred_cases hbs (e := punchEnd) (by omega)
      split <;> omega
    generalize (if punchEnd % bs = 0 then bs else punchEnd % bs) = sliceEnd at h hslice
    rw [hsame] at h
    split at h
    next =>
      rw [AList.lookup_erase] at h
      cases h
    next =>
      rw [lookup_zeroPartialBlock, if_pos rfl] at h
      exact exists_ne_zero_of_partialZero hslice h
  next hdiff =>
    rw [lookup_ite_zeroPartialBlock] at h
    split at h
    next hend => exact exists_ne_zero_of_partialZero (Nat.pos_of_ne_zero hend.1) h
    next hend =>
      rw [lookup_ite_zeroPartialBlock] at h
      split at h
      next => exact exists_ne_zero_of_partialZero hstart h
      next hbegin =>
        -- neither end of the hole cuts the block, so that it is deleted
        rw [Table.lookup_keep_key, if_neg] at h
        · cases h
        · simp only [Bool.not_eq_true', Bool.and_eq_false_iff, decide_eq_false_iff_not]
          split_ifs <;> omega

/-- **Holes.**  The file reads as before with zeros in the hole, which ends with the file
at the latest; no other file reads differently, and no block that the hole touches has a
row of zeros. -/
theorem punch_hole_zeroes_exactly (db : Db) (hwf : db.Wf) (deferred : Bool) (f : Nat) (row : FileRow)
    (hrow : db.files.lookup f = some row) (bs offset length : Nat) (hbs : 1 ≤ bs)
    (hlength : 1 ≤ length) :
    let after := db.punchHoleKeepSize deferred f bs offset length
    after.fileSize f = some row.size ∧
      after.readRange bs f 0 row.size =
        zero (db.readRange bs f 0 row.size) offset (offset + length) ∧
      (∀ g, g ≠ f → after.fileSize g = db.fileSize g ∧
        ∀ start stop, after.readRange bs g start stop = db.readRange bs g start stop) ∧
      ∀ i, offset ≤ i → i < min (offset + length) row.size →
        ∀ data, after.find f (i / bs) = some data → ∃ byte ∈ data, byte ≠ 0 := by
  intro after
  obtain ⟨find, hwritten, hcells⟩ := punchHoleKeepSize_written hwf hrow hbs deferred offset hlength
  refine ⟨hwritten.size, ?_, fun g hg => ⟨(hwritten.others g hg).1, fun start stop => ?_⟩,
    fun i hlow hhigh data hdata => ?_⟩
  · rw [← ZeroPadded.zero_min, length_readRange]
    have hbefore : Holds row.size (ZeroPadded.cell (db.readRange bs f 0 row.size))
        (db.readRange bs f 0 row.size) := ⟨length_readRange 0 row.size, fun _ => rfl⟩
    have hzeroed : Holds row.size _ (zero (db.readRange bs f 0 row.size) offset
        (min (offset + length) (row.size - 0))) := hbefore.zero (Nat.min_le_right _ _)
    refine ext_cell (by rw [length_readRange, hzeroed.length, Nat.sub_zero]) fun i hi => ?_
    rw [length_readRange] at hi
    rw [cell_readRange hbs hi, hzeroed.cells, cell_readRange hbs hi, Nat.zero_add, Nat.sub_zero,
      hwritten.cell, hcells]
  · exact readRange_congr hbs fun i _ _ => hwritten.others.cell hg
  · have hinside : offset < row.size := by omega
    obtain ⟨blocks, -, hpunched⟩ := punchHoleKeepSize_blocks hwf hrow deferred bs hinside length
    rw [hpunched.find] at hdata
    exact exists_ne_zero_of_punchBlocks hbs hlow hhigh hdata

def sharedPair : Db where
  files := AList.insert 2 ⟨6, 7⟩ (AList.insert 1 ⟨6, 7⟩ ∅)
  objects := AList.insert 7 ⟨2, AList.insert 1 [5, 6] (AList.insert 0 [1, 2, 3, 4] ∅)⟩ ∅
  nextObject := 8

lemma sharedPair_wf : sharedPair.Wf := by
  refine ⟨fun {f row} hrow => ?_, fun {o object} hobject => ?_, fun {o object} hobject => ?_⟩
  · rcases Table.lookup_insert_cases hrow with ⟨-, rfl⟩ | ⟨-, hrow⟩
    · exact ⟨_, rfl⟩
    · rcases Table.lookup_insert_cases hrow with ⟨-, rfl⟩ | ⟨-, hnone⟩
      · exact ⟨_, rfl⟩
      · cases hnone
  · rcases Table.lookup_insert_cases hobject with ⟨rfl, rfl⟩ | ⟨-, hnone⟩
    · decide
    · cases hnone
  · rcases Table.lookup_insert_cases hobject with ⟨rfl, rfl⟩ | ⟨-, hnone⟩
    · decide
    · cases hnone

theorem punch_hole_zeroes_exactly_sharedPair :
    let after := sharedPair.punchHoleKeepSize false 1 4 2 8
    after.readRange 4 1 0 6 = [1, 2, 0, 0, 0, 0] ∧
      after.readRange 4 2 0 6 = [1, 2, 3, 4, 5, 6] := by
  have h := punch_hole_zeroes_exactly sharedPair sharedPair_wf false 1 ⟨6, 7⟩ rfl 4 2 8 (by decide)
    (by decide)
  exact ⟨h.2.1.trans (by decide), ((h.2.2.1 2 (by decide)).2 0 6).trans (by decide)⟩

end Db

end Fod.Data
