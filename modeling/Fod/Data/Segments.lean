import Fod.Lib.Counter

/-!
# The segments of a parallel copy

`copy_segments` gives each worker a whole number of blocks.
-/

namespace Fod.Data

open Counter

structure Segment where
  src : Nat
  dst : Nat
  len : Nat
  deriving DecidableEq

def segmentsFrom (bytesPerWorker : Nat) : Nat → Nat → Nat → Nat → List Segment
  | 0, _, _, _ => []
  | fuel + 1, src, dst, remaining =>
    if remaining = 0 then []
    else
      let chunkLen := min remaining bytesPerWorker
      ⟨src, dst, chunkLen⟩ :: segmentsFrom bytesPerWorker fuel (saturatingAdd src chunkLen)
        (saturatingAdd dst chunkLen) (remaining - chunkLen)

def blocksPerWorker (length bs workers : Nat) : Nat :=
  let totalBlocks := 1 + (length - 1) / bs
  let workerCount := max (min workers totalBlocks) 1
  max (divCeil totalBlocks workerCount) 1

def copySegments (offIn offOut length bs workers : Nat) : List Segment :=
  if length = 0 then []
  else
    let bs := max bs 1
    let workers := max workers 1
    segmentsFrom (saturatingMul (blocksPerWorker length bs workers) bs) length offIn offOut length

def Tiles (start stop : Nat) : List Segment → Prop
  | [] => start = stop
  | s :: rest => s.src = start ∧ 0 < s.len ∧ Tiles (start + s.len) stop rest

lemma Tiles.len_pos {start stop : Nat} {segments : List Segment} (h : Tiles start stop segments)
    {s : Segment} (hs : s ∈ segments) : 0 < s.len := by
  induction segments generalizing start with
  | nil => simp at hs
  | cons first rest ih =>
    obtain ⟨_, hfirst, hrest⟩ := h
    rcases List.mem_cons.mp hs with rfl | hs
    · exact hfirst
    · exact ih hrest hs

section

variable {bytes fuel src dst remaining bs k : Nat}

lemma segmentsFrom_tiles (hbytes : 0 < bytes) (hfuel : remaining ≤ fuel)
    (hsrc : src + remaining ≤ u64Max) :
    Tiles src (src + remaining) (segmentsFrom bytes fuel src dst remaining) := by
  induction fuel generalizing src dst remaining with
  | zero =>
    simp [segmentsFrom, Tiles]
    omega
  | succ fuel ih =>
    unfold segmentsFrom
    split
    next hdone => simp [Tiles, hdone]
    next hmore =>
      refine ⟨rfl, by simp only; omega, ?_⟩
      rw [saturatingAdd_of_le (by omega)]
      have hrest : src + min remaining bytes + (remaining - min remaining bytes) =
          src + remaining := by omega
      have htail := @ih (src + min remaining bytes) (saturatingAdd dst (min remaining bytes))
        (remaining - min remaining bytes) (by omega) (by omega)
      rwa [hrest] at htail

lemma segmentsFrom_aligned (hsrc : src + remaining ≤ u64Max) (hdst : dst + remaining ≤ u64Max)
    (hbytes : bs ∣ bytes ∨ remaining ≤ bytes) {s : Segment}
    (hs : s ∈ segmentsFrom bytes fuel src dst remaining) :
    s.src + dst = s.dst + src ∧ src ≤ s.src ∧ bs ∣ s.src - src := by
  induction fuel generalizing src dst remaining with
  | zero => simp [segmentsFrom] at hs
  | succ fuel ih =>
    unfold segmentsFrom at hs
    split at hs
    next => simp at hs
    next hmore =>
      rcases List.mem_cons.mp hs with rfl | hs
      · simp [Nat.add_comm]
      · rw [saturatingAdd_of_le (by omega), saturatingAdd_of_le (by omega)] at hs
        obtain ⟨hdiff, hle, hdvd⟩ := ih (by omega) (by omega) (hbytes.imp_right (by omega)) hs
        refine ⟨by omega, by omega, ?_⟩
        rcases Nat.le_total remaining bytes with hlast | hlong
        · -- nothing is left for a further segment
          cases fuel <;> simp [segmentsFrom, hlast] at hs
        · rw [Nat.min_eq_right hlong] at hdvd hle
          have hstep : bs ∣ bytes := by
            rcases hbytes with h | h
            · exact h
            · have heq : remaining = bytes := by omega
              cases fuel <;> simp [segmentsFrom, heq] at hs
          have hsum : s.src - src = s.src - (src + bytes) + bytes := by omega
          rw [hsum]
          exact Nat.dvd_add hdvd hstep

lemma length_segmentsFrom_le (hbytes : remaining ≤ k * bytes) :
    (segmentsFrom bytes fuel src dst remaining).length ≤ k := by
  induction fuel generalizing src dst remaining k with
  | zero => simp [segmentsFrom]
  | succ fuel ih =>
    unfold segmentsFrom
    split
    next => simp
    next hmore =>
      cases k with
      | zero => omega
      | succ k =>
        rw [Nat.succ_mul] at hbytes
        simp only [List.length_cons, Nat.add_le_add_iff_right]
        exact ih (by omega)

end

lemma le_workers_mul {length bs workers : Nat} (hbs : 0 < bs) (hworkers : 0 < workers) :
    length ≤ workers * (blocksPerWorker length bs workers * bs) := by
  unfold blocksPerWorker
  dsimp only
  set total := 1 + (length - 1) / bs with htotal
  set count := max (min workers total) 1 with hcount
  have hlength : length ≤ total * bs := by
    have hdiv := Nat.div_add_mod (length - 1) bs
    have hmod := Nat.mod_lt (length - 1) hbs
    rw [htotal, Nat.add_mul, Nat.mul_comm ((length - 1) / bs)]
    omega
  calc length ≤ total * bs := hlength
    _ ≤ count * divCeil total count * bs := Nat.mul_le_mul_right _ (le_mul_divCeil total (by omega))
    _ ≤ workers * max (divCeil total count) 1 * bs :=
        Nat.mul_le_mul_right _ (Nat.mul_le_mul (by omega) (Nat.le_max_left _ _))
    _ = workers * (max (divCeil total count) 1 * bs) := Nat.mul_assoc _ _ _

theorem copySegments_tiles (offIn offOut length bs workers : Nat)
    (hin : offIn + length ≤ u64Max) (hout : offOut + length ≤ u64Max) :
    (copySegments offIn offOut length bs workers).length ≤ max workers 1 ∧
      (0 < length → copySegments offIn offOut length bs workers ≠ []) ∧
      Tiles offIn (offIn + length) (copySegments offIn offOut length bs workers) ∧
      ∀ s ∈ copySegments offIn offOut length bs workers,
        0 < s.len ∧ s.src + offOut = s.dst + offIn ∧ offIn ≤ s.src ∧ max bs 1 ∣ s.src - offIn := by
  unfold copySegments
  split
  next hnone => simp [hnone, Tiles]
  next hsome =>
    dsimp only
    have hblocks : 0 < blocksPerWorker length (max bs 1) (max workers 1) := by
      simp [blocksPerWorker]
    have hreach := @le_workers_mul length (max bs 1) (max workers 1) (by omega) (by omega)
    set share := blocksPerWorker length (max bs 1) (max workers 1) * max bs 1 with hshare
    have hpos : 0 < share := Nat.mul_pos hblocks (by omega)
    have hbytes : saturatingMul (blocksPerWorker length (max bs 1) (max workers 1)) (max bs 1) =
        min share u64Max := rfl
    rw [hbytes]
    have htiles := @segmentsFrom_tiles (min share u64Max) length offIn offOut length (by omega)
      le_rfl hin
    refine ⟨length_segmentsFrom_le ?_, ?_, htiles, fun s hs => ?_⟩
    · rcases Nat.le_total share u64Max with hfits | hlarge
      · rwa [Nat.min_eq_left hfits]
      · rw [Nat.min_eq_right hlarge]
        exact le_trans (by omega) (Nat.le_mul_of_pos_left u64Max (by omega))
    · intro _ hnil
      rw [hnil, Tiles] at htiles
      omega
    · have haligned : max bs 1 ∣ min share u64Max ∨ length ≤ min share u64Max := by
        rcases Nat.le_total share u64Max with hfits | hlarge
        · exact .inl (by rw [Nat.min_eq_left hfits, hshare]; exact Nat.dvd_mul_left _ _)
        · exact .inr (by omega)
      exact ⟨htiles.len_pos hs, segmentsFrom_aligned hin hout haligned hs⟩

/-- Ten blocks, the last one short, over four workers. -/
theorem copySegments_ten_blocks :
    Tiles 7 46 (copySegments 7 100 39 4 4) ∧
      copySegments 7 100 39 4 4 = [⟨7, 100, 12⟩, ⟨19, 112, 12⟩, ⟨31, 124, 12⟩, ⟨43, 136, 3⟩] :=
  ⟨(copySegments_tiles 7 100 39 4 4 (by decide) (by decide)).2.2.1, by decide⟩

end Fod.Data
