import Fod.ReadCache.Model

/-!
# Which value a block map gives

A read combines the blocks that the mount knows, from the overlay of recent writes
and from the read cache, with the rows that it fetches for the missing ones.  With
one worker it fetches from the first to the last missing block, and so again what
it knows in between.  The definitions are one pass of the loops of `read_block_map`
and its siblings, in which no generation advances.
-/

namespace Fod.ReadCache

variable {β : Type}

def parallelWorkerCount (requestedWorkers minimumItemsForParallel totalItems
    parallelGroups : Nat) : Nat :=
  if requestedWorkers ≤ 1 ∨ totalItems < minimumItemsForParallel ∨ parallelGroups ≤ 1 then 1
  else max (min requestedWorkers parallelGroups) 1

def rowsOf (value : Nat → Option β) (blocks : List Nat) : List (Nat × β) :=
  blocks.filterMap fun block => (value block).map fun v => (block, v)

def foundAndMissing (value : Nat → Option β) (first last : Nat) : List (Nat × β) × List Nat :=
  let blocks := List.range' first (last + 1 - first)
  (rowsOf value blocks, blocks.filter fun block => (value block).isNone)

/-- What a read has at hand.  `rows` are the blocks as its queries return them,
which may be older than those that the mount knows. -/
structure BlockSource (β : Type) where
  recentWrites : Table BlockKey β
  cache : ReadBlockCache β
  settings : Settings
  readWorkers : Nat
  readWorkersMinBlocks : Nat
  rows : Contents β

namespace BlockSource

def recentWriteBlock (s : BlockSource β) (file block : Nat) : Option β :=
  if s.settings.readCacheLimitBlocks = 0 then none else s.recentWrites.lookup (file, block)

def cachedReadBlock (s : BlockSource β) (file block : Nat) : Option β :=
  if s.settings.readCacheLimitBlocks = 0 then none
  else (s.recentWriteBlock file block).or (s.cache.get file block)

def cachedReadBlocksAndMissing (s : BlockSource β) (file first last : Nat) :
    List (Nat × β) × List Nat :=
  if last < first then ([], [])
  else if s.settings.readCacheLimitBlocks = 0 then ([], List.range' first (last + 1 - first))
  else if s.recentWrites.entries ≠ [] then foundAndMissing (s.cachedReadBlock file) first last
  else foundAndMissing (s.cache.get file) first last

def readMissingRangeWorkerCount (s : BlockSource β) (missing : List Nat) : Nat :=
  parallelWorkerCount s.readWorkers s.readWorkersMinBlocks missing.length
    (missingBlockRanges missing).length

def fetchMissingReadBlocks (s : BlockSource β) (file : Nat) (missing : List Nat) :
    List (Nat × β) :=
  if s.readMissingRangeWorkerCount missing ≤ 1 then
    (fetchRanges false missing).flatMap (fetchBlockRange s.rows file)
  else sortBlocks ((fetchRanges true missing).flatMap (fetchBlockRange s.rows file))

def fillBlockMap (s : BlockSource β) (file first last : Nat) : List (Nat × β) :=
  let (cached, missing) := s.cachedReadBlocksAndMissing file first last
  if missing = [] then cached
  else mergeSortedBlocks cached (s.fetchMissingReadBlocks file missing)

def bufferedReadBlockMapCoalesced (s : BlockSource β) (file first last : Nat) : List (Nat × β) :=
  let (cached, missing) := s.cachedReadBlocksAndMissing file first last
  if missing = [] then cached else s.fillBlockMap file first last

def readBlockMap (s : BlockSource β) (file first last : Nat) : List (Nat × β) :=
  if last < first then []
  else if s.settings.fopenDirectIo then s.fillBlockMap file first last
  else s.bufferedReadBlockMapCoalesced file first last

def findBlock (rows : List (Nat × β)) (target : Nat) : Option β :=
  (rows.find? fun row => row.1 == target).map Prod.snd

def readBlockMapTargetBlock (s : BlockSource β) (file first last target : Nat) : Option β :=
  if last < first ∨ target < first ∨ last < target then none
  else if s.settings.fopenDirectIo then
    match s.cachedReadBlock file target with
    | some block => some block
    | none =>
      let (cached, missing) := s.cachedReadBlocksAndMissing file first last
      if missing = [] then findBlock cached target
      else (findBlock cached target).or
        (findBlock (s.fetchMissingReadBlocks file missing) target)
  else findBlock (s.bufferedReadBlockMapCoalesced file first last) target

end BlockSource

section

variable {value : Nat → Option β} {blocks : List Nat} {left right : List (Nat × β)} {b : Nat}

lemma filter_rowsOf (hblocks : blocks.Nodup) :
    (rowsOf value blocks).filter (fun row => row.1 == b) =
      if b ∈ blocks then ((value b).map fun v => (b, v)).toList else [] := by
  induction blocks with
  | nil => rfl
  | cons block blocks ih =>
    obtain ⟨hnot, hrest⟩ := List.nodup_cons.mp hblocks
    have hcons : rowsOf value (block :: blocks) =
        ((value block).map fun v => (block, v)).toList ++ rowsOf value blocks := by
      rw [rowsOf, List.filterMap_cons]
      cases value block <;> rfl
    rw [hcons, List.filter_append, ih hrest]
    by_cases heq : b = block
    · subst heq
      rw [if_neg hnot, if_pos List.mem_cons_self, List.append_nil]
      cases value b <;> simp
    · have hhead : ((value block).map fun v => (block, v)).toList.filter
          (fun row => row.1 == b) = [] := by
        cases value block <;> simp [Ne.symm heq]
      simp only [hhead, List.nil_append, List.mem_cons, heq, false_or]

lemma pairwise_rowsOf (hblocks : blocks.Pairwise (· ≤ ·)) :
    (rowsOf value blocks).Pairwise fun a b => a.1 ≤ b.1 := by
  refine List.pairwise_filterMap.mpr (hblocks.imp fun {a b} hle x hx y hy => ?_)
  obtain ⟨_, _, rfl⟩ := Option.map_eq_some_iff.mp hx
  obtain ⟨_, _, rfl⟩ := Option.map_eq_some_iff.mp hy
  exact hle

lemma filter_mergeSortedBlocks (hleft : left.Pairwise fun a b => a.1 ≤ b.1) :
    (mergeSortedBlocks left right).filter (fun row => row.1 == b) =
      left.filter (fun row => row.1 == b) ++ right.filter fun row => row.1 == b := by
  induction left generalizing right with
  | nil => rw [mergeSortedBlocks, List.nil_merge, List.filter_nil, List.nil_append]
  | cons l left ihl =>
    obtain ⟨hl, hrest⟩ := List.pairwise_cons.mp hleft
    induction right with
    | nil => rw [mergeSortedBlocks, List.merge_right, List.filter_nil, List.append_nil]
    | cons r right ihr =>
      rw [mergeSortedBlocks, List.cons_merge_cons]
      split
      next =>
        rw [List.filter_cons, List.filter_cons (x := l)]
        change (if _ then l :: (mergeSortedBlocks left (r :: right)).filter _
          else (mergeSortedBlocks left (r :: right)).filter _) = _
        rw [ihl hrest]
        split
        · rw [List.cons_append]
        · rfl
      next hlt =>
        rw [mergeSortedBlocks] at ihr
        rw [List.filter_cons, ihr, List.filter_cons (x := r)]
        split
        next hr =>
          -- The rows on the left have greater indices.
          have hnone : (l :: left).filter (fun row => row.1 == b) = [] := by
            refine List.filter_eq_nil_iff.mpr fun row hrow => ?_
            simp only [decide_eq_true_eq, beq_iff_eq] at hlt hr ⊢
            rcases List.mem_cons.mp hrow with rfl | hrow
            · omega
            · have := hl row hrow
              omega
          rw [hnone, List.nil_append, List.nil_append]
        next => rfl

def expandRanges (ranges : List (Nat × Nat)) : List Nat :=
  ranges.flatMap fun range => List.range' range.1 (range.2 + 1 - range.1)

lemma expandRanges_append (ranges : List (Nat × Nat)) (start stop : Nat) :
    expandRanges (ranges ++ [(start, stop)]) =
      expandRanges ranges ++ List.range' start (stop + 1 - start) := by
  simp [expandRanges]

lemma expandRanges_extendRanges (ranges : List (Nat × Nat)) {start stop : Nat}
    (h : start ≤ stop) (block : Nat) :
    ∃ ranges' start' stop', extendRanges (ranges, start, stop) block = (ranges', start', stop') ∧
      start' ≤ stop' ∧ expandRanges (ranges' ++ [(start', stop')]) =
        expandRanges (ranges ++ [(start, stop)]) ++ [block] := by
  by_cases heq : block = stop + 1
  · refine ⟨ranges, start, block, if_pos heq, by omega, ?_⟩
    rw [expandRanges_append, expandRanges_append, List.append_assoc,
      show block + 1 - start = (stop + 1 - start) + 1 by omega, List.range'_concat]
    congr 3
    omega
  · refine ⟨ranges ++ [(start, stop)], block, block, if_neg heq, le_rfl, ?_⟩
    rw [expandRanges_append, Nat.add_sub_cancel_left, List.range'_one]

lemma expandRanges_foldl (rest : List Nat) (ranges : List (Nat × Nat)) {start stop : Nat}
    (h : start ≤ stop) : expandRanges ((rest.foldl extendRanges (ranges, start, stop)).1 ++
        [(rest.foldl extendRanges (ranges, start, stop)).2]) =
      expandRanges (ranges ++ [(start, stop)]) ++ rest := by
  induction rest generalizing ranges start stop with
  | nil => exact (List.append_nil _).symm
  | cons block rest ih =>
    obtain ⟨ranges', start', stop', hextend, hle, hexpand⟩ :=
      expandRanges_extendRanges ranges h block
    rw [List.foldl_cons, hextend, ih ranges' hle, hexpand, List.append_assoc, List.singleton_append]

lemma expandRanges_missingBlockRanges (missing : List Nat) :
    expandRanges (missingBlockRanges missing) = missing := by
  cases missing with
  | nil => rfl
  | cons first rest =>
    refine (expandRanges_foldl rest [] (le_refl first)).trans ?_
    simp [expandRanges]

lemma flatMap_fetchBlockRange (contents : Contents β) (file : Nat) (ranges : List (Nat × Nat)) :
    ranges.flatMap (fetchBlockRange contents file) =
      rowsOf (contents file) (expandRanges ranges) := by
  rw [rowsOf, expandRanges, List.filterMap_flatMap]
  rfl

end

/-! ## One pass -/

namespace BlockSource

section

variable {s : BlockSource β} {file first last b : Nat} {missing : List Nat}

def missingIn (s : BlockSource β) (file first last : Nat) : List Nat :=
  (s.cachedReadBlocksAndMissing file first last).2

lemma cachedReadBlocksAndMissing_eq (h : first ≤ last) :
    s.cachedReadBlocksAndMissing file first last =
      foundAndMissing (s.cachedReadBlock file) first last := by
  rw [cachedReadBlocksAndMissing, if_neg (Nat.not_lt.mpr h)]
  split
  next hlimit =>
    have hnone : s.cachedReadBlock file = fun _ => none := by
      funext block
      exact if_pos hlimit
    simp [foundAndMissing, rowsOf, hnone]
  next hlimit =>
    split
    next => rfl
    next hrecent =>
      have hget : s.cachedReadBlock file = s.cache.get file := by
        have hempty : s.recentWrites = ∅ := AList.ext (not_not.mp hrecent)
        funext block
        rw [cachedReadBlock, if_neg hlimit, recentWriteBlock, if_neg hlimit, hempty,
          AList.lookup_empty, Option.none_or]
      rw [hget]

lemma mem_range'_iff : b ∈ List.range' first (last + 1 - first) ↔ first ≤ b ∧ b ≤ last := by
  rw [List.mem_range'_1]
  omega

lemma mem_missingIn (h : first ≤ last) : b ∈ s.missingIn file first last ↔
      (first ≤ b ∧ b ≤ last) ∧ s.cachedReadBlock file b = none := by
  rw [missingIn, cachedReadBlocksAndMissing_eq h, foundAndMissing, List.mem_filter,
    mem_range'_iff, Option.isNone_iff_eq_none]

lemma pairwise_missingIn (h : first ≤ last) : (s.missingIn file first last).Pairwise (· < ·) := by
  rw [missingIn, cachedReadBlocksAndMissing_eq h, foundAndMissing]
  exact List.Pairwise.filter _ List.pairwise_lt_range'

def fetchedBlocks (s : BlockSource β) (missing : List Nat) : List Nat :=
  if s.readMissingRangeWorkerCount missing ≤ 1 then expandRanges (fetchRanges false missing)
  else missing

lemma expandRanges_fetchRanges_false (hmissing : missing ≠ []) :
    expandRanges (fetchRanges false missing) =
      List.range' (missing.head hmissing) (missing.getLast hmissing + 1 - missing.head hmissing) := by
  simp [fetchRanges, expandRanges, List.head?_eq_some_head hmissing,
    List.getLast?_eq_some_getLast hmissing]

section

variable (h : missing.Pairwise (· < ·))

include h

lemma le_getLast (hb : b ∈ missing) (hmissing : missing ≠ []) : b ≤ missing.getLast hmissing := by
  rw [← List.dropLast_concat_getLast hmissing] at h hb
  rcases List.mem_append.mp hb with hb | hb
  · exact ((List.pairwise_append.mp h).2.2 b hb _ (List.mem_singleton.mpr rfl)).le
  · exact (List.mem_singleton.mp hb).le

lemma head_le (hb : b ∈ missing) (hmissing : missing ≠ []) : missing.head hmissing ≤ b := by
  cases missing with
  | nil => exact absurd rfl hmissing
  | cons first rest =>
    rcases List.mem_cons.mp hb with rfl | hb
    · exact le_rfl
    · exact ((List.pairwise_cons.mp h).1 b hb).le

lemma pairwise_fetchedBlocks : (s.fetchedBlocks missing).Pairwise (· < ·) := by
  rw [fetchedBlocks]
  split
  next =>
    by_cases hmissing : missing = []
    · subst hmissing
      exact .nil
    · rw [expandRanges_fetchRanges_false hmissing]
      exact List.pairwise_lt_range'
  next => exact h

lemma fetchMissingReadBlocks_eq :
    s.fetchMissingReadBlocks file missing = rowsOf (s.rows file) (s.fetchedBlocks missing) := by
  rw [fetchMissingReadBlocks, fetchedBlocks]
  split
  next => rw [flatMap_fetchBlockRange]
  next =>
    rw [flatMap_fetchBlockRange, fetchRanges, if_pos rfl, expandRanges_missingBlockRanges, sortBlocks]
    exact (pairwise_rowsOf (h.imp le_of_lt)).insertionSort_eq

lemma mem_fetchedBlocks :
    b ∈ s.fetchedBlocks missing ↔ b ∈ missing ∨ s.readMissingRangeWorkerCount missing ≤ 1 ∧
      (∃ m ∈ missing, m < b) ∧ ∃ m ∈ missing, b < m := by
  rw [fetchedBlocks]
  split
  next hone =>
    by_cases hmissing : missing = []
    · subst hmissing
      simp [fetchRanges, expandRanges]
    · rw [expandRanges_fetchRanges_false hmissing, mem_range'_iff]
      have hhead := List.head_mem hmissing
      have hlast := List.getLast_mem hmissing
      constructor
      · rintro ⟨hlow, hhigh⟩
        rcases Nat.eq_or_lt_of_le hlow with rfl | hlow
        · exact .inl hhead
        · rcases Nat.eq_or_lt_of_le hhigh with rfl | hhigh
          · exact .inl hlast
          · exact .inr ⟨hone, ⟨_, hhead, hlow⟩, _, hlast, hhigh⟩
      · rintro (hb | ⟨-, ⟨m, hm, hlow⟩, m', hm', hhigh⟩)
        · exact ⟨head_le h hb hmissing, le_getLast h hb hmissing⟩
        · exact ⟨(head_le h hm hmissing).trans hlow.le, hhigh.le.trans (le_getLast h hm' hmissing)⟩
  next hmany => simp [hmany]

end

lemma filter_fillBlockMap (h : first ≤ last) (b : Nat) :
    (s.fillBlockMap file first last).filter (fun row => row.1 == b) =
      (if first ≤ b ∧ b ≤ last then
        ((s.cachedReadBlock file b).map fun v => (b, v)).toList else []) ++
      if b ∈ s.fetchedBlocks (s.missingIn file first last) then
        ((s.rows file b).map fun v => (b, v)).toList else [] := by
  have hpairwise : (s.missingIn file first last).Pairwise (· < ·) := pairwise_missingIn h
  have hfetched : s.fetchMissingReadBlocks file (s.missingIn file first last) = _ :=
    fetchMissingReadBlocks_eq hpairwise
  have hcached : ((s.cachedReadBlocksAndMissing file first last).1).filter (fun row => row.1 == b) =
      if first ≤ b ∧ b ≤ last then
        ((s.cachedReadBlock file b).map fun v => (b, v)).toList else [] := by
    rw [cachedReadBlocksAndMissing_eq h, foundAndMissing, filter_rowsOf List.nodup_range']
    simp only [mem_range'_iff]
  have hsorted : (s.cachedReadBlocksAndMissing file first last).1.Pairwise
      fun a b => a.1 ≤ b.1 := by
    rw [cachedReadBlocksAndMissing_eq h]
    exact pairwise_rowsOf (List.Pairwise.imp le_of_lt List.pairwise_lt_range')
  change List.filter _ (if s.missingIn file first last = [] then
    (s.cachedReadBlocksAndMissing file first last).1
    else mergeSortedBlocks (s.cachedReadBlocksAndMissing file first last).1
      (s.fetchMissingReadBlocks file (s.missingIn file first last))) = _
  split
  next hnil =>
    have hnone : b ∉ s.fetchedBlocks (s.missingIn file first last) := by
      rw [mem_fetchedBlocks hpairwise, hnil]
      simp
    rw [hcached, if_neg hnone, List.append_nil]
  next =>
    rw [filter_mergeSortedBlocks hsorted, hcached, hfetched,
      filter_rowsOf ((pairwise_fetchedBlocks hpairwise).imp ne_of_lt)]

lemma bufferedReadBlockMapCoalesced_eq :
    s.bufferedReadBlockMapCoalesced file first last = s.fillBlockMap file first last := by
  rw [bufferedReadBlockMapCoalesced, fillBlockMap]
  split
  next =>
    split
    next => rfl
    next hmissing => simp only [if_neg hmissing]

lemma readBlockMap_eq (h : first ≤ last) :
    s.readBlockMap file first last = s.fillBlockMap file first last := by
  rw [readBlockMap, if_neg (Nat.not_lt.mpr h), bufferedReadBlockMapCoalesced_eq, ite_self]

lemma findBlock_eq (rows : List (Nat × β)) (target : Nat) : findBlock rows target =
      ((rows.filter fun row => row.1 == target).head?).map Prod.snd := by
  rw [findBlock, List.head?_filter]

def blockValue (s : BlockSource β) (file block : Nat) : Option β :=
  (s.cachedReadBlock file block).or (s.rows file block)

/-- The map has for every block of the range exactly the entry that it should have. -/
def GivesBlocks (s : BlockSource β) (file first last : Nat) (rows : List (Nat × β)) : Prop :=
  ∀ b, rows.filter (fun row => row.1 == b) =
    if first ≤ b ∧ b ≤ last then ((s.blockValue file b).map fun v => (b, v)).toList else []

/-- No known block is fetched again: more than one worker fetches, or the store has
no row for a known block between two missing ones. -/
def FetchesOnlyMissing (s : BlockSource β) (file first last : Nat) : Prop :=
  s.readMissingRangeWorkerCount (s.missingIn file first last) ≤ 1 →
    ∀ b, (∃ m ∈ s.missingIn file first last, m < b) →
      (∃ m ∈ s.missingIn file first last, b < m) →
      (s.cachedReadBlock file b).isSome → s.rows file b = none

lemma givesBlocks_fillBlockMap (h : first ≤ last) :
    s.GivesBlocks file first last (s.fillBlockMap file first last) ↔
      s.FetchesOnlyMissing file first last := by
  have hpairwise : (s.missingIn file first last).Pairwise (· < ·) := pairwise_missingIn h
  simp only [GivesBlocks, filter_fillBlockMap h]
  constructor
  · rintro hgives hone b ⟨m, hm, hlow⟩ ⟨m', hm', hhigh⟩ hknown
    obtain ⟨v, hv⟩ := Option.isSome_iff_exists.mp hknown
    have hrange : first ≤ b ∧ b ≤ last := by
      have hfirst := ((mem_missingIn h).mp hm).1.1
      have hlast := ((mem_missingIn h).mp hm').1.2
      omega
    have hfetched : b ∈ s.fetchedBlocks (s.missingIn file first last) :=
      (mem_fetchedBlocks hpairwise).mpr (.inr ⟨hone, ⟨m, hm, hlow⟩, m', hm', hhigh⟩)
    have hb := hgives b
    rw [if_pos hrange, if_pos hrange, if_pos hfetched, blockValue, hv, Option.some_or] at hb
    cases hrows : s.rows file b with
    | none => rfl
    | some old => simp [hrows] at hb
  · intro honly b
    by_cases hrange : first ≤ b ∧ b ≤ last
    · rw [if_pos hrange, if_pos hrange, blockValue]
      cases hknown : s.cachedReadBlock file b with
      | none =>
        have hmissing : b ∈ s.missingIn file first last := (mem_missingIn h).mpr ⟨hrange, hknown⟩
        rw [if_pos ((mem_fetchedBlocks hpairwise).mpr (.inl hmissing))]
        rfl
      | some v =>
        have hnothing : (if b ∈ s.fetchedBlocks (s.missingIn file first last) then
            ((s.rows file b).map fun v => (b, v)).toList else []) = [] := by
          split
          next hfetched =>
            rcases (mem_fetchedBlocks hpairwise).mp hfetched with hmissing | ⟨hone, hlow, hhigh⟩
            · rw [((mem_missingIn h).mp hmissing).2] at hknown
              cases hknown
            · rw [honly hone b hlow hhigh (by rw [hknown]; rfl)]
              rfl
          next => rfl
        rw [hnothing, List.append_nil]
        rfl
    · have hnot : b ∉ s.fetchedBlocks (s.missingIn file first last) := by
        intro hfetched
        rcases (mem_fetchedBlocks hpairwise).mp hfetched with
          hmissing | ⟨-, ⟨m, hm, hlow⟩, m', hm', hhigh⟩
        · exact hrange ((mem_missingIn h).mp hmissing).1
        · have hfirst := ((mem_missingIn h).mp hm).1.1
          have hlast := ((mem_missingIn h).mp hm').1.2
          exact hrange (by omega)
      rw [if_neg hrange, if_neg hrange, if_neg hnot, List.append_nil]

lemma readBlockMapTargetBlock_eq {target : Nat} (hfirst : first ≤ target) (hlast : target ≤ last) :
    s.readBlockMapTargetBlock file first last target = s.blockValue file target := by
  have h : first ≤ last := hfirst.trans hlast
  have hpairwise : (s.missingIn file first last).Pairwise (· < ·) := pairwise_missingIn h
  have hmap : findBlock (s.fillBlockMap file first last) target = s.blockValue file target := by
    rw [findBlock_eq, filter_fillBlockMap h, if_pos ⟨hfirst, hlast⟩, blockValue]
    cases hknown : s.cachedReadBlock file target with
    | none =>
      have hmissing : target ∈ s.missingIn file first last :=
        (mem_missingIn h).mpr ⟨⟨hfirst, hlast⟩, hknown⟩
      rw [if_pos ((mem_fetchedBlocks hpairwise).mpr (.inl hmissing))]
      cases s.rows file target <;> rfl
    | some v => rfl
  rw [readBlockMapTargetBlock, if_neg (by omega), bufferedReadBlockMapCoalesced_eq, hmap]
  split
  next =>
    rw [blockValue]
    cases hknown : s.cachedReadBlock file target with
    | some v => rfl
    | none =>
      have hmissing : target ∈ s.missingIn file first last :=
        (mem_missingIn h).mpr ⟨⟨hfirst, hlast⟩, hknown⟩
      have hcached : findBlock (s.cachedReadBlocksAndMissing file first last).1 target = none := by
        rw [cachedReadBlocksAndMissing_eq h, findBlock_eq, foundAndMissing,
          filter_rowsOf List.nodup_range', hknown]
        split <;> rfl
      have hfetched : findBlock (s.fetchMissingReadBlocks file (s.missingIn file first last))
          target = s.rows file target := by
        rw [fetchMissingReadBlocks_eq hpairwise, findBlock_eq,
          filter_rowsOf ((pairwise_fetchedBlocks hpairwise).imp ne_of_lt),
          if_pos ((mem_fetchedBlocks hpairwise).mpr (.inl hmissing))]
        cases s.rows file target <;> rfl
      change (if s.missingIn file first last = [] then _ else _) = _
      rw [if_neg (List.ne_nil_of_mem hmissing)]
      change (findBlock (s.cachedReadBlocksAndMissing file first last).1 target).or
        (findBlock (s.fetchMissingReadBlocks file (s.missingIn file first last)) target) = _
      rw [hcached, hfetched]
  next => rfl

end

end BlockSource

open BlockSource in
/-- **Known blocks take precedence if none is fetched again.**  The maps of
`read_block_map` and of `buffered_read_block_map_coalesced` hold for every block of
the range the value that the mount knows, or else the fetched one, and no second
entry, exactly if no known block is fetched again; `read_block_map_target_block`
gives that value in any case. -/
theorem known_blocks_take_precedence_iff (s : BlockSource β) (file first last : Nat)
    (h : first ≤ last) :
    (s.GivesBlocks file first last (s.readBlockMap file first last) ∧
      s.GivesBlocks file first last (s.bufferedReadBlockMapCoalesced file first last) ∧
      ∀ target, first ≤ target → target ≤ last →
        s.readBlockMapTargetBlock file first last target = s.blockValue file target) ↔
      s.FetchesOnlyMissing file first last := by
  rw [readBlockMap_eq h, bufferedReadBlockMapCoalesced_eq, givesBlocks_fillBlockMap h]
  refine ⟨And.left, fun honly => ⟨honly, honly, fun target hfirst hlast => ?_⟩⟩
  exact readBlockMapTargetBlock_eq hfirst hlast

def betweenMissing (old : Option Nat) : BlockSource Nat where
  recentWrites := (∅ : Table BlockKey Nat).insert (7, 1) 11
  cache := .fifo ∅ []
  settings := ⟨8, 0, false⟩
  readWorkers := 1
  readWorkersMinBlocks := 1
  rows := fun _ block => if block = 1 then old else some block

lemma readBlockMap_betweenMissing (old : Option Nat) : (betweenMissing old).readBlockMap 7 0 2 =
      mergeSortedBlocks [(1, 11)] (rowsOf ((betweenMissing old).rows 7) [0, 1, 2]) := by
  cases old <;> rfl

/-- Without a row of block 1 the map is right. -/
theorem known_blocks_take_precedence_iff_hole :
    (betweenMissing none).readBlockMap 7 0 2 = [(0, 0), (1, 11), (2, 2)] ∧
      (betweenMissing none).GivesBlocks 7 0 2 ((betweenMissing none).readBlockMap 7 0 2) := by
  have hmap : (betweenMissing none).readBlockMap 7 0 2 = [(0, 0), (1, 11), (2, 2)] := by
    rw [readBlockMap_betweenMissing]
    simp [mergeSortedBlocks, rowsOf, betweenMissing]
  refine ⟨hmap, ((known_blocks_take_precedence_iff (betweenMissing none) 7 0 2
    (by decide)).mpr fun _ b hlow hhigh _ => ?_).1⟩
  obtain ⟨m, hm, hlow⟩ := hlow
  obtain ⟨m', hm', hhigh⟩ := hhigh
  have hfirst := ((BlockSource.mem_missingIn (by decide)).mp hm).1.1
  have hlast := ((BlockSource.mem_missingIn (by decide)).mp hm').1.2
  obtain rfl : b = 1 := by omega
  rfl

/-- With an older row of block 1 the map has two entries for it, and the older one
stands last. -/
theorem older_row_beside_known_block :
    (betweenMissing (some 10)).cachedReadBlock 7 1 = some 11 ∧
      (betweenMissing (some 10)).readBlockMap 7 0 2 = [(0, 0), (1, 11), (1, 10), (2, 2)] ∧
      ¬ (betweenMissing (some 10)).GivesBlocks 7 0 2
        ((betweenMissing (some 10)).readBlockMap 7 0 2) := by
  have hmap : (betweenMissing (some 10)).readBlockMap 7 0 2 =
      [(0, 0), (1, 11), (1, 10), (2, 2)] := by
    rw [readBlockMap_betweenMissing]
    simp [mergeSortedBlocks, rowsOf, betweenMissing]
  refine ⟨rfl, hmap, fun hgives => ?_⟩
  rw [hmap] at hgives
  exact absurd (hgives 1) (by decide)

end Fod.ReadCache
