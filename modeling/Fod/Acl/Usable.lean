import Fod.Acl.Frontend

/-!
# Lists that every check accepts

`setxattr` stores an access list if it finds a mode in it.  The access check wants
the entries in order and without duplicates, and both it and `chmod` refuse
permissions beyond the three bits.
-/

namespace Fod.Acl

open Scan

abbrev Key := BitVec 16 × BitVec 32

def AclEntry.key (e : AclEntry) : Key := (e.tag, e.id)

def Named (k : Key) : Prop := k.1 = aclUser ∨ k.1 = aclGroup

def Before (k k' : Key) : Prop := k.1 < k'.1 ∨ (k.1 = k'.1 ∧ Named k ∧ k.2 ≠ k'.2)

def knownTags : List (BitVec 16) :=
  [aclUserObj, aclUser, aclGroupObj, aclGroup, aclMask, aclOther]

structure CanonicalKeys (keys : List Key) : Prop where
  known : ∀ k ∈ keys, k.1 ∈ knownTags
  ordered : keys.Pairwise Before
  ids : ∀ k ∈ keys, Named k → k.2 ≠ BitVec.allOnes 32
  userObj : ∃ k ∈ keys, k.1 = aclUserObj
  groupObj : ∃ k ∈ keys, k.1 = aclGroupObj
  other : ∃ k ∈ keys, k.1 = aclOther
  mask : (∃ k ∈ keys, Named k) → ∃ k ∈ keys, k.1 = aclMask

def Canonical (entries : List AclEntry) : Prop :=
  (∀ e ∈ entries, e.perm &&& ~~~ 0o7#16 = 0) ∧ CanonicalKeys (entries.map AclEntry.key)

variable {actor : Actor} {owner : Owner} {s s' : AclScan} {e : AclEntry}

def after (tag : BitVec 16) : Nat :=
  if tag = aclUserObj ∨ tag = aclUser then 1
  else if tag = aclGroupObj ∨ tag = aclGroup then 2
  else if tag = aclMask then 3
  else 4

def Admits (stage : Nat) (tag : BitVec 16) : Prop :=
  (tag = aclUserObj ∧ stage = 0) ∨ (tag = aclUser ∧ stage = 1) ∨ (tag = aclGroupObj ∧ stage = 1) ∨
    (tag = aclGroup ∧ stage = 2) ∨ (tag = aclMask ∧ stage = 2) ∨
    (tag = aclOther ∧ (stage = 2 ∨ stage = 3))

instance (stage : Nat) (tag : BitVec 16) : Decidable (Admits stage tag) :=
  inferInstanceAs (Decidable (_ ∨ _))

structure Fits (s : AclScan) (e : AclEntry) : Prop where
  perm : e.perm &&& ~~~ 0o7#16 = 0
  admits : Admits s.stage e.tag
  id : Named e.key → e.id ≠ BitVec.allOnes 32
  user : e.tag = aclUser → e.id ∉ s.namedUserIds
  group : e.tag = aclGroup → e.id ∉ s.namedGroupIds

structure Follows (s : AclScan) (e : AclEntry) (s' : AclScan) : Prop where
  stage : s'.stage = after e.tag
  userIds : s'.namedUserIds = s.namedUserIds ++ if e.tag = aclUser then [e.id] else []
  groupIds : s'.namedGroupIds = s.namedGroupIds ++ if e.tag = aclGroup then [e.id] else []
  named : s'.hasNamedEntry = true ↔ s.hasNamedEntry = true ∨ Named e.key

lemma scanEntry_fits (h : scanEntry actor owner s e = .ok s') : Fits s e ∧ Follows s e s' := by
  obtain ⟨hperm, hstep⟩ := scanEntry_cases h
  cases hstep with
  | userObj htag hstage =>
    refine ⟨⟨hperm, .inl ⟨htag, hstage⟩, ?_, ?_, ?_⟩, ?_, ?_, ?_, ?_⟩ <;>
      simp [Named, AclEntry.key, after, htag, aclUserObj, aclUser, aclGroup]
  | user htag hstage hid hfresh =>
    refine ⟨⟨hperm, .inr (.inl ⟨htag, hstage⟩), fun _ => hid, fun _ => hfresh, ?_⟩, ?_, ?_, ?_, ?_⟩ <;>
      simp [Named, AclEntry.key, after, htag, hstage, aclUserObj, aclUser, aclGroup]
  | groupObj htag hstage =>
    refine ⟨⟨hperm, .inr (.inr (.inl ⟨htag, hstage⟩)), ?_, ?_, ?_⟩, ?_, ?_, ?_, ?_⟩ <;>
      simp [Named, AclEntry.key, after, htag, aclUserObj, aclUser, aclGroupObj, aclGroup]
  | group htag hstage hid hfresh =>
    refine ⟨⟨hperm, .inr (.inr (.inr (.inl ⟨htag, hstage⟩))), fun _ => hid, ?_, fun _ => hfresh⟩,
      ?_, ?_, ?_, ?_⟩ <;>
      simp [Named, AclEntry.key, after, htag, hstage, aclUserObj, aclUser, aclGroupObj, aclGroup]
  | mask htag hstage =>
    refine ⟨⟨hperm, .inr (.inr (.inr (.inr (.inl ⟨htag, hstage⟩)))), ?_, ?_, ?_⟩, ?_, ?_, ?_, ?_⟩ <;>
      simp [Named, AclEntry.key, after, htag, aclUserObj, aclUser, aclGroupObj, aclGroup, aclMask]
  | other htag hstage =>
    refine ⟨⟨hperm, .inr (.inr (.inr (.inr (.inr ⟨htag, hstage⟩)))), ?_, ?_, ?_⟩, ?_, ?_, ?_, ?_⟩ <;>
      simp [Named, AclEntry.key, after, htag, aclUserObj, aclUser, aclGroupObj, aclGroup, aclMask,
        aclOther]

lemma scanEntry_total (actor : Actor) (owner : Owner) (h : Fits s e) :
    ∃ s', scanEntry actor owner s e = .ok s' := by
  have hid := h.id
  have huser := h.user
  have hgroup := h.group
  simp only [Named, AclEntry.key] at hid
  rw [scanEntry, if_neg (not_not.mpr h.perm)]
  rcases h.admits with ⟨htag, hstage⟩ | ⟨htag, hstage⟩ | ⟨htag, hstage⟩ | ⟨htag, hstage⟩ |
    ⟨htag, hstage⟩ | ⟨htag, hstage⟩ <;>
    simp_all [aclUserObj, aclUser, aclGroupObj, aclGroup, aclMask, aclOther]

/-! ## The access check -/

structure Control (done : List Key) (s : AclScan) : Prop where
  stage_le : ∀ k ∈ done, after k.1 ≤ s.stage
  stage_eq : s.stage = 0 ∨ ∃ k ∈ done, after k.1 = s.stage
  userIds : ∀ id, id ∈ s.namedUserIds ↔ (aclUser, id) ∈ done
  groupIds : ∀ id, id ∈ s.namedGroupIds ↔ (aclGroup, id) ∈ done
  named : s.hasNamedEntry = true ↔ ∃ k ∈ done, Named k

lemma control_init : Control [] AclScan.init := by
  constructor <;> simp [AclScan.init]

variable {stage : Nat} {tag : BitVec 16} {done : List Key} {t : BitVec 16} {entries : List AclEntry}

lemma Admits.le_after (h : Admits stage tag) : stage ≤ after tag := by
  rcases h with ⟨rfl, rfl⟩ | ⟨rfl, rfl⟩ | ⟨rfl, rfl⟩ | ⟨rfl, rfl⟩ | ⟨rfl, rfl⟩ | ⟨rfl, rfl | rfl⟩ <;>
    decide

private lemma mem_append_ids {ids : List (BitVec 32)}
    (h : ∀ id, id ∈ ids ↔ (t, id) ∈ done) (id : BitVec 32) :
    id ∈ (ids ++ if e.tag = t then [e.id] else []) ↔ (t, id) ∈ done ++ [e.key] := by
  rw [List.mem_append, List.mem_append, h id, List.mem_singleton, AclEntry.key, Prod.mk.injEq]
  split
  next htag => simp [htag]
  next htag => simp [Ne.symm htag]

lemma Control.push (h : Control done s) (hfits : Fits s e)
    (hfollows : Follows s e s') : Control (done ++ [e.key]) s' := by
  refine ⟨fun k hk => ?_, .inr ⟨e.key, by simp, hfollows.stage.symm⟩, fun id => ?_, fun id => ?_, ?_⟩
  · rw [hfollows.stage]
    rcases List.mem_append.mp hk with hdone | hnew
    · exact Nat.le_trans (h.stage_le k hdone) hfits.admits.le_after
    · rw [List.mem_singleton.mp hnew]
      exact Nat.le_refl _
  · rw [hfollows.userIds]
    exact mem_append_ids h.userIds id
  · rw [hfollows.groupIds]
    exact mem_append_ids h.groupIds id
  · rw [hfollows.named, h.named]
    simp [or_and_right, exists_or]

lemma Admits.tag_le (h : Admits stage tag) :
    ∀ t ∈ knownTags, after t ≤ stage → t < tag ∨ (t = tag ∧ (t = aclUser ∨ t = aclGroup)) := by
  intro t ht
  simp only [knownTags, List.mem_cons, List.not_mem_nil, or_false] at ht
  rcases h with ⟨rfl, rfl⟩ | ⟨rfl, rfl⟩ | ⟨rfl, rfl⟩ | ⟨rfl, rfl⟩ | ⟨rfl, rfl⟩ | ⟨rfl, rfl | rfl⟩ <;>
    rcases ht with rfl | rfl | rfl | rfl | rfl | rfl <;> decide

lemma Fits.before (h : Control done s) (hknown : ∀ k ∈ done, k.1 ∈ knownTags)
    (hfits : Fits s e) : ∀ k ∈ done, Before k e.key := by
  intro k hk
  rcases hfits.admits.tag_le k.1 (hknown k hk) (h.stage_le k hk) with hlt | ⟨heq, hnamed⟩
  · exact .inl hlt
  · refine .inr ⟨heq, hnamed, fun hid => ?_⟩
    have hmem : (k.1, e.id) ∈ done := by
      rw [show e.id = k.2 from hid.symm]
      exact hk
    rcases hnamed with huser | hgroup
    · exact hfits.user (heq.symm.trans huser) ((h.userIds e.id).mpr (huser ▸ hmem))
    · exact hfits.group (heq.symm.trans hgroup) ((h.groupIds e.id).mpr (hgroup ▸ hmem))

lemma Admits.known (h : Admits stage tag) : tag ∈ knownTags := by
  rcases h with ⟨rfl, -⟩ | ⟨rfl, -⟩ | ⟨rfl, -⟩ | ⟨rfl, -⟩ | ⟨rfl, -⟩ | ⟨rfl, -⟩ <;> decide

structure Checked (done : List AclEntry) (s : AclScan) : Prop where
  control : Control (done.map AclEntry.key) s
  known : ∀ k ∈ done.map AclEntry.key, k.1 ∈ knownTags
  ordered : (done.map AclEntry.key).Pairwise Before
  ids : ∀ k ∈ done.map AclEntry.key, Named k → k.2 ≠ BitVec.allOnes 32

lemma Checked.scanEntry {done : List AclEntry} (h : Checked done s)
    (hs : Acl.scanEntry actor owner s e = .ok s') : Checked (done ++ [e]) s' := by
  obtain ⟨hfits, hfollows⟩ := scanEntry_fits hs
  have hkeys : (done ++ [e]).map AclEntry.key = done.map AclEntry.key ++ [e.key] := by simp
  constructor
  all_goals rw [hkeys]
  · exact h.control.push hfits hfollows
  · intro k hk
    rcases List.mem_append.mp hk with hdone | hnew
    · exact h.known k hdone
    · rw [List.mem_singleton.mp hnew]
      exact hfits.admits.known
  · refine List.pairwise_append.mpr ⟨h.ordered, List.pairwise_singleton _ _, fun k hk k' hk' => ?_⟩
    rw [List.mem_singleton.mp hk']
    exact hfits.before h.control h.known k hk
  · intro k hk
    rcases List.mem_append.mp hk with hdone | hnew
    · exact h.ids k hdone
    · rw [List.mem_singleton.mp hnew]
      exact hfits.id

lemma checked_init : Checked [] AclScan.init :=
  ⟨control_init, by simp, by simp, by simp⟩

private lemma exists_key {o : Option (BitVec 16)}
    (h : Only entries (·.tag = t) AclEntry.perm o) (hset : o ≠ none) :
    ∃ k ∈ entries.map AclEntry.key, k.1 = t := by
  rw [ne_eq, h.eq_none_iff] at hset
  push Not at hset
  obtain ⟨e, he, htag⟩ := hset
  exact ⟨e.key, List.mem_map_of_mem he, htag⟩

lemma canonical_of_aclHasPermissions {acl : Blob} {requested : BitVec 16} {granted : Bool}
    (h : aclHasPermissions acl actor owner requested = .ok granted) :
    Canonical (aclEntries acl) := by
  obtain ⟨s, hs, ⟨huser, hgroup, hother, hmask⟩, -⟩ := scan_of_aclHasPermissions h
  have hscanned := scanned_of_foldlM hs
  have hchecked : Checked (aclEntries acl) s :=
    foldlM_invariant (fun _ _ _ _ h hs => h.scanEntry hs) _ checked_init hs
  exact ⟨hscanned.perms, hchecked.known, hchecked.ordered, hchecked.ids,
    exists_key hscanned.userObj huser, exists_key hscanned.groupObj hgroup,
    exists_key hscanned.other hother,
    fun hnamed => exists_key hscanned.mask (hmask (hchecked.control.named.mpr hnamed))⟩

lemma admits_of_tags (hknown : tag ∈ knownTags)
    (huser : aclUserObj < tag → 1 ≤ stage) (hgroup : aclGroupObj < tag → 2 ≤ stage)
    (hdone : stage = 0 ∨ ∃ t ∈ knownTags, after t = stage ∧
      (t < tag ∨ (t = tag ∧ (t = aclUser ∨ t = aclGroup)))) : Admits stage tag := by
  simp only [knownTags, List.mem_cons, List.not_mem_nil, or_false] at hknown hdone
  rcases hdone with rfl | ⟨t, ht, rfl, hle⟩
  · rcases hknown with rfl | rfl | rfl | rfl | rfl | rfl <;> revert huser <;> decide
  · rcases hknown with rfl | rfl | rfl | rfl | rfl | rfl <;>
      rcases ht with rfl | rfl | rfl | rfl | rfl | rfl <;> revert huser hgroup hle <;> decide

namespace CanonicalKeys

variable {keys before rest : List Key} {k : Key}

lemma before_of_mem (h : CanonicalKeys keys) (hkeys : keys = before ++ k :: rest) :
    (∀ k' ∈ before, Before k' k) ∧ ∀ k' ∈ rest, Before k k' := by
  have hordered := h.ordered
  rw [hkeys, List.pairwise_append, List.pairwise_cons] at hordered
  exact ⟨fun k' hk' => hordered.2.2 k' hk' k (by simp), hordered.2.1.1⟩

lemma done_of_lt (h : CanonicalKeys keys) (hkeys : keys = before ++ k :: rest) {t : BitVec 16}
    (hsome : ∃ k' ∈ keys, k'.1 = t) (hlt : t < k.1) : ∃ k' ∈ before, k'.1 = t := by
  obtain ⟨k', hk', rfl⟩ := hsome
  rw [hkeys, List.mem_append, List.mem_cons] at hk'
  rcases hk' with hdone | rfl | hrest
  · exact ⟨k', hdone, rfl⟩
  · exact absurd hlt (BitVec.lt_irrefl _)
  · rcases (h.before_of_mem hkeys).2 k' hrest with hlt' | ⟨heq, -⟩
    · exact absurd hlt (BitVec.not_lt.mpr (BitVec.le_of_lt hlt'))
    · exact absurd (heq ▸ hlt) (BitVec.lt_irrefl _)

lemma fits (h : CanonicalKeys keys) (hkeys : keys = before ++ e.key :: rest)
    (hcontrol : Control before s) (hperm : e.perm &&& ~~~ 0o7#16 = 0) : Fits s e := by
  obtain ⟨hbefore, -⟩ := h.before_of_mem hkeys
  have hmem : e.key ∈ keys := by simp [hkeys]
  have hstage : ∀ {t : BitVec 16}, (∃ k ∈ keys, k.1 = t) → t < e.tag → after t ≤ s.stage := by
    intro t hsome hlt
    obtain ⟨k, hk, rfl⟩ := h.done_of_lt hkeys hsome hlt
    exact hcontrol.stage_le k hk
  have hfresh : ∀ {t : BitVec 16}, e.tag = t → (t, e.id) ∉ before := by
    intro t htag hdone
    rcases hbefore _ hdone with hlt | ⟨-, -, hid⟩
    · exact absurd (htag ▸ hlt) (BitVec.lt_irrefl _)
    · exact hid rfl
  refine ⟨hperm, admits_of_tags (h.known _ hmem) (hstage h.userObj) (hstage h.groupObj) ?_, h.ids _ hmem,
    fun htag hid => hfresh htag ((hcontrol.userIds _).mp hid),
    fun htag hid => hfresh htag ((hcontrol.groupIds _).mp hid)⟩
  rcases hcontrol.stage_eq with hzero | ⟨k, hk, heq⟩
  · exact .inl hzero
  · refine .inr ⟨k.1, h.known k (by simp [hkeys, hk]), heq, ?_⟩
    rcases hbefore k hk with hlt | ⟨htag, hnamed, -⟩
    · exact .inl hlt
    · exact .inr ⟨htag, hnamed⟩

end CanonicalKeys

lemma Canonical.scan (h : Canonical entries) (actor : Actor) (owner : Owner) :
    ∃ s, entries.foldlM (scanEntry actor owner) AclScan.init = .ok s ∧
      Control (entries.map AclEntry.key) s := by
  obtain ⟨hperms, hkeys⟩ := h
  have hinit : Control (List.map AclEntry.key []) AclScan.init := control_init
  refine foldlM_total (I := fun done s => Control (done.map AclEntry.key) s) entries ?_ hinit
  intro before s e rest hsplit hcontrol
  rw [List.nil_append] at hsplit
  have hsplitKeys : entries.map AclEntry.key =
      before.map AclEntry.key ++ e.key :: rest.map AclEntry.key := by simp [hsplit]
  have hfits := hkeys.fits hsplitKeys hcontrol (hperms e (by simp [hsplit]))
  obtain ⟨s', hs'⟩ := scanEntry_total actor owner hfits
  refine ⟨s', hs', ?_⟩
  rw [List.map_append, List.map_singleton]
  exact hcontrol.push hfits (scanEntry_fits hs').2

lemma after_le (tag : BitVec 16) : after tag ≤ 4 := by
  unfold after
  split
  · decide
  split
  · decide
  split <;> decide

private lemma register_isSome {o : Option (BitVec 16)}
    (h : Only entries (·.tag = t) AclEntry.perm o)
    (hsome : ∃ k ∈ entries.map AclEntry.key, k.1 = t) : o.isNone = false := by
  obtain ⟨k, hk, htag⟩ := hsome
  obtain ⟨e, he, rfl⟩ := List.mem_map.mp hk
  rw [h.eq_some he htag, Option.isNone_some]

structure Framed (acl : Blob) : Prop where
  length : ¬ (acl.length < 4 ∨ (acl.length - 4) % 8 ≠ 0)
  version : version acl = 2

lemma Canonical.aclHasPermissions {acl : Blob} (h : Canonical (aclEntries acl)) (hframed : Framed acl)
    (actor : Actor) (owner : Owner) (requested : BitVec 16) :
    ∃ granted, Acl.aclHasPermissions acl actor owner requested = .ok granted := by
  obtain ⟨s, hs, hcontrol⟩ := h.scan actor owner
  have hscanned := scanned_of_foldlM hs
  have hstage : s.stage = 4 := by
    obtain ⟨k, hk, htag⟩ := h.2.other
    have hle := hcontrol.stage_le k hk
    rw [htag, show after aclOther = 4 from by decide] at hle
    rcases hcontrol.stage_eq with hzero | ⟨k', -, heq⟩
    · omega
    · have hle' := after_le k'.1
      omega
  have hmask : ¬ (s.hasNamedEntry = true ∧ s.mask.isNone = true) := by
    rintro ⟨hnamed, hnone⟩
    rw [register_isSome hscanned.mask (h.2.mask (hcontrol.named.mp hnamed))] at hnone
    cases hnone
  refine ⟨decideAccess actor owner requested s, ?_⟩
  rw [Acl.aclHasPermissions, if_neg hframed.length, if_neg (not_not.mpr hframed.version), hs]
  dsimp only
  rw [if_neg, if_neg hmask]
  rw [register_isSome hscanned.userObj h.2.userObj, register_isSome hscanned.groupObj h.2.groupObj,
    register_isSome hscanned.other h.2.other, hstage]
  decide

/-! ## Chmod -/

lemma three_bits (x : BitVec 32) : (x &&& 0o7).setWidth 16 &&& ~~~ 0o7#16 = 0 := by
  rw [BitVec.setWidth_and, BitVec.and_assoc,
    show BitVec.setWidth 16 (0o7 : BitVec 32) &&& ~~~ 0o7#16 = 0 from by decide]
  exact BitVec.and_zero

section

variable {mode : BitVec 32} {c c' : ChmodScan} {index : Nat} {tag perm perm' : BitVec 16}

structure Marks (c : ChmodScan) (tag : BitVec 16) (c' : ChmodScan) : Prop where
  userObj : c'.userObj = true ↔ c.userObj = true ∨ tag = aclUserObj
  groupObj : c'.groupObj ≠ none ↔ c.groupObj ≠ none ∨ tag = aclGroupObj
  mask : c'.hasMask = true ↔ c.hasMask = true ∨ tag = aclMask
  other : c'.otherEntry = true ↔ c.otherEntry = true ∨ tag = aclOther
  named : c'.hasNamedEntry = true ↔ c.hasNamedEntry = true ∨ tag = aclUser ∨ tag = aclGroup

lemma chmodEntry_marks (h : chmodEntry mode index c tag perm = .ok (perm', c')) :
    perm' &&& ~~~ 0o7#16 = 0 ∧ Marks c tag c' := by
  rw [chmodEntry] at h
  split at h
  · cases h
  next hperm =>
  rw [not_not] at hperm
  split at h
  next htag =>
    cases h
    refine ⟨three_bits _, ?_, ?_, ?_, ?_, ?_⟩ <;>
      simp [htag.1, aclUserObj, aclUser, aclGroupObj, aclGroup, aclMask, aclOther]
  split at h
  next htag =>
    cases h
    refine ⟨hperm, ?_, ?_, ?_, ?_, ?_⟩ <;> rcases htag with rfl | rfl <;>
      simp [aclUserObj, aclUser, aclGroupObj, aclGroup, aclMask, aclOther]
  split at h
  next htag =>
    cases h
    refine ⟨hperm, ?_, ?_, ?_, ?_, ?_⟩ <;>
      simp [htag.1, aclUserObj, aclUser, aclGroupObj, aclGroup, aclMask, aclOther]
  split at h
  next htag =>
    cases h
    refine ⟨three_bits _, ?_, ?_, ?_, ?_, ?_⟩ <;>
      simp [htag.1, aclUserObj, aclUser, aclGroupObj, aclGroup, aclMask, aclOther]
  split at h
  next htag =>
    cases h
    refine ⟨three_bits _, ?_, ?_, ?_, ?_, ?_⟩ <;>
      simp [htag.1, aclUserObj, aclUser, aclGroupObj, aclGroup, aclMask, aclOther]
  · cases h

lemma chmodEntry_total (mode : BitVec 32) (index : Nat) (hperm : perm &&& ~~~ 0o7#16 = 0)
    (hknown : tag ∈ knownTags) (huser : tag = aclUserObj → c.userObj = false)
    (hgroup : tag = aclGroupObj → c.groupObj = none) (hmask : tag = aclMask → c.hasMask = false)
    (hother : tag = aclOther → c.otherEntry = false) :
    ∃ perm' c', chmodEntry mode index c tag perm = .ok (perm', c') := by
  simp only [knownTags, List.mem_cons, List.not_mem_nil, or_false] at hknown
  rw [chmodEntry, if_neg (not_not.mpr hperm)]
  rcases hknown with rfl | rfl | rfl | rfl | rfl | rfl <;>
    simp_all [aclUserObj, aclUser, aclGroupObj, aclGroup, aclMask, aclOther]

structure Free (keys : List Key) (c : ChmodScan) : Prop where
  userObj : (∃ k ∈ keys, k.1 = aclUserObj) → c.userObj = false
  groupObj : (∃ k ∈ keys, k.1 = aclGroupObj) → c.groupObj = none
  mask : (∃ k ∈ keys, k.1 = aclMask) → c.hasMask = false
  other : (∃ k ∈ keys, k.1 = aclOther) → c.otherEntry = false

lemma Before.tag_ne {k k' : Key} (h : Before k k') {t : BitVec 16} (ht : k'.1 = t)
    (huser : t ≠ aclUser) (hgroup : t ≠ aclGroup) : k.1 ≠ t := by
  rintro rfl
  rcases h with hlt | ⟨-, hnamed, -⟩
  · exact absurd (ht ▸ hlt) (BitVec.lt_irrefl _)
  · rcases hnamed with hnamed | hnamed
    · exact huser hnamed
    · exact hgroup hnamed

lemma Free.step {keys : List Key} {k : Key} (h : Free (k :: keys) c)
    (hbefore : ∀ k' ∈ keys, Before k k') (hmarks : Marks c k.1 c') : Free keys c' := by
  have hrest : ∀ {t : BitVec 16}, (∃ k' ∈ keys, k'.1 = t) → ∃ k' ∈ k :: keys, k'.1 = t :=
    fun ⟨k', hk', ht⟩ => ⟨k', List.mem_cons_of_mem k hk', ht⟩
  have hother : ∀ {t : BitVec 16}, (∃ k' ∈ keys, k'.1 = t) → t ≠ aclUser → t ≠ aclGroup → k.1 ≠ t :=
    fun ⟨k', hk', ht⟩ huser hgroup => (hbefore k' hk').tag_ne ht huser hgroup
  refine ⟨fun hsome => ?_, fun hsome => ?_, fun hsome => ?_, fun hsome => ?_⟩
  · rw [← Bool.not_eq_true, hmarks.userObj, h.userObj (hrest hsome)]
    simpa using hother hsome (by decide) (by decide)
  · rw [← not_not (a := c'.groupObj = none), ← ne_eq, hmarks.groupObj, h.groupObj (hrest hsome)]
    simpa using hother hsome (by decide) (by decide)
  · rw [← Bool.not_eq_true, hmarks.mask, h.mask (hrest hsome)]
    simpa using hother hsome (by decide) (by decide)
  · rw [← Bool.not_eq_true, hmarks.other, h.other (hrest hsome)]
    simpa using hother hsome (by decide) (by decide)

structure Marked (keys : List Key) (c c' : ChmodScan) : Prop where
  userObj : c'.userObj = true ↔ c.userObj = true ∨ ∃ k ∈ keys, k.1 = aclUserObj
  groupObj : c'.groupObj ≠ none ↔ c.groupObj ≠ none ∨ ∃ k ∈ keys, k.1 = aclGroupObj
  mask : c'.hasMask = true ↔ c.hasMask = true ∨ ∃ k ∈ keys, k.1 = aclMask
  other : c'.otherEntry = true ↔ c.otherEntry = true ∨ ∃ k ∈ keys, k.1 = aclOther
  named : c'.hasNamedEntry = true ↔ c.hasNamedEntry = true ∨ ∃ k ∈ keys, Named k

lemma Marked.cons {keys : List Key} {k : Key} {c₁ : ChmodScan} (h : Marks c k.1 c₁)
    (hrest : Marked keys c₁ c') : Marked (k :: keys) c c' := by
  constructor
  · rw [hrest.userObj, h.userObj, or_assoc, List.exists_mem_cons_iff]
  · rw [hrest.groupObj, h.groupObj, or_assoc, List.exists_mem_cons_iff]
  · rw [hrest.mask, h.mask, or_assoc, List.exists_mem_cons_iff]
  · rw [hrest.other, h.other, or_assoc, List.exists_mem_cons_iff]
  · rw [hrest.named, h.named, or_assoc, List.exists_mem_cons_iff]
    rfl

structure Rewritten (blob out : Blob) : Prop where
  length : out.length = blob.length
  keys : (chunks out).map AclEntry.key = (chunks blob).map AclEntry.key
  perms : ∀ e ∈ chunks out, e.perm &&& ~~~ 0o7#16 = 0

lemma chmodEntries_total (mode : BitVec 32) (blob : Blob) (index : Nat)
    (hperms : ∀ e ∈ chunks blob, e.perm &&& ~~~ 0o7#16 = 0)
    (hknown : ∀ k ∈ (chunks blob).map AclEntry.key, k.1 ∈ knownTags)
    (hordered : ((chunks blob).map AclEntry.key).Pairwise Before)
    (hfree : Free ((chunks blob).map AclEntry.key) c) :
    ∃ out c', chmodEntries mode blob index c = .ok (out, c') ∧ Rewritten blob out ∧
      Marked ((chunks blob).map AclEntry.key) c c' := by
  induction blob using chunks.induct generalizing index c with
  | case1 b0 b1 b2 b3 b4 b5 b6 b7 rest ih =>
    rw [chunks] at hperms
    rw [chunks, List.map_cons] at hknown hordered hfree ⊢
    obtain ⟨hperm, hperms⟩ := List.forall_mem_cons.mp hperms
    obtain ⟨htag, hknown⟩ := List.forall_mem_cons.mp hknown
    obtain ⟨hbefore, hordered⟩ := List.pairwise_cons.mp hordered
    have hself : ∀ {t : BitVec 16}, u16FromLe b0 b1 = t → ∃ k ∈ AclEntry.key
        ⟨u16FromLe b0 b1, u16FromLe b2 b3, u32FromLe b4 b5 b6 b7⟩ ::
          (chunks rest).map AclEntry.key, k.1 = t := fun ht => ⟨_, List.mem_cons_self, ht⟩
    obtain ⟨perm, c₁, hentry⟩ := chmodEntry_total (c := c) mode index hperm htag
      (fun ht => hfree.userObj (hself ht)) (fun ht => hfree.groupObj (hself ht))
      (fun ht => hfree.mask (hself ht)) (fun ht => hfree.other (hself ht))
    obtain ⟨hthree, hmarks⟩ := chmodEntry_marks hentry
    obtain ⟨out, c', hout, hrewritten, hmarked⟩ := ih (index + 1) hperms hknown hordered
      (hfree.step hbefore hmarks)
    have hrun : chmodEntries mode (b0 :: b1 :: b2 :: b3 :: b4 :: b5 :: b6 :: b7 :: rest) index c =
        .ok (b0 :: b1 :: perm.extractLsb' 0 8 :: perm.extractLsb' 8 8 :: b4 :: b5 :: b6 :: b7 :: out,
          c') := by
      change chmodEntry mode index c (u16FromLe b0 b1) (u16FromLe b2 b3) = _ at hentry
      simp [chmodEntries, hentry, hout, u16ToLe]
    refine ⟨_, c', hrun, ⟨?_, ?_, ?_⟩, hmarked.cons hmarks⟩
    · simp [hrewritten.length]
    · rw [chunks, List.map_cons, hrewritten.keys]
      rfl
    · rw [chunks, u16FromLe_extract]
      exact List.forall_mem_cons.mpr ⟨hthree, hrewritten.perms⟩
  | case2 blob hshort =>
    have hnone : chunks blob = [] := by
      rw [chunks]
      exact hshort
    have hsame : chmodEntries mode blob index c = .ok (blob, c) := by
      rw [chmodEntries]
      exact hshort
    refine ⟨blob, c, hsame, ⟨rfl, rfl, by simp [hnone]⟩, ?_⟩
    rw [hnone]
    constructor <;> simp

lemma chunks_eq_nil {blob : Blob} (h : blob.length < 8) : chunks blob = [] := by
  rw [chunks]
  rintro b0 b1 b2 b3 b4 b5 b6 b7 rest rfl
  simp only [List.length_cons] at h
  omega

lemma length_lt_eight {blob : Blob} (h : ∀ b0 b1 b2 b3 b4 b5 b6 b7 rest,
    blob = b0 :: b1 :: b2 :: b3 :: b4 :: b5 :: b6 :: b7 :: rest → False) : blob.length < 8 := by
  match blob with
  | [] | [_] | [_, _] | [_, _, _] | [_, _, _, _] | [_, _, _, _, _] | [_, _, _, _, _, _]
  | [_, _, _, _, _, _, _] => simp
  | b0 :: b1 :: b2 :: b3 :: b4 :: b5 :: b6 :: b7 :: rest =>
    exact absurd rfl (h b0 b1 b2 b3 b4 b5 b6 b7 rest)

lemma length_setPermissions (blob : Blob) (i : Nat) (perm : BitVec 16) :
    (setPermissions blob i perm).length = blob.length := by
  simp [setPermissions, u16ToLe]

lemma rewritten_setPermissions (blob : Blob) (i : Nat) {perm : BitVec 16}
    (hperm : perm &&& ~~~ 0o7#16 = 0) (hperms : ∀ e ∈ chunks blob, e.perm &&& ~~~ 0o7#16 = 0) :
    Rewritten blob (setPermissions blob i perm) := by
  suffices hkept : (chunks (setPermissions blob i perm)).map AclEntry.key =
      (chunks blob).map AclEntry.key ∧
      ∀ e ∈ chunks (setPermissions blob i perm), e.perm &&& ~~~ 0o7#16 = 0 from
    ⟨length_setPermissions blob i perm, hkept.1, hkept.2⟩
  induction blob using chunks.induct generalizing i with
  | case1 b0 b1 b2 b3 b4 b5 b6 b7 rest ih =>
    rw [chunks] at hperms
    obtain ⟨hfirst, hperms⟩ := List.forall_mem_cons.mp hperms
    cases i with
    | zero =>
      simp only [setPermissions, u16ToLe, Nat.zero_mul, Nat.zero_add, List.set_cons_succ,
        List.set_cons_zero, chunks, u16FromLe_extract]
      exact ⟨rfl, List.forall_mem_cons.mpr ⟨hperm, hperms⟩⟩
    | succ i =>
      have hlow : (i + 1) * 8 + 2 = i * 8 + 2 + 8 := by omega
      have hhigh : (i + 1) * 8 + 3 = i * 8 + 3 + 8 := by omega
      obtain ⟨hkeys, hperms⟩ := ih i hperms
      simp only [setPermissions, u16ToLe] at hkeys hperms ⊢
      simp only [hlow, hhigh, List.set_cons_succ, chunks, List.map_cons, hkeys]
      exact ⟨trivial, List.forall_mem_cons.mpr ⟨hfirst, hperms⟩⟩
  | case2 blob hshort =>
    have hlength := length_lt_eight hshort
    rw [chunks_eq_nil hlength, chunks_eq_nil (by rwa [length_setPermissions])]
    simp

lemma Rewritten.trans {blob mid out : Blob} (h : Rewritten blob mid) (h' : Rewritten mid out) :
    Rewritten blob out :=
  ⟨h'.length.trans h.length, h'.keys.trans h.keys, h'.perms⟩

lemma Framed.replaceEntries {value out : Blob} (h : Framed value)
    (hlength : out.length = (value.drop 4).length) :
    Framed (value.take 4 ++ out) ∧ aclEntries (value.take 4 ++ out) = chunks out := by
  have hvalue := h.length
  have hfour : 4 ≤ value.length := by omega
  have htake : (value.take 4).length = 4 := by simp [hfour]
  refine ⟨⟨?_, ?_⟩, ?_⟩
  · rw [List.length_append, htake, hlength, List.length_drop]
    omega
  · rw [← h.version]
    match value, hfour with
    | _ :: _ :: _ :: _ :: _, _ => rfl
  · rw [aclEntries, List.drop_append_of_le_length (by omega), List.drop_of_length_le (by omega),
      List.nil_append]

lemma Rewritten.canonical {value out : Blob} (h : Rewritten (value.drop 4) out)
    (hcanonical : Canonical (aclEntries value)) (hframed : Framed value) :
    Framed (value.take 4 ++ out) ∧ Canonical (aclEntries (value.take 4 ++ out)) := by
  obtain ⟨hframed', hentries⟩ := hframed.replaceEntries h.length
  refine ⟨hframed', ?_⟩
  rw [hentries]
  exact ⟨h.perms, h.keys ▸ hcanonical.2⟩

lemma Canonical.chmodAccessAcl {value : Blob} (h : Canonical (aclEntries value))
    (hframed : Framed value) (mode : BitVec 32) :
    ∃ acl, Acl.chmodAccessAcl value mode = .ok acl ∧ Framed acl ∧ Canonical (aclEntries acl) := by
  obtain ⟨hperms, hkeys⟩ := h
  have hfree : Free ((chunks (value.drop 4)).map AclEntry.key) ⟨false, none, false, false, false⟩ :=
    ⟨fun _ => rfl, fun _ => rfl, fun _ => rfl, fun _ => rfl⟩
  obtain ⟨out, c, hout, hrewritten, hmarked⟩ :=
    chmodEntries_total mode (value.drop 4) 0 hperms hkeys.known hkeys.ordered hfree
  obtain ⟨groupObj, hgroupObj⟩ := Option.ne_none_iff_exists'.mp (hmarked.groupObj.mpr (.inr hkeys.groupObj))
  have huser := hmarked.userObj.mpr (.inr hkeys.userObj)
  have hother := hmarked.other.mpr (.inr hkeys.other)
  have hmask : c.hasNamedEntry = true → c.hasMask = true := by
    intro hnamed
    rcases hmarked.named.mp hnamed with hfalse | hsome
    · cases hfalse
    · exact hmarked.mask.mpr (.inr (hkeys.mask hsome))
  have hpatched := hrewritten.trans
    (rewritten_setPermissions out groupObj (three_bits (mode >>> 3)) hrewritten.perms)
  rw [Acl.chmodAccessAcl, if_neg hframed.length, if_neg (not_not.mpr hframed.version), hout]
  dsimp only
  rw [hgroupObj]
  dsimp only
  rw [if_neg (by simpa [huser, hother] using hmask)]
  split
  · exact ⟨_, rfl, hpatched.canonical ⟨hperms, hkeys⟩ hframed⟩
  · exact ⟨_, rfl, hrewritten.canonical ⟨hperms, hkeys⟩ hframed⟩

end

/-- Every list that chmods derive from a list is accepted by the access check and by
chmod, whatever they are asked. -/
def Usable (value : Blob) : Prop :=
  ∀ (modes : List (BitVec 32)) (acl : Blob), modes.foldlM chmodAccessAcl value = .ok acl →
    (∀ actor owner requested, ∃ granted, aclHasPermissions acl actor owner requested = .ok granted) ∧
      ∀ mode, ∃ acl', chmodAccessAcl acl mode = .ok acl'

lemma Canonical.of_chmods {value acl : Blob} (h : Canonical (aclEntries value))
    (hframed : Framed value) (modes : List (BitVec 32))
    (hmodes : modes.foldlM Acl.chmodAccessAcl value = .ok acl) :
    Framed acl ∧ Canonical (aclEntries acl) := by
  induction modes generalizing value with
  | nil =>
    cases hmodes
    exact ⟨hframed, h⟩
  | cons mode modes ih =>
    obtain ⟨value', hvalue', hframed', h'⟩ := h.chmodAccessAcl hframed mode
    rw [List.foldlM_cons, hvalue'] at hmodes
    exact ih h' hframed' hmodes

lemma framed_of_aclAccessModeBits {value : Blob} {bits : BitVec 16}
    (h : aclAccessModeBits value = .ok bits) : Framed value := by
  rw [aclAccessModeBits] at h
  cases hparsed : parsePosixAclXattr value with
  | error e =>
    rw [hparsed] at h
    cases h
  | ok entries =>
    rw [parsePosixAclXattr] at hparsed
    split at hparsed
    · cases hparsed
    next hlength =>
      split at hparsed
      · cases hparsed
      next hversion =>
        have height := (of_parseEntries hparsed).1
        rw [List.length_drop] at height
        exact ⟨by omega, not_not.mp hversion⟩

/-- A stored list stays usable exactly if it is in the canonical order. -/
theorem stored_acl_usable_iff (value : Blob) (bits : BitVec 16)
    (hstored : aclAccessModeBits value = .ok bits) :
    Usable value ↔ Canonical (aclEntries value) := by
  constructor
  · intro husable
    obtain ⟨haccess, -⟩ := husable [] value rfl
    obtain ⟨granted, hgranted⟩ := haccess ⟨0, []⟩ ⟨0, 0⟩ 0
    exact canonical_of_aclHasPermissions hgranted
  · intro hcanonical modes acl hmodes
    obtain ⟨hframed, hcanonical⟩ :=
      hcanonical.of_chmods (framed_of_aclAccessModeBits hstored) modes hmodes
    refine ⟨hcanonical.aclHasPermissions hframed, fun mode => ?_⟩
    obtain ⟨acl', hacl', -⟩ := hcanonical.chmodAccessAcl hframed mode
    exact ⟨acl', hacl'⟩

def namedUserAcl : List AclEntry :=
  [⟨aclUserObj, 0o7, -1⟩, ⟨aclUser, 0o4, 1000⟩, ⟨aclGroupObj, 0o5, -1⟩, ⟨aclMask, 0o7, -1⟩,
    ⟨aclOther, 0o0, -1⟩]

lemma canonical_namedUserAcl : Canonical namedUserAcl := by
  refine ⟨by simp [namedUserAcl], ⟨?_, ?_, ?_, ?_, ?_, ?_, fun _ => ?_⟩⟩
  · simp [namedUserAcl, AclEntry.key, knownTags]
  · simp [namedUserAcl, AclEntry.key, Before, aclUserObj, aclUser, aclGroupObj, aclMask, aclOther]
  · simp [namedUserAcl, AclEntry.key, Named, aclUserObj, aclUser, aclGroupObj, aclGroup, aclMask,
      aclOther]
  all_goals simp [namedUserAcl, AclEntry.key, aclUserObj, aclUser, aclGroupObj, aclMask, aclOther]

theorem stored_acl_usable_namedUser :
    aclAccessModeBits (encode namedUserAcl) = .ok 0o770 ∧ Usable (encode namedUserAcl) := by
  refine ⟨by decide, (stored_acl_usable_iff (encode namedUserAcl) 0o770 (by decide)).mpr ?_⟩
  rw [aclEntries_encode]
  exact canonical_namedUserAcl

/-- `setxattr` masks the permissions before it looks at them, and the other two
functions refuse the list that it has stored. -/
theorem stored_acl_refused :
    let value := encode [⟨aclUserObj, 0o7, -1⟩, ⟨aclGroupObj, 0, -1⟩, ⟨aclOther, 0o10, -1⟩]
    aclAccessModeBits value = .ok 0o700 ∧ ¬ Usable value ∧
      aclHasPermissions value ⟨1000, []⟩ ⟨2000, 3000⟩ 0o4 =
        .error "invalid POSIX ACL permission bits" ∧
      chmodAccessAcl value 0o644 = .error "invalid POSIX ACL permission bits" := by
  have haccess : aclHasPermissions
      (encode [⟨aclUserObj, 0o7, -1⟩, ⟨aclGroupObj, 0, -1⟩, ⟨aclOther, 0o10, -1⟩]) ⟨1000, []⟩
      ⟨2000, 3000⟩ 0o4 = .error "invalid POSIX ACL permission bits" := by decide
  refine ⟨by decide, fun husable => ?_, haccess, by decide⟩
  obtain ⟨granted, hgranted⟩ := (husable [] _ rfl).1 ⟨1000, []⟩ ⟨2000, 3000⟩ 0o4
  rw [haccess] at hgranted
  cases hgranted

end Fod.Acl
