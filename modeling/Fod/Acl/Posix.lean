import Fod.Acl.Model
import Fod.Lib.Scan

/-!
# The access check of POSIX.1e

What the scan of the store knows about the entries it has passed, and how its
decision compares with the access check algorithm.
-/

namespace Fod.Acl

open BitSet Scan

def encodeEntry (e : AclEntry) : Blob :=
  [e.tag.extractLsb' 0 8, e.tag.extractLsb' 8 8, e.perm.extractLsb' 0 8, e.perm.extractLsb' 8 8,
    e.id.extractLsb' 0 8, e.id.extractLsb' 8 8, e.id.extractLsb' 16 8, e.id.extractLsb' 24 8]

def encode (entries : List AclEntry) : Blob := [2, 0, 0, 0] ++ entries.flatMap encodeEntry

lemma u16FromLe_extract (p : BitVec 16) : u16FromLe (p.extractLsb' 0 8) (p.extractLsb' 8 8) = p := by
  rw [u16FromLe, BitVec.extractLsb'_append_extractLsb'_eq_extractLsb' (by rfl)]
  exact BitVec.extractLsb'_eq_self

lemma u32FromLe_extract (p : BitVec 32) :
    u32FromLe (p.extractLsb' 0 8) (p.extractLsb' 8 8) (p.extractLsb' 16 8) (p.extractLsb' 24 8) = p := by
  rw [u32FromLe, BitVec.extractLsb'_append_extractLsb'_eq_extractLsb' (by rfl),
    BitVec.extractLsb'_append_extractLsb'_eq_extractLsb' (by rfl),
    BitVec.extractLsb'_append_extractLsb'_eq_extractLsb' (by rfl)]
  exact BitVec.extractLsb'_eq_self

lemma chunks_flatMap_encodeEntry (entries : List AclEntry) :
    chunks (entries.flatMap encodeEntry) = entries := by
  induction entries with
  | nil => rfl
  | cons e entries ih =>
    simp only [List.flatMap_cons, encodeEntry, List.cons_append, List.nil_append, chunks]
    rw [u16FromLe_extract, u16FromLe_extract, u32FromLe_extract, ih]

lemma aclEntries_encode (entries : List AclEntry) : aclEntries (encode entries) = entries :=
  chunks_flatMap_encodeEntry entries

def NamesUser (actor : Actor) (e : AclEntry) : Prop := e.tag = aclUser ∧ e.id = actor.uid

def MatchesGroup (actor : Actor) (owner : Owner) (e : AclEntry) : Prop :=
  (e.tag = aclGroupObj ∧ owner.gid ∈ actor.groups) ∨ (e.tag = aclGroup ∧ e.id ∈ actor.groups)

instance (actor : Actor) (e : AclEntry) : Decidable (NamesUser actor e) :=
  inferInstanceAs (Decidable (_ ∧ _))

instance (actor : Actor) (owner : Owner) (e : AclEntry) : Decidable (MatchesGroup actor owner e) :=
  inferInstanceAs (Decidable (_ ∨ _))

def MaskedContains (entries : List AclEntry) (e : AclEntry) (requested : BitVec 16) : Prop :=
  Contains e.perm requested ∧ ∀ m ∈ entries, m.tag = aclMask → Contains m.perm requested

instance (entries : List AclEntry) (e : AclEntry) (requested : BitVec 16) :
    Decidable (MaskedContains entries e requested) :=
  inferInstanceAs (Decidable (_ ∧ _))

def PosixAccess (entries : List AclEntry) (actor : Actor) (owner : Owner)
    (requested : BitVec 16) : Prop :=
  if actor.uid = owner.uid then
    ∃ e ∈ entries, e.tag = aclUserObj ∧ Contains e.perm requested
  else if ∃ e ∈ entries, NamesUser actor e then
    ∃ e ∈ entries, NamesUser actor e ∧ MaskedContains entries e requested
  else if ∃ e ∈ entries, MatchesGroup actor owner e then
    ∃ e ∈ entries, MatchesGroup actor owner e ∧ MaskedContains entries e requested
  else ∃ e ∈ entries, e.tag = aclOther ∧ Contains e.perm requested

instance (entries : List AclEntry) (actor : Actor) (owner : Owner) (requested : BitVec 16) :
    Decidable (PosixAccess entries actor owner requested) := by
  unfold PosixAccess
  infer_instance

/-! ## The scan -/

structure Scanned (actor : Actor) (owner : Owner) (done : List AclEntry) (s : AclScan) : Prop where
  perms : ∀ e ∈ done, e.perm &&& ~~~ 0o7#16 = 0
  userObj : Only done (·.tag = aclUserObj) AclEntry.perm s.userObj
  groupObj : Only done (·.tag = aclGroupObj) AclEntry.perm s.groupObj
  mask : Only done (·.tag = aclMask) AclEntry.perm s.mask
  other : Only done (·.tag = aclOther) AclEntry.perm s.other
  namedUser : Only done (NamesUser actor) AclEntry.perm s.namedUser
  userIds : ∀ e ∈ done, e.tag = aclUser → e.id ∈ s.namedUserIds
  named : (∃ e ∈ done, e.tag = aclUser ∨ e.tag = aclGroup) → s.hasNamedEntry = true
  matched : s.matchedGroup = true ↔ ∃ e ∈ done, MatchesGroup actor owner e
  permissions : UnionOf done (MatchesGroup actor owner) AclEntry.perm s.groupPermissions
  userObj_unset : s.stage = 0 → s.userObj = none
  groupObj_unset : s.stage < 2 → s.groupObj = none
  mask_unset : s.stage < 3 → s.mask = none
  other_unset : s.stage < 4 → s.other = none

variable {actor : Actor} {owner : Owner} {done : List AclEntry} {s s' : AclScan} {e : AclEntry}

lemma scanned_init : Scanned actor owner [] AclScan.init where
  perms := by simp
  userObj := .nil
  groupObj := .nil
  mask := .nil
  other := .nil
  namedUser := .nil
  userIds := by simp
  named := by simp
  matched := by simp [AclScan.init]
  permissions := .nil
  userObj_unset _ := rfl
  groupObj_unset _ := rfl
  mask_unset _ := rfl
  other_unset _ := rfl

private lemma exists_mem_concat {P : AclEntry → Prop} :
    (∃ e' ∈ done ++ [e], P e') ↔ (∃ e' ∈ done, P e') ∨ P e := by
  simp [or_and_right, exists_or]

private lemma forall_mem_concat {P : AclEntry → Prop} (h : ∀ e' ∈ done, P e') (he : P e) :
    ∀ e' ∈ done ++ [e], P e' := by
  intro e' he'
  rcases List.mem_append.mp he' with hdone | hnew
  · exact h e' hdone
  · rwa [List.mem_singleton.mp hnew]

lemma not_tag {t t' : BitVec 16} (h : e.tag = t) (hne : t ≠ t') : ¬ e.tag = t' :=
  fun h' => hne (h.symm.trans h')

lemma Scanned.other_classes (h : Scanned actor owner done s)
    (hperm : e.perm &&& ~~~ 0o7#16 = 0) (huser : e.tag ≠ aclUser) (hgroup : e.tag ≠ aclGroup)
    (hgroupObj : e.tag ≠ aclGroupObj) {userObj mask other : Option (BitVec 16)} {stage : Nat}
    (hu : Only (done ++ [e]) (·.tag = aclUserObj) AclEntry.perm userObj)
    (hm : Only (done ++ [e]) (·.tag = aclMask) AclEntry.perm mask)
    (ho : Only (done ++ [e]) (·.tag = aclOther) AclEntry.perm other)
    (hu₀ : stage = 0 → userObj = none) (hg₀ : stage < 2 → s.stage < 2)
    (hm₀ : stage < 3 → mask = none) (ho₀ : stage < 4 → other = none) :
    Scanned actor owner (done ++ [e])
      { s with userObj := userObj, mask := mask, other := other, stage := stage } := by
  have hmatch : ¬ MatchesGroup actor owner e := by
    rintro (⟨h', _⟩ | ⟨h', _⟩)
    · exact hgroupObj h'
    · exact hgroup h'
  refine ⟨forall_mem_concat h.perms hperm, hu, h.groupObj.skip hgroupObj, hm, ho, h.namedUser.skip fun h' => huser h'.1, ?_, ?_, ?_,
    h.permissions.skip hmatch, hu₀, fun hs => h.groupObj_unset (hg₀ hs), hm₀, ho₀⟩
  · exact forall_mem_concat h.userIds fun htag => absurd htag huser
  · rw [exists_mem_concat]
    rintro (hdone | hnew)
    · exact h.named hdone
    · exact absurd hnew (by simp [huser, hgroup])
  · rw [exists_mem_concat]
    simpa [hmatch] using h.matched

inductive ScanStep (actor : Actor) (owner : Owner) (s : AclScan) (e : AclEntry) : AclScan → Prop
  | userObj (htag : e.tag = aclUserObj) (hstage : s.stage = 0) :
      ScanStep actor owner s e { s with stage := 1, userObj := some e.perm }
  | user (htag : e.tag = aclUser) (hstage : s.stage = 1) (hid : e.id ≠ BitVec.allOnes 32)
      (hfresh : e.id ∉ s.namedUserIds) :
      ScanStep actor owner s e
        { s with
          namedUserIds := s.namedUserIds ++ [e.id]
          hasNamedEntry := true
          namedUser := if e.id = actor.uid then some e.perm else s.namedUser }
  | groupObj (htag : e.tag = aclGroupObj) (hstage : s.stage = 1) :
      ScanStep actor owner s e
        { s with
          stage := 2
          matchedGroup := s.matchedGroup || decide (owner.gid ∈ actor.groups)
          groupPermissions :=
            if owner.gid ∈ actor.groups then s.groupPermissions ||| e.perm else s.groupPermissions
          groupObj := some e.perm }
  | group (htag : e.tag = aclGroup) (hstage : s.stage = 2) (hid : e.id ≠ BitVec.allOnes 32)
      (hfresh : e.id ∉ s.namedGroupIds) :
      ScanStep actor owner s e
        { s with
          namedGroupIds := s.namedGroupIds ++ [e.id]
          hasNamedEntry := true
          matchedGroup := s.matchedGroup || decide (e.id ∈ actor.groups)
          groupPermissions :=
            if e.id ∈ actor.groups then s.groupPermissions ||| e.perm else s.groupPermissions }
  | mask (htag : e.tag = aclMask) (hstage : s.stage = 2) :
      ScanStep actor owner s e { s with stage := 3, mask := some e.perm }
  | other (htag : e.tag = aclOther) (hstage : s.stage = 2 ∨ s.stage = 3) :
      ScanStep actor owner s e { s with stage := 4, other := some e.perm }

lemma scanEntry_cases (hs : scanEntry actor owner s e = .ok s') :
    e.perm &&& ~~~ 0o7#16 = 0 ∧ ScanStep actor owner s e s' := by
  rw [scanEntry] at hs
  rcases ne_or_eq (e.perm &&& ~~~ 0o7#16) 0 with hperm | hperm
  · rw [if_pos hperm] at hs
    cases hs
  rw [if_neg (not_not.mpr hperm)] at hs
  refine ⟨hperm, ?_⟩
  split at hs
  next htag =>
    cases hs
    exact .userObj htag.1 htag.2
  split at hs
  next htag =>
    split at hs
    · cases hs
    next hfresh =>
    cases hs
    exact .user htag.1 htag.2.1 htag.2.2 hfresh
  split at hs
  next htag =>
    cases hs
    exact .groupObj htag.1 htag.2
  split at hs
  next htag =>
    split at hs
    · cases hs
    next hfresh =>
    cases hs
    exact .group htag.1 htag.2.1 htag.2.2 hfresh
  split at hs
  next htag =>
    cases hs
    exact .mask htag.1 htag.2
  split at hs
  next htag =>
    cases hs
    exact .other htag.1 htag.2
  · cases hs

lemma Scanned.scanEntry (h : Scanned actor owner done s)
    (hs : Acl.scanEntry actor owner s e = .ok s') : Scanned actor owner (done ++ [e]) s' := by
  obtain ⟨hperm, hstep⟩ := scanEntry_cases hs
  have hperms : ∀ e' ∈ done ++ [e], e'.perm &&& ~~~ 0o7#16 = 0 := forall_mem_concat h.perms hperm
  cases hstep with
  | userObj htag hstage =>
    have hnone := h.userObj_unset hstage
    refine h.other_classes hperm (not_tag htag (by decide)) (not_tag htag (by decide))
      (not_tag htag (by decide)) ((hnone ▸ h.userObj).fill htag)
      (h.mask.skip (not_tag htag (by decide))) (h.other.skip (not_tag htag (by decide))) ?_ ?_ ?_ ?_
    · simp
    · omega
    · exact fun _ => h.mask_unset (by omega)
    · exact fun _ => h.other_unset (by omega)
  | user htag hstage hid hfresh =>
    have hmatch : ¬ MatchesGroup actor owner e := by
      rintro (⟨h', _⟩ | ⟨h', _⟩)
      · exact not_tag htag (by decide) h'
      · exact not_tag htag (by decide) h'
    refine ⟨hperms, h.userObj.skip (not_tag htag (by decide)),
      h.groupObj.skip (not_tag htag (by decide)), h.mask.skip (not_tag htag (by decide)),
      h.other.skip (not_tag htag (by decide)), ?_, ?_, fun _ => rfl, ?_,
      h.permissions.skip hmatch, h.userObj_unset, h.groupObj_unset, h.mask_unset, h.other_unset⟩
    · dsimp only
      split
      next hactor =>
        -- a second entry for the actor would have its id in the list
        have hnone : s.namedUser = none := h.namedUser.eq_none_iff.mpr fun e' he' hnames =>
          hfresh (by rw [hactor, ← hnames.2]; exact h.userIds e' he' hnames.1)
        exact (hnone ▸ h.namedUser).fill ⟨htag, hactor⟩
      next hactor => exact h.namedUser.skip fun hnames => hactor hnames.2
    · exact forall_mem_concat (fun e' he' htag' => List.mem_append_left _ (h.userIds e' he' htag'))
        fun _ => by simp
    · rw [exists_mem_concat]
      simpa [hmatch] using h.matched
  | groupObj htag hstage =>
    have hnone := h.groupObj_unset (by omega)
    have hmatch : MatchesGroup actor owner e ↔ owner.gid ∈ actor.groups := by
      simp only [MatchesGroup, htag, true_and]
      exact or_iff_left fun h' => absurd h'.1 (by decide)
    refine ⟨hperms, h.userObj.skip (not_tag htag (by decide)), (hnone ▸ h.groupObj).fill htag,
      h.mask.skip (not_tag htag (by decide)), h.other.skip (not_tag htag (by decide)),
      h.namedUser.skip fun hnames => not_tag htag (by decide) hnames.1, ?_, ?_, ?_, ?_, ?_, ?_,
      fun _ => h.mask_unset (by omega), fun _ => h.other_unset (by omega)⟩
    · exact forall_mem_concat h.userIds fun htag' => absurd htag' (not_tag htag (by decide))
    · rw [exists_mem_concat]
      rintro (hdone | hnew)
      · exact h.named hdone
      · rw [htag] at hnew
        exact absurd hnew (by decide)
    · rw [exists_mem_concat, ← h.matched, hmatch]
      simp
    · dsimp only
      split
      next hin => exact h.permissions.add (hmatch.mpr hin)
      next hout => exact h.permissions.skip (mt hmatch.mp hout)
    · simp
    · simp
  | group htag hstage hid hfresh =>
    have hmatch : MatchesGroup actor owner e ↔ e.id ∈ actor.groups := by
      simp only [MatchesGroup, htag, true_and]
      exact or_iff_right fun h' => absurd h'.1 (by decide)
    refine ⟨hperms, h.userObj.skip (not_tag htag (by decide)),
      h.groupObj.skip (not_tag htag (by decide)), h.mask.skip (not_tag htag (by decide)),
      h.other.skip (not_tag htag (by decide)),
      h.namedUser.skip fun hnames => not_tag htag (by decide) hnames.1, ?_, fun _ => rfl, ?_, ?_,
      h.userObj_unset, h.groupObj_unset, h.mask_unset, h.other_unset⟩
    · exact forall_mem_concat h.userIds fun htag' => absurd htag' (not_tag htag (by decide))
    · rw [exists_mem_concat, ← h.matched, hmatch]
      simp
    · dsimp only
      split
      next hin => exact h.permissions.add (hmatch.mpr hin)
      next hout => exact h.permissions.skip (mt hmatch.mp hout)
  | mask htag hstage =>
    have hnone := h.mask_unset (by omega)
    refine h.other_classes hperm (not_tag htag (by decide)) (not_tag htag (by decide))
      (not_tag htag (by decide)) (h.userObj.skip (not_tag htag (by decide)))
      ((hnone ▸ h.mask).fill htag) (h.other.skip (not_tag htag (by decide))) ?_ ?_ ?_ ?_
    · omega
    · omega
    · omega
    · exact fun _ => h.other_unset (by omega)
  | other htag hstage =>
    have hnone := h.other_unset (by omega)
    refine h.other_classes hperm (not_tag htag (by decide)) (not_tag htag (by decide))
      (not_tag htag (by decide)) (h.userObj.skip (not_tag htag (by decide)))
      (h.mask.skip (not_tag htag (by decide))) ((hnone ▸ h.other).fill htag) ?_ ?_ ?_ ?_
    all_goals omega

/-! ## The decision -/

structure Accepted (actor : Actor) (owner : Owner) (entries : List AclEntry) (s : AclScan) : Prop
    extends Scanned actor owner entries s where
  userObj_set : s.userObj ≠ none
  groupObj_set : s.groupObj ≠ none
  other_set : s.other ≠ none
  mask_set : s.hasNamedEntry = true → s.mask ≠ none

lemma scan_of_aclHasPermissions {acl : Blob} {requested : BitVec 16} {granted : Bool}
    (h : aclHasPermissions acl actor owner requested = .ok granted) :
    ∃ s, (aclEntries acl).foldlM (scanEntry actor owner) AclScan.init = .ok s ∧
      (s.userObj ≠ none ∧ s.groupObj ≠ none ∧ s.other ≠ none ∧
        (s.hasNamedEntry = true → s.mask ≠ none)) ∧
      decideAccess actor owner requested s = granted := by
  rw [aclHasPermissions] at h
  split at h
  · cases h
  split at h
  · cases h
  split at h
  · cases h
  next s hs =>
  split at h
  · cases h
  next hcomplete =>
  split at h
  · cases h
  next hmask =>
  simp only [not_or, Option.isNone_iff_eq_none] at hcomplete hmask
  exact ⟨s, hs, ⟨hcomplete.2.1, hcomplete.2.2.1, hcomplete.2.2.2,
    fun hnamed hnone => hmask ⟨hnamed, hnone⟩⟩, by injection h⟩

lemma scanned_of_foldlM {entries : List AclEntry}
    (h : entries.foldlM (scanEntry actor owner) AclScan.init = .ok s) :
    Scanned actor owner entries s :=
  foldlM_invariant (fun _ _ _ _ h hs => h.scanEntry hs) _ scanned_init h

lemma accepted_of_aclHasPermissions {acl : Blob} {requested : BitVec 16} {granted : Bool}
    (h : aclHasPermissions acl actor owner requested = .ok granted) :
    ∃ s, Accepted actor owner (aclEntries acl) s ∧ decideAccess actor owner requested s = granted := by
  obtain ⟨s, hs, ⟨huser, hgroup, hother, hmask⟩, hgranted⟩ := scan_of_aclHasPermissions h
  exact ⟨s, ⟨scanned_of_foldlM hs, huser, hgroup, hother, hmask⟩, hgranted⟩

namespace Scanned

variable {requested p : BitVec 16}

lemma contains_seven (h : Scanned actor owner done s) (he : e ∈ done) : Contains 0o7#16 e.perm :=
  contains_of_and_not (h.perms e he)

lemma masked (h : Scanned actor owner done s) (hp : Contains 0o7#16 p) :
    (p &&& s.mask.getD 0o7 &&& requested == requested) = true ↔
      Contains p requested ∧ ∀ m ∈ done, m.tag = aclMask → Contains m.perm requested := by
  rw [beq_iff_eq]
  change Contains (p &&& s.mask.getD 0o7) requested ↔ _
  rw [contains_and]
  refine and_congr_right fun hcontains => ?_
  cases hmask : s.mask with
  | none =>
    have hnone := h.mask.eq_none_iff.mp hmask
    exact ⟨fun _ m hm htag => absurd htag (hnone m hm), fun _ => hp.trans hcontains⟩
  | some m =>
    obtain ⟨e, he, htag, rfl⟩ := (h.mask m).mp hmask
    constructor
    · intro hm m' hm' htag'
      have hsame : s.mask = some m'.perm := h.mask.eq_some hm' htag'
      rw [hmask, Option.some.injEq] at hsame
      rwa [← hsame]
    · exact fun hall => hall e he htag

lemma unmasked {P : AclEntry → Prop} {o : Option (BitVec 16)}
    (h : Only done P AclEntry.perm o) (hsome : o ≠ none) :
    (o.getD 0 &&& requested == requested) = true ↔ ∃ e ∈ done, P e ∧ Contains e.perm requested := by
  obtain ⟨p, hp⟩ := Option.ne_none_iff_exists'.mp hsome
  obtain ⟨e, he, hP, rfl⟩ := (h p).mp hp
  rw [beq_iff_eq, hp, Option.getD_some]
  constructor
  · exact fun hc => ⟨e, he, hP, hc⟩
  · rintro ⟨e', he', hP', hc⟩
    have hsame := h.eq_some he' hP'
    rw [hp, Option.some.injEq] at hsame
    rw [hsame]
    exact hc

lemma groupPermissions_or (h : Scanned actor owner done s) :
    (if owner.gid ∈ actor.groups then s.groupPermissions ||| s.groupObj.getD 0
      else s.groupPermissions) = s.groupPermissions := by
  split
  next hin =>
    cases hobj : s.groupObj with
    | none => simp
    | some p =>
      obtain ⟨e, he, htag, rfl⟩ := (h.groupObj p).mp hobj
      exact (h.permissions.contains he (.inl ⟨htag, hin⟩)).or_eq_left
  next => rfl

lemma contains_seven_union (h : Scanned actor owner done s) :
    Contains 0o7#16 s.groupPermissions := by
  refine contains_iff.mpr fun i hi => ?_
  obtain ⟨e, he, _, hbit⟩ := (h.permissions i).mp hi
  exact contains_iff.mp (h.contains_seven he) i hbit

lemma contains_union_iff (h : Scanned actor owner done s) (he : e ∈ done)
    (hmatch : MatchesGroup actor owner e)
    (hcovers : ∀ e' ∈ done, MatchesGroup actor owner e' → Contains e.perm (e'.perm &&& requested)) :
    Contains s.groupPermissions requested ↔ Contains e.perm requested := by
  constructor
  · intro hunion
    refine contains_iff.mpr fun i hi => ?_
    obtain ⟨e', he', hmatch', hbit⟩ := (h.permissions i).mp (contains_iff.mp hunion i hi)
    refine contains_iff.mp (hcovers e' he' hmatch') i ?_
    rw [BitVec.getLsbD_and, hbit, hi]
    rfl
  · exact fun hone => (h.permissions.contains he hmatch).trans hone

end Scanned

/-- Among the entries that decide for a member of the group class, one has every
requested permission that any of them has. -/
def OneEntryCovers (entries : List AclEntry) (actor : Actor) (owner : Owner)
    (requested : BitVec 16) : Prop :=
  actor.uid ≠ owner.uid → (¬ ∃ e ∈ entries, NamesUser actor e) →
    (∃ e ∈ entries, MatchesGroup actor owner e) →
      ∃ e ∈ entries, MatchesGroup actor owner e ∧
        ∀ e' ∈ entries, MatchesGroup actor owner e' → Contains e.perm (e'.perm &&& requested)

instance (entries : List AclEntry) (actor : Actor) (owner : Owner) (requested : BitVec 16) :
    Decidable (OneEntryCovers entries actor owner requested) := by
  unfold OneEntryCovers
  infer_instance

end Fod.Acl
