import Fod.Acl.Posix

/-!
# Lists that a new file inherits

The default list of a directory becomes the access list of a file created in it,
cut down to the mode that was asked for.
-/

namespace Fod.Acl

open BitSet Scan

def constrained (mode : BitVec 32) (e : AclEntry) : AclEntry :=
  if e.tag = aclUserObj then { e with perm := e.perm &&& ownerBits mode }
  else if e.tag = aclMask then { e with perm := e.perm &&& groupBits mode }
  else if e.tag = aclOther then { e with perm := e.perm &&& otherBits mode }
  else e

structure DefaultScanned (mode : BitVec 32) (done : List AclEntry) (s : DefaultScan) : Prop where
  userObj : ∀ p, s.userObj = some p → Contains (ownerBits mode) p
  groupObj : Latest done (·.tag = aclGroupObj) AclEntry.perm s.groupObj
  mask : ∀ p, s.aclMask = some p → Contains (groupBits mode) p
  maskSet : s.aclMask = none ↔ ∀ e ∈ done, e.tag ≠ aclMask
  other : ∀ p, s.other = some p → Contains (otherBits mode) p

variable {mode : BitVec 32} {done : List AclEntry} {s s' : DefaultScan} {e : AclEntry}

lemma contains_and_right {w : Nat} (p q : BitVec w) : Contains q (p &&& q) :=
  contains_iff.mpr fun i hi => by
    rw [BitVec.getLsbD_and, Bool.and_eq_true] at hi
    exact hi.2

lemma defaultScanned_init : DefaultScanned mode [] ⟨false, false, none, none, none, none⟩ := by
  refine ⟨?_, .nil, ?_, by simp, ?_⟩
  all_goals
    rintro p ⟨⟩

inductive ConstrainStep (mode : BitVec 32) (s : DefaultScan) (tag perm : BitVec 16) :
    BitVec 16 → DefaultScan → Prop
  | userObj (htag : tag = aclUserObj) : ConstrainStep mode s tag perm (perm &&& ownerBits mode)
      { s with userObj := some (perm &&& ownerBits mode) }
  | named (htag : tag = aclUser ∨ tag = aclGroup) : ConstrainStep mode s tag perm perm
      { s with hasNamedEntry := true }
  | groupObj (htag : tag = aclGroupObj) : ConstrainStep mode s tag perm perm
      { s with groupObj := some perm }
  | mask (htag : tag = aclMask) : ConstrainStep mode s tag perm (perm &&& groupBits mode)
      { s with hasMask := true, aclMask := some (perm &&& groupBits mode) }
  | other (htag : tag = aclOther) : ConstrainStep mode s tag perm (perm &&& otherBits mode)
      { s with other := some (perm &&& otherBits mode) }

lemma constrainEntry_cases {tag perm perm' : BitVec 16}
    (h : constrainEntry mode s tag perm = .ok (perm', s')) :
    ConstrainStep mode s tag perm perm' s' := by
  rw [constrainEntry] at h
  split at h
  next htag =>
    cases h
    exact .userObj htag
  split at h
  next htag =>
    cases h
    exact .named htag
  split at h
  next htag =>
    cases h
    exact .groupObj htag
  split at h
  next htag =>
    cases h
    exact .mask htag
  split at h
  next htag =>
    cases h
    exact .other htag
  · cases h

lemma DefaultScanned.constrainEntry (h : DefaultScanned mode done s) {perm : BitVec 16}
    (hs : Acl.constrainEntry mode s e.tag e.perm = .ok (perm, s')) :
    DefaultScanned mode (done ++ [e]) s' ∧ (constrained mode e).perm = perm := by
  have hmask (hne : e.tag ≠ aclMask) : s.aclMask = none ↔ ∀ e' ∈ done ++ [e], e'.tag ≠ aclMask := by
    rw [h.maskSet]
    simp [or_imp, forall_and, hne]
  rw [constrained]
  cases constrainEntry_cases hs with
  | userObj htag =>
    rw [if_pos htag]
    refine ⟨⟨?_, h.groupObj.skip (not_tag htag (by decide)), h.mask, hmask (not_tag htag (by decide)),
      h.other⟩, rfl⟩
    rintro p ⟨⟩
    exact contains_and_right _ _
  | named htag =>
    have hne : e.tag ≠ aclUserObj ∧ e.tag ≠ aclGroupObj ∧ e.tag ≠ aclMask ∧ e.tag ≠ aclOther := by
      rcases htag with htag | htag <;> rw [htag] <;> decide
    rw [if_neg hne.1, if_neg hne.2.2.1, if_neg hne.2.2.2]
    exact ⟨⟨h.userObj, h.groupObj.skip hne.2.1, h.mask, hmask hne.2.2.1, h.other⟩, rfl⟩
  | groupObj htag =>
    rw [if_neg (not_tag htag (by decide)), if_neg (not_tag htag (by decide)),
      if_neg (not_tag htag (by decide))]
    exact ⟨⟨h.userObj, .set htag, h.mask, hmask (not_tag htag (by decide)), h.other⟩, rfl⟩
  | mask htag =>
    rw [if_neg (not_tag htag (by decide)), if_pos htag]
    refine ⟨⟨h.userObj, h.groupObj.skip (not_tag htag (by decide)), ?_, ?_, h.other⟩, rfl⟩
    · rintro p ⟨⟩
      exact contains_and_right _ _
    · simp [or_imp, forall_and, htag]
  | other htag =>
    rw [if_neg (not_tag htag (by decide)), if_neg (not_tag htag (by decide)), if_pos htag]
    refine ⟨⟨h.userObj, h.groupObj.skip (not_tag htag (by decide)), h.mask,
      hmask (not_tag htag (by decide)), ?_⟩, rfl⟩
    rintro p ⟨⟩
    exact contains_and_right _ _

lemma constrained_eq (e : AclEntry) :
    constrained mode e = { e with perm := (constrained mode e).perm } := by
  rw [constrained]
  split
  · rfl
  split
  · rfl
  split <;> rfl

lemma constrained_tag (e : AclEntry) : (constrained mode e).tag = e.tag := by
  rw [constrained_eq]

lemma constrainEntries_scanned (blob : Blob) {out : Blob}
    (h : DefaultScanned mode done s) (hs : constrainEntries mode blob s = .ok (out, s')) :
    DefaultScanned mode (done ++ chunks blob) s' ∧
      chunks out = (chunks blob).map (constrained mode) := by
  induction blob using chunks.induct generalizing done s out with
  | case1 b0 b1 b2 b3 b4 b5 b6 b7 rest ih =>
    rw [constrainEntries] at hs
    split at hs
    · cases hs
    next perm s₁ hentry =>
    split at hs
    · cases hs
    next out₁ s₂ hrest =>
    cases hs
    let e : AclEntry := ⟨u16FromLe b0 b1, u16FromLe b2 b3, u32FromLe b4 b5 b6 b7⟩
    obtain ⟨hstep, hperm⟩ := h.constrainEntry (e := e) hentry
    obtain ⟨hfinal, hchunks⟩ := ih hstep hrest
    rw [chunks, List.append_cons]
    refine ⟨hfinal, ?_⟩
    simp only [chunks, List.map_cons, hchunks, u16FromLe_extract, ← hperm]
    congr 1
    exact (constrained_eq e).symm
  | case2 blob hshort =>
    have hnone : chunks blob = [] := by
      rw [chunks]
      exact hshort
    have hsame : constrainEntries mode blob s = .ok (blob, s) := by
      rw [constrainEntries]
      exact hshort
    rw [hsame] at hs
    cases hs
    rw [hnone, List.append_nil]
    exact ⟨h, rfl⟩

lemma getLsbD_777 (i : Nat) : (0o777#32).getLsbD i = decide (i < 9) :=
  getLsbD_low (n := 9) rfl (by decide) i

lemma getLsbD_of_shifted {n i : Nat} {p : BitVec 16}
    (hp : Contains (((mode >>> n) &&& 0o7).setWidth 16) p)
    (hi : (p.setWidth 32 <<< n).getLsbD i = true) : mode.getLsbD i = true := by
  simp only [BitVec.getLsbD_shiftLeft, BitVec.getLsbD_setWidth, Bool.and_eq_true,
    decide_eq_true_eq, Bool.not_eq_true', decide_eq_false_iff_not] at hi
  have hbit := contains_iff.mp hp _ hi.2.2
  simp only [BitVec.getLsbD_setWidth, BitVec.getLsbD_and, BitVec.getLsbD_ushiftRight,
    Bool.and_eq_true] at hbit
  have hindex : n + (i - n) = i := by omega
  rw [hindex] at hbit
  exact hbit.2.1

lemma contains_mode {owner group other : BitVec 16} (howner : Contains (ownerBits mode) owner)
    (hgroup : Contains (groupBits mode) group) (hother : Contains (otherBits mode) other) :
    Contains (mode &&& 0o777#32)
      (((mode &&& ~~~ 0o777#32) ||| (owner.setWidth 32 <<< 6) ||| (group.setWidth 32 <<< 3) |||
        other.setWidth 32) &&& 0o777#32) := by
  refine contains_iff.mpr fun i hi => ?_
  rw [BitVec.getLsbD_and, Bool.and_eq_true] at hi
  rw [BitVec.getLsbD_and, hi.2, Bool.and_true]
  simp only [BitVec.getLsbD_or, Bool.or_eq_true] at hi
  rcases hi with ⟨((hhigh | howner') | hgroup') | hother', hlow⟩
  · rw [BitVec.getLsbD_and, BitVec.getLsbD_not, hlow] at hhigh
    simp at hhigh
  · exact getLsbD_of_shifted howner howner'
  · exact getLsbD_of_shifted hgroup hgroup'
  · rw [otherBits, ← BitVec.ushiftRight_zero mode] at hother
    rw [← BitVec.shiftLeft_zero (other.setWidth 32)] at hother'
    exact getLsbD_of_shifted hother hother'

/-! ## The grant -/

/-- The default list has a mask, or the owning group has no permission that was not
asked for. -/
def GroupWithin (entries : List AclEntry) (mode : BitVec 32) : Prop :=
  (∃ e ∈ entries, e.tag = aclMask) ∨
    ∀ e ∈ entries, e.tag = aclGroupObj → Contains (groupBits mode) e.perm

instance (entries : List AclEntry) (mode : BitVec 32) : Decidable (GroupWithin entries mode) :=
  inferInstanceAs (Decidable (_ ∨ _))

lemma contains_of_mask (he : e.tag = aclMask) : Contains (groupBits mode) (constrained mode e).perm := by
  rw [constrained, if_neg (not_tag he (by decide)), if_pos he]
  exact contains_and_right _ _

lemma Accepted.group_within {actor : Actor} {owner : Owner} {entries : List AclEntry} {s : AclScan}
    {requested : BitVec 16} (h : Accepted actor owner (entries.map (constrained mode)) s)
    (hwithin : GroupWithin entries mode) (howner : actor.uid ≠ owner.uid)
    (hgroup : owner.gid ∈ actor.groups) (hgranted : decideAccess actor owner requested s = true) :
    Contains (groupBits mode) requested := by
  have hmask (hall : ∀ m ∈ entries.map (constrained mode), m.tag = aclMask → Contains m.perm requested)
      (hsome : ∃ e ∈ entries, e.tag = aclMask) : Contains (groupBits mode) requested := by
    obtain ⟨e, he, htag⟩ := hsome
    exact (contains_of_mask htag).trans
      (hall _ (List.mem_map_of_mem he) (by rw [constrained_tag, htag]))
  have hset : s.mask ≠ none → ∃ e ∈ entries, e.tag = aclMask := by
    intro hne
    obtain ⟨p, hp⟩ := Option.ne_none_iff_exists'.mp hne
    obtain ⟨m, hm, htag, -⟩ := (h.mask p).mp hp
    obtain ⟨e, he, rfl⟩ := List.mem_map.mp hm
    exact ⟨e, he, by rw [← htag, constrained_tag]⟩
  obtain ⟨p, hp⟩ := Option.ne_none_iff_exists'.mp h.groupObj_set
  obtain ⟨g, hg, htag, rfl⟩ := (h.groupObj p).mp hp
  rw [decideAccess, if_neg howner] at hgranted
  cases hnamed : s.namedUser with
  | some p =>
    obtain ⟨e, he, hnames, rfl⟩ := (h.namedUser p).mp hnamed
    rw [hnamed] at hgranted
    exact hmask ((h.masked (h.contains_seven he)).mp hgranted).2
      (hset (h.mask_set (h.named ⟨e, he, .inl hnames.1⟩)))
  | none =>
    rw [hnamed] at hgranted
    dsimp only at hgranted
    rw [if_pos (h.matched.mpr ⟨g, hg, .inl ⟨htag, hgroup⟩⟩), h.groupPermissions_or,
      h.masked h.contains_seven_union] at hgranted
    by_cases hsome : ∃ e ∈ entries, e.tag = aclMask
    · exact hmask hgranted.2 hsome
    · -- without a mask there are no named entries, and the owning group decides alone
      have hno : ∀ e ∈ entries.map (constrained mode), e.tag ≠ aclGroup := fun e he htag' =>
        hsome (hset (h.mask_set (h.named ⟨e, he, .inr htag'⟩)))
      have hwithin' := hwithin.resolve_left hsome
      refine contains_iff.mpr fun i hi => ?_
      obtain ⟨e, he, hmatch, hbit⟩ := (h.permissions i).mp (contains_iff.mp hgranted.1 i hi)
      have hobj : e.tag = aclGroupObj := by
        rcases hmatch with ⟨htag', _⟩ | ⟨htag', _⟩
        · exact htag'
        · exact absurd htag' (hno e he)
      obtain ⟨e₀, he₀, rfl⟩ := List.mem_map.mp he
      rw [constrained_tag] at hobj
      refine contains_iff.mp (hwithin' e₀ he₀ hobj) i ?_
      rwa [constrained, if_neg (not_tag hobj (by decide)), if_neg (not_tag hobj (by decide)),
        if_neg (not_tag hobj (by decide))] at hbit

end Fod.Acl
