import Fod.Acl.Posix

/-!
# The decision of the frontend

The frontend keeps the last entry of each kind, and its ids are signed.
-/

namespace Fod.Acl

open BitSet Scan

def frontendId (e : AclEntry) : AclEntry :=
  if e.tag = aclUserObj ∨ e.tag = aclGroupObj ∨ e.tag = aclOther ∨ e.tag = aclMask then
    { e with id := -1 }
  else e

lemma parseEntries_eq (blob : Blob) :
    parseEntries blob =
      if blob.length % 8 = 0 then .ok ((chunks blob).map frontendId) else .error .einval := by
  induction blob using chunks.induct with
  | case1 b0 b1 b2 b3 b4 b5 b6 b7 rest ih =>
    rw [parseEntries, ih]
    simp only [List.length_cons, Nat.add_assoc, Nat.reduceAdd, Nat.add_mod_right]
    split
    · rw [chunks, List.map_cons, frontendId]
      dsimp only
      split <;> rfl
    · rfl
  | case2 blob hshort =>
    rcases blob with _ | ⟨b0, _ | ⟨b1, _ | ⟨b2, _ | ⟨b3, _ | ⟨b4, _ | ⟨b5, _ | ⟨b6, _ | ⟨b7, rest⟩⟩⟩⟩⟩⟩⟩⟩
    on_goal 9 => exact absurd rfl (hshort b0 b1 b2 b3 b4 b5 b6 b7 rest)
    all_goals rfl

lemma of_parseEntries {blob : Blob} {entries : List AclEntry} (h : parseEntries blob = .ok entries) :
    blob.length % 8 = 0 ∧ entries = (chunks blob).map frontendId := by
  rw [parseEntries_eq] at h
  split at h
  next hlength => exact ⟨hlength, (Except.ok.inj h).symm⟩
  next => cases h

def perm7 (e : AclEntry) : BitVec 16 := e.perm &&& 0o7

def Positive (e : AclEntry) : Prop := 0 ≤ e.id.toInt

structure FrontendScanned (actor : Actor) (done : List AclEntry) (s : FrontendScan) : Prop where
  userObj : Latest done (·.tag = aclUserObj) perm7 s.userObjPerm
  groupObj : Latest done (·.tag = aclGroupObj) perm7 s.groupObjPerm
  other : Latest done (·.tag = aclOther) perm7 s.otherPerm
  namedUser : Latest done (fun e => NamesUser actor e ∧ Positive e) perm7 s.namedUserPerm
  mask : ∃ o, Latest done (·.tag = aclMask) perm7 o ∧ s.maskPerm = o.getD 0o7
  groups : Listed done (fun e => e.tag = aclGroup ∧ Positive e) (fun e => (e.id, perm7 e))
    s.namedGroupMatches

variable {actor : Actor} {owner : Owner} {done : List AclEntry} {s : FrontendScan} {e : AclEntry}

lemma frontendScanned_init : FrontendScanned actor [] ⟨0o7, none, none, none, none, []⟩ :=
  ⟨.nil, .nil, .nil, .nil, ⟨none, .nil, rfl⟩, fun v => by simp⟩

lemma FrontendScanned.frontendEntry (h : FrontendScanned actor done s) :
    FrontendScanned actor (done ++ [e]) (Acl.frontendEntry actor s e) := by
  obtain ⟨o, hmask, hvalue⟩ := h.mask
  have hskip {t : BitVec 16} (htag : e.tag = t) :
      (t ≠ aclUser → ¬ (NamesUser actor e ∧ Positive e)) ∧
        (t ≠ aclGroup → ¬ (e.tag = aclGroup ∧ Positive e)) :=
    ⟨fun hne hnames => hne (htag.symm.trans hnames.1.1), fun hne hgroup => hne (htag.symm.trans hgroup.1)⟩
  rw [Acl.frontendEntry]
  split
  next htag =>
    exact ⟨.set htag, h.groupObj.skip (not_tag htag (by decide)), h.other.skip (not_tag htag (by decide)),
      h.namedUser.skip ((hskip htag).1 (by decide)), ⟨o, hmask.skip (not_tag htag (by decide)), hvalue⟩,
      h.groups.skip ((hskip htag).2 (by decide))⟩
  next hnot₁ =>
  split
  next htag =>
    exact ⟨h.userObj.skip hnot₁, h.groupObj.skip (not_tag htag.1 (by decide)),
      h.other.skip (not_tag htag.1 (by decide)), .set ⟨⟨htag.1, htag.2.2⟩, htag.2.1⟩,
      ⟨o, hmask.skip (not_tag htag.1 (by decide)), hvalue⟩,
      h.groups.skip ((hskip htag.1).2 (by decide))⟩
  next hnot₂ =>
  have hnames : ¬ (NamesUser actor e ∧ Positive e) := fun h => hnot₂ ⟨h.1.1, h.2, h.1.2⟩
  split
  next htag =>
    exact ⟨h.userObj.skip hnot₁, .set htag, h.other.skip (not_tag htag (by decide)),
      h.namedUser.skip hnames, ⟨o, hmask.skip (not_tag htag (by decide)), hvalue⟩,
      h.groups.skip ((hskip htag).2 (by decide))⟩
  next hnot₃ =>
  split
  next htag =>
    exact ⟨h.userObj.skip hnot₁, h.groupObj.skip hnot₃, h.other.skip (not_tag htag.1 (by decide)),
      h.namedUser.skip hnames, ⟨o, hmask.skip (not_tag htag.1 (by decide)), hvalue⟩, h.groups.push htag⟩
  next hnot₄ =>
  split
  next htag =>
    exact ⟨h.userObj.skip hnot₁, h.groupObj.skip hnot₃, h.other.skip (not_tag htag (by decide)),
      h.namedUser.skip hnames, ⟨some (perm7 e), .set htag, rfl⟩, h.groups.skip hnot₄⟩
  next hnot₅ =>
  split
  next htag =>
    exact ⟨h.userObj.skip hnot₁, h.groupObj.skip hnot₃, .set htag, h.namedUser.skip hnames,
      ⟨o, hmask.skip hnot₅, hvalue⟩, h.groups.skip hnot₄⟩
  next hnot₆ =>
    exact ⟨h.userObj.skip hnot₁, h.groupObj.skip hnot₃, h.other.skip hnot₆, h.namedUser.skip hnames,
      ⟨o, hmask.skip hnot₅, hvalue⟩, h.groups.skip hnot₄⟩

lemma frontendEntry_frontendId : frontendEntry actor s (frontendId e) = frontendEntry actor s e := by
  rw [frontendId]
  split
  next hobj =>
    rcases hobj with htag | htag | htag | htag <;>
      simp [frontendEntry, htag, aclUserObj, aclUser, aclGroupObj, aclGroup, aclMask, aclOther]
  next => rfl

lemma getLsbD_foldl_groups (groups : List (BitVec 32 × BitVec 16)) (u : BitVec 16) (i : Nat) :
    (groups.foldl (fun allowed group => if group.1 ∈ actor.groups then allowed ||| group.2 else allowed)
        u).getLsbD i = true ↔
      u.getLsbD i = true ∨ ∃ group ∈ groups, group.1 ∈ actor.groups ∧ group.2.getLsbD i = true := by
  induction groups generalizing u with
  | nil => simp
  | cons group groups ih =>
    rw [List.foldl_cons, ih]
    split
    next hin => simp [hin, or_assoc]
    next hout => simp [hout]

/-! ## Agreement -/

section

variable {entries : List AclEntry} {front : FrontendScan} {store : AclScan}

lemma perm7_eq (h : Scanned actor owner entries store) (he : e ∈ entries) : e.perm = perm7 e := by
  have hseven := h.contains_seven he
  rw [Contains, BitVec.and_comm] at hseven
  exact hseven.symm

section

variable (hfront : FrontendScanned actor entries front)

include hfront

lemma FrontendScanned.register (hstore : Scanned actor owner entries store) :
    front.userObjPerm = store.userObj ∧ front.groupObjPerm = store.groupObj ∧
      front.otherPerm = store.other ∧ front.maskPerm = store.mask.getD 0o7 := by
  have hperm : ∀ e ∈ entries, e.perm = perm7 e := fun e he => perm7_eq hstore he
  have hsame : ∀ t, ∀ e ∈ entries, e.tag = t ↔ e.tag = t := fun _ _ _ => Iff.rfl
  obtain ⟨o, hmask, hvalue⟩ := hfront.mask
  refine ⟨(hfront.userObj.congr (hsame _) hperm).eq_only hstore.userObj,
    (hfront.groupObj.congr (hsame _) hperm).eq_only hstore.groupObj,
    (hfront.other.congr (hsame _) hperm).eq_only hstore.other, ?_⟩
  rw [hvalue, (hmask.congr (hsame _) hperm).eq_only hstore.mask]

lemma FrontendScanned.namedUser_eq (hstore : Scanned actor owner entries store)
    (hpositive : ∀ e ∈ entries, NamesUser actor e → Positive e) :
    front.namedUserPerm = store.namedUser := by
  refine (hfront.namedUser.congr (fun e he => ?_) fun e he => perm7_eq hstore he).eq_only
    hstore.namedUser
  exact ⟨fun hnames => ⟨hnames, hpositive e he hnames⟩, fun h => h.1⟩

lemma FrontendScanned.groups_eq (hstore : Scanned actor owner entries store)
    (hpositive : ∀ e ∈ entries, e.tag = aclGroup → e.id ∈ actor.groups → Positive e) :
    front.namedGroupMatches.foldl
        (fun allowed group => if group.1 ∈ actor.groups then allowed ||| group.2 else allowed)
        (if owner.gid ∈ actor.groups then 0 ||| front.groupObjPerm.getD 0 else 0) =
      store.groupPermissions := by
  have hunion : UnionOf entries (MatchesGroup actor owner) AclEntry.perm
      (front.namedGroupMatches.foldl
        (fun allowed group => if group.1 ∈ actor.groups then allowed ||| group.2 else allowed)
        (if owner.gid ∈ actor.groups then 0 ||| front.groupObjPerm.getD 0 else 0)) := by
    intro i
    rw [getLsbD_foldl_groups, (hfront.register hstore).2.1]
    constructor
    · rintro (howning | ⟨group, hgroup, hin, hbit⟩)
      · split at howning
        next hin =>
          cases hobj : store.groupObj with
          | none => simp [hobj] at howning
          | some p =>
            obtain ⟨e, he, htag, rfl⟩ := (hstore.groupObj p).mp hobj
            rw [hobj] at howning
            exact ⟨e, he, .inl ⟨htag, hin⟩, by simpa using howning⟩
        next => simp at howning
      · obtain ⟨e, he, ⟨htag, _⟩, rfl⟩ := (hfront.groups group).mp hgroup
        exact ⟨e, he, .inr ⟨htag, hin⟩, by rw [perm7_eq hstore he]; exact hbit⟩
    · rintro ⟨e, he, ⟨htag, hin⟩ | ⟨htag, hin⟩, hbit⟩
      · left
        rw [if_pos hin, hstore.groupObj.eq_some he htag]
        simpa using hbit
      · right
        refine ⟨_, (hfront.groups _).mpr ⟨e, he, ⟨htag, hpositive e he htag hin⟩, rfl⟩, hin, ?_⟩
        dsimp only
        rw [← perm7_eq hstore he]
        exact hbit
  exact hunion.unique hstore.permissions

end

end

/-- The ids that match the actor are below 2^31, and a group class that matches has a
permission. -/
def FrontendSees (entries : List AclEntry) (actor : Actor) (owner : Owner) : Prop :=
  actor.uid ≠ owner.uid →
    (∀ e ∈ entries, NamesUser actor e → Positive e) ∧
      ((¬ ∃ e ∈ entries, NamesUser actor e) →
        (∀ e ∈ entries, e.tag = aclGroup → e.id ∈ actor.groups → Positive e) ∧
          ((∃ e ∈ entries, MatchesGroup actor owner e) →
            ∃ e ∈ entries, MatchesGroup actor owner e ∧ e.perm ≠ 0))

instance (e : AclEntry) : Decidable (Positive e) := inferInstanceAs (Decidable (0 ≤ e.id.toInt))

lemma lawfulBEq_id : @LawfulBEq (BitVec 32) instBEqOfDecidableEq := inferInstance

instance (entries : List AclEntry) (actor : Actor) (owner : Owner) :
    Decidable (FrontendSees entries actor owner) :=
  haveI := lawfulBEq_id
  instDecidableForall

end Fod.Acl
