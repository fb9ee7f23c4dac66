import Fod.Acl.Inheritance
import Fod.Acl.Inode
import Fod.Acl.Usable

/-!
# The mode follows the access list

The permission bits of the mode are those of the access list.  Chmod, chown, `setxattr`
and the clearing of privileges keep this.  A new inode has it if the owning group of
its default list does not reach into the bits of the owner.
-/

namespace Fod.Acl

open BitSet Scan

def joinClasses (owner group other : BitVec 16) : BitVec 16 :=
  (owner <<< 6) ||| (group <<< 3) ||| other

lemma getLsbD_seven (i : Nat) : (0o7#16).getLsbD i = decide (i < 3) :=
  getLsbD_low (n := 3) rfl (by decide) i

lemma getLsbD_nine (i : Nat) : (0o777#16).getLsbD i = decide (i < 9) :=
  getLsbD_low (n := 9) rfl (by decide) i

lemma getLsbD_of_three {p : BitVec 16} (hp : Contains 0o7#16 p) {i : Nat} (hi : 3 ≤ i) :
    p.getLsbD i = false := by
  by_contra hbit
  have hlow := contains_iff.mp hp i (by simpa using hbit)
  rw [getLsbD_seven, decide_eq_true_eq] at hlow
  omega

lemma getLsbD_joinClasses {owner group other : BitVec 16} (howner : Contains 0o7#16 owner)
    (hgroup : Contains 0o7#16 group) (hother : Contains 0o7#16 other) (i : Nat) :
    (joinClasses owner group other).getLsbD i =
      if i < 3 then other.getLsbD i else if i < 6 then group.getLsbD (i - 3)
      else if i < 9 then owner.getLsbD (i - 6) else false := by
  have howner' := @getLsbD_of_three _ howner
  have hgroup' := @getLsbD_of_three _ hgroup
  have hother' := @getLsbD_of_three _ hother
  simp only [joinClasses, BitVec.getLsbD_or, BitVec.getLsbD_shiftLeft]
  split
  · grind
  split
  · grind
  split
  · grind
  · grind

lemma contains_seven_bits (x : BitVec 32) : Contains 0o7#16 ((x &&& 0o7).setWidth 16) :=
  contains_of_and_not (three_bits x)

lemma getLsbD_classBits (mode : BitVec 32) {n i : Nat} (hi : i < 3) :
    (((mode >>> n) &&& 0o7).setWidth 16).getLsbD i = mode.getLsbD (n + i) := by
  have hseven : (0o7 : BitVec 32).getLsbD i = true :=
    (getLsbD_low (n := 3) rfl (by decide) i).trans (by simpa using hi)
  have hwidth : i < 16 := by omega
  rw [BitVec.getLsbD_setWidth, BitVec.getLsbD_and, BitVec.getLsbD_ushiftRight, hseven, Bool.and_true,
    decide_eq_true hwidth, Bool.true_and]

lemma joinClasses_mode (mode : BitVec 32) :
    (joinClasses (ownerBits mode) (groupBits mode) (otherBits mode) &&& 0o777).setWidth 32 =
      mode &&& 0o777 := by
  have hother : ∀ i < 3, (otherBits mode).getLsbD i = mode.getLsbD i := by
    intro i hi
    simpa [otherBits] using getLsbD_classBits mode (n := 0) hi
  apply BitVec.eq_of_getLsbD_eq
  intro i hi
  have hjoin := getLsbD_joinClasses (contains_seven_bits (mode >>> 6)) (contains_seven_bits (mode >>> 3))
    (contains_seven_bits mode) i
  change (joinClasses (ownerBits mode) (groupBits mode) (otherBits mode)).getLsbD i =
    if i < 3 then (otherBits mode).getLsbD i else if i < 6 then (groupBits mode).getLsbD (i - 3)
    else if i < 9 then (ownerBits mode).getLsbD (i - 6) else false at hjoin
  rw [BitVec.getLsbD_setWidth, BitVec.getLsbD_and, BitVec.getLsbD_and, hjoin]
  rw [show ((0o777 : BitVec 16).getLsbD i) = decide (i < 9) from getLsbD_nine i,
    show ((0o777 : BitVec 32).getLsbD i) = decide (i < 9) from getLsbD_777 i]
  have hgroup : 3 ≤ i → i < 6 → (groupBits mode).getLsbD (i - 3) = mode.getLsbD i := by
    intro hle hlt
    have hbit := getLsbD_classBits mode (n := 3) (i := i - 3) (by omega)
    rwa [Nat.add_sub_cancel' hle] at hbit
  have howner : 6 ≤ i → i < 9 → (ownerBits mode).getLsbD (i - 6) = mode.getLsbD i := by
    intro hle hlt
    have hbit := getLsbD_classBits mode (n := 6) (i := i - 6) (by omega)
    rwa [Nat.add_sub_cancel' hle] at hbit
  have hother := hother i
  grind

lemma modeEntry_frontendId (s : ModeScan) (e : AclEntry) :
    modeEntry s (frontendId e) = modeEntry s e := by
  unfold frontendId
  split <;> rfl

def modeScan (entries : List AclEntry) : ModeScan :=
  entries.foldl modeEntry ⟨none, none, none, none, false⟩

lemma aclAccessModeBits_of_scan {acl : Blob} {owner group other : BitVec 16}
    (hframed : Framed acl) {s : ModeScan} (hs : modeScan (aclEntries acl) = s)
    (hnamed : s.hasNamedEntry = true → s.maskPerm ≠ none) (howner : s.userObjPerm = some owner)
    (hgroup : s.maskPerm.or s.groupObjPerm = some group) (hother : s.otherPerm = some other) :
    aclAccessModeBits acl = .ok (joinClasses owner group other &&& 0o777) := by
  have hlength := hframed.length
  have hparse : parsePosixAclXattr acl = .ok ((aclEntries acl).map frontendId) := by
    rw [parsePosixAclXattr, if_neg (by omega), if_neg (not_not.mpr hframed.version)]
    rw [parseEntries_eq, if_pos (by rw [List.length_drop]; omega)]
    rfl
  have hscan : ((aclEntries acl).map frontendId).foldl modeEntry ⟨none, none, none, none, false⟩ = s := by
    rw [List.foldl_map]
    simp only [modeEntry_frontendId]
    exact hs
  have hmode : modeFromAclEntries ((aclEntries acl).map frontendId) 0 =
      .ok (joinClasses owner group other) := by
    rw [modeFromAclEntries, hscan, howner, hgroup, hother]
    dsimp only
    rw [if_neg]
    · simp [joinClasses]
    · rintro ⟨hsome, hnone⟩
      exact hnamed hsome (Option.isNone_iff_eq_none.mp hnone)
  rw [aclAccessModeBits, hparse]
  change (do let mode ← modeFromAclEntries ((aclEntries acl).map frontendId) 0
             return mode &&& 0o777) = _
  rw [hmode]
  rfl

structure ModeScanned (done : List AclEntry) (s : ModeScan) : Prop where
  userObj : Latest done (·.tag = aclUserObj) perm7 s.userObjPerm
  groupObj : Latest done (·.tag = aclGroupObj) perm7 s.groupObjPerm
  mask : Latest done (·.tag = aclMask) perm7 s.maskPerm
  other : Latest done (·.tag = aclOther) perm7 s.otherPerm
  named : s.hasNamedEntry = true ↔ ∃ e ∈ done, e.tag = aclUser ∨ e.tag = aclGroup

lemma ModeScanned.modeEntry {done : List AclEntry} {s : ModeScan} (h : ModeScanned done s)
    (e : AclEntry) : ModeScanned (done ++ [e]) (Acl.modeEntry s e) := by
  have hnamed (hnot : ¬ (e.tag = aclUser ∨ e.tag = aclGroup)) :
      s.hasNamedEntry = true ↔ ∃ e' ∈ done ++ [e], e'.tag = aclUser ∨ e'.tag = aclGroup := by
    rw [h.named]
    simp [or_and_right, exists_or, hnot]
  unfold Acl.modeEntry
  dsimp only
  split
  next htag =>
    exact ⟨.set htag, h.groupObj.skip (not_tag htag (by decide)), h.mask.skip (not_tag htag (by decide)),
      h.other.skip (not_tag htag (by decide)), hnamed (by rw [htag]; decide)⟩
  next huser =>
  split
  next htag =>
    have hne : e.tag ≠ aclGroupObj ∧ e.tag ≠ aclMask ∧ e.tag ≠ aclOther := by
      rcases htag with htag | htag <;> rw [htag] <;> decide
    exact ⟨h.userObj.skip huser, h.groupObj.skip hne.1, h.mask.skip hne.2.1, h.other.skip hne.2.2,
      by simpa using .inr htag⟩
  next hnot =>
  split
  next htag =>
    exact ⟨h.userObj.skip huser, .set htag, h.mask.skip (not_tag htag (by decide)),
      h.other.skip (not_tag htag (by decide)), hnamed hnot⟩
  next hgroup =>
  split
  next htag =>
    exact ⟨h.userObj.skip huser, h.groupObj.skip hgroup, .set htag,
      h.other.skip (not_tag htag (by decide)), hnamed hnot⟩
  next hmask =>
  split
  next htag =>
    exact ⟨h.userObj.skip huser, h.groupObj.skip hgroup, h.mask.skip hmask, .set htag, hnamed hnot⟩
  next hother =>
    exact ⟨h.userObj.skip huser, h.groupObj.skip hgroup, h.mask.skip hmask, h.other.skip hother,
      hnamed hnot⟩

lemma modeScanned_modeScan (entries : List AclEntry) : ModeScanned entries (modeScan entries) := by
  have hinit : ModeScanned [] ⟨none, none, none, none, false⟩ :=
    ⟨.nil, .nil, .nil, .nil, by simp⟩
  exact foldl_invariant (fun done s e h => h.modeEntry e) entries hinit

/-! ## Chmod -/

def chmodded (mode : BitVec 32) (masked : Bool) (e : AclEntry) : AclEntry :=
  if e.tag = aclUserObj then { e with perm := ownerBits mode }
  else if e.tag = aclMask then { e with perm := groupBits mode }
  else if e.tag = aclOther then { e with perm := otherBits mode }
  else if e.tag = aclGroupObj ∧ masked = false then { e with perm := groupBits mode }
  else e

section Chmod

variable {mode : BitVec 32} {c c' : ChmodScan} {index : Nat} {e : AclEntry} {perm : BitVec 16}
  {masked : Bool}

lemma chmodded_key (e : AclEntry) : (chmodded mode masked e).key = e.key := by
  unfold chmodded
  split
  · rfl
  split
  · rfl
  split
  · rfl
  split <;> rfl

lemma chmodded_groupObj (htag : e.tag = aclGroupObj) :
    chmodded mode false e = { e with perm := groupBits mode } := by
  rw [chmodded, if_neg (not_tag htag (by decide)), if_neg (not_tag htag (by decide)),
    if_neg (not_tag htag (by decide)), if_pos ⟨htag, rfl⟩]

lemma chmodded_of_ne (htag : e.tag ≠ aclGroupObj) :
    chmodded mode false e = chmodded mode true e := by
  unfold chmodded
  simp [htag]

lemma chmodEntry_writes (h : chmodEntry mode index c e.tag e.perm = .ok (perm, c')) :
    chmodded mode true e = { e with perm := perm } ∧
      (e.tag ≠ aclGroupObj → c'.groupObj = c.groupObj) ∧
      (e.tag = aclGroupObj → c.groupObj = none ∧ c'.groupObj = some index) := by
  rw [chmodEntry] at h
  rw [chmodded]
  split at h
  · cases h
  split at h
  next htag =>
    cases h
    rw [if_pos htag.1]
    exact ⟨rfl, fun _ => rfl, fun hgroup => absurd hgroup (not_tag htag.1 (by decide))⟩
  split at h
  next htag =>
    cases h
    have hne : e.tag ≠ aclUserObj ∧ e.tag ≠ aclGroupObj ∧ e.tag ≠ aclMask ∧ e.tag ≠ aclOther := by
      rcases htag with htag | htag <;> rw [htag] <;> decide
    rw [if_neg hne.1, if_neg hne.2.2.1, if_neg hne.2.2.2, if_neg (by simp)]
    exact ⟨rfl, fun _ => rfl, fun hgroup => absurd hgroup hne.2.1⟩
  split at h
  next htag =>
    cases h
    rw [if_neg (not_tag htag.1 (by decide)), if_neg (not_tag htag.1 (by decide)),
      if_neg (not_tag htag.1 (by decide)), if_neg (by simp)]
    exact ⟨rfl, fun hne => absurd htag.1 hne, fun _ => ⟨htag.2, rfl⟩⟩
  split at h
  next htag =>
    cases h
    rw [if_neg (not_tag htag.1 (by decide)), if_pos htag.1]
    exact ⟨rfl, fun _ => rfl, fun hgroup => absurd hgroup (not_tag htag.1 (by decide))⟩
  split at h
  next htag =>
    cases h
    rw [if_neg (not_tag htag.1 (by decide)), if_neg (not_tag htag.1 (by decide)), if_pos htag.1]
    exact ⟨rfl, fun _ => rfl, fun hgroup => absurd hgroup (not_tag htag.1 (by decide))⟩
  · cases h

structure ChmodWritten (mode : BitVec 32) (blob out : Blob) (index : Nat) (c c' : ChmodScan) : Prop where
  length : out.length = blob.length
  entries : chunks out = (chunks blob).map (chmodded mode true)
  marked : Marked ((chunks blob).map AclEntry.key) c c'
  once : c.groupObj ≠ none → c'.groupObj = c.groupObj ∧ ∀ e ∈ chunks blob, e.tag ≠ aclGroupObj
  patched : ∀ i, c.groupObj = none → c'.groupObj = some i → index ≤ i ∧
    chunks (setPermissions out (i - index) (groupBits mode)) = (chunks blob).map (chmodded mode false)

lemma setPermissions_succ (b0 b1 b2 b3 b4 b5 b6 b7 : BitVec 8) (rest : Blob) (i : Nat)
    (perm : BitVec 16) :
    setPermissions (b0 :: b1 :: b2 :: b3 :: b4 :: b5 :: b6 :: b7 :: rest) (i + 1) perm =
      b0 :: b1 :: b2 :: b3 :: b4 :: b5 :: b6 :: b7 :: setPermissions rest i perm := by
  have hlow : (i + 1) * 8 + 2 = i * 8 + 2 + 8 := by omega
  have hhigh : (i + 1) * 8 + 3 = i * 8 + 3 + 8 := by omega
  simp [setPermissions, u16ToLe, hlow, hhigh]

lemma chmodEntries_written (blob : Blob) {out : Blob}
    (h : chmodEntries mode blob index c = .ok (out, c')) : ChmodWritten mode blob out index c c' := by
  induction blob using chunks.induct generalizing index c out with
  | case1 b0 b1 b2 b3 b4 b5 b6 b7 rest ih =>
    rw [chmodEntries] at h
    split at h
    · cases h
    next perm c₁ hentry =>
    split at h
    · cases h
    next out₁ c₂ hrest =>
    cases h
    let e : AclEntry := ⟨u16FromLe b0 b1, u16FromLe b2 b3, u32FromLe b4 b5 b6 b7⟩
    have hmarks := (chmodEntry_marks hentry).2
    obtain ⟨hwritten, hother, hgroup⟩ := chmodEntry_writes (e := e) hentry
    have hchunk : chunks (b0 :: b1 :: perm.extractLsb' 0 8 :: perm.extractLsb' 8 8 :: b4 :: b5 :: b6 ::
        b7 :: out₁) = chmodded mode true e :: chunks out₁ := by
      rw [chunks, u16FromLe_extract, hwritten]
    have hrest := ih hrest
    refine ⟨?_, ?_, ?_, fun hset => ?_, fun i hfree hset => ?_⟩
    · simp [hrest.length]
    · rw [hchunk, hrest.entries]
      rfl
    · exact hrest.marked.cons hmarks
    · have hne : e.tag ≠ aclGroupObj := fun htag => hset (hgroup htag).1
      obtain ⟨hkept, hno⟩ := hrest.once (by rwa [hother hne])
      exact ⟨hkept.trans (hother hne), List.forall_mem_cons.mpr ⟨hne, hno⟩⟩
    by_cases htag : e.tag = aclGroupObj
    · obtain ⟨hkept, hno⟩ := hrest.once (by simp [(hgroup htag).2])
      rw [hkept, (hgroup htag).2] at hset
      cases hset
      refine ⟨Nat.le_refl _, ?_⟩
      have hsame : (chunks rest).map (chmodded mode true) = (chunks rest).map (chmodded mode false) :=
        List.map_congr_left fun e' he' => (chmodded_of_ne (hno e' he')).symm
      change _ = chmodded mode false e :: (chunks rest).map (chmodded mode false)
      rw [Nat.sub_self, ← hsame, ← hrest.entries, chmodded_groupObj htag]
      simp [setPermissions, u16ToLe, chunks, u16FromLe_extract, e]
    · obtain ⟨hle, hpatched⟩ := hrest.patched i (by rw [hother htag, hfree]) hset
      refine ⟨by omega, ?_⟩
      have hindex : i - index = i - (index + 1) + 1 := by omega
      rw [hindex, setPermissions_succ, chunks, u16FromLe_extract, hpatched]
      change ({ e with perm := perm } : AclEntry) :: _ = chmodded mode false e :: _
      rw [chmodded_of_ne htag, hwritten]
  | case2 blob hshort =>
    have hnone : chunks blob = [] := by
      rw [chunks]
      exact hshort
    have hsame : chmodEntries mode blob index c = .ok (blob, c) := by
      rw [chmodEntries]
      exact hshort
    rw [hsame] at h
    cases h
    refine ⟨rfl, by simp [hnone], ?_, fun _ => ⟨rfl, by simp [hnone]⟩, fun i hfree hset => ?_⟩
    · rw [hnone]
      constructor <;> simp
    · rw [hfree] at hset
      cases hset

def Masked (entries : List AclEntry) : Prop := ∃ e ∈ entries, e.tag = aclMask

instance (entries : List AclEntry) : Decidable (Masked entries) :=
  inferInstanceAs (Decidable (∃ e ∈ entries, _))

structure Complete (entries : List AclEntry) : Prop where
  userObj : ∃ e ∈ entries, e.tag = aclUserObj
  groupObj : ∃ e ∈ entries, e.tag = aclGroupObj
  other : ∃ e ∈ entries, e.tag = aclOther
  mask : (∃ e ∈ entries, Named e.key) → Masked entries

lemma chmodAccessAcl_entries {value out : Blob} (h : chmodAccessAcl value mode = .ok out) :
    Framed out ∧ aclEntries out = (aclEntries value).map (chmodded mode (decide (Masked (aclEntries value)))) ∧
      Complete (aclEntries value) := by
  rw [chmodAccessAcl] at h
  split at h
  · cases h
  next hlength =>
  split at h
  · cases h
  next hversion =>
  split at h
  · cases h
  next entries s hs =>
  have hframed : Framed value := ⟨hlength, not_not.mp hversion⟩
  have hwritten := chmodEntries_written _ hs
  change ChmodWritten mode (value.drop 4) entries 0 ⟨false, none, false, false, false⟩ s at hwritten
  obtain ⟨huserObj, hgroupObj, hmask, hother, hnamed⟩ := hwritten.marked
  simp only [Bool.false_eq_true, false_or, ne_eq, not_true_eq_false, List.mem_map,
    exists_exists_and_eq_and] at huserObj hgroupObj hmask hother hnamed
  change _ ↔ Masked (aclEntries value) at hmask
  split at h
  · cases h
  next groupObj hset =>
  split at h
  · cases h
  next hcomplete =>
  have hall : Complete (aclEntries value) := by
    simp only [Bool.not_eq_true', not_or, Bool.not_eq_false, not_and] at hcomplete
    exact ⟨huserObj.mp hcomplete.1, hgroupObj.mp (by simp [hset]), hother.mp hcomplete.2.1,
      fun hsome => hmask.mp (hcomplete.2.2 (hnamed.mpr hsome))⟩
  split at h
  next hunmasked =>
    cases h
    obtain ⟨-, hpatched⟩ := hwritten.patched groupObj rfl hset
    obtain ⟨hframed', hentries⟩ := hframed.replaceEntries
      ((length_setPermissions entries groupObj (groupBits mode)).trans hwritten.length)
    have hnone : ¬ Masked (aclEntries value) := fun hsome => by
      rw [hmask.mpr hsome] at hunmasked
      cases hunmasked
    refine ⟨hframed', ?_, hall⟩
    rw [hentries, decide_eq_false hnone]
    exact hpatched
  next hmasked =>
    cases h
    obtain ⟨hframed', hentries⟩ := hframed.replaceEntries hwritten.length
    refine ⟨hframed', ?_, hall⟩
    rw [hentries, decide_eq_true (hmask.mp (by simpa using hmasked))]
    exact hwritten.entries

def BitsAgree (acl : Blob) (mode : BitVec 32) : Prop :=
  ∃ bits, aclAccessModeBits acl = .ok bits ∧ mode &&& 0o777 = bits.setWidth 32

lemma perm7_of_three {e : AclEntry} (h : e.perm = perm) (hperm : Contains 0o7#16 perm) :
    perm7 e = perm := by
  rw [perm7, h, BitVec.and_comm]
  exact hperm

lemma latest_chmodded {entries : List AclEntry} {tag : BitVec 16} {o : Option (BitVec 16)}
    (h : Latest (entries.map (chmodded mode masked)) (·.tag = tag) perm7 o)
    (hsome : ∃ e ∈ entries, e.tag = tag) (hperm : Contains 0o7#16 perm)
    (hall : ∀ e : AclEntry, e.tag = tag → (chmodded mode masked e).perm = perm) : o = some perm := by
  have htag (e : AclEntry) : (chmodded mode masked e).tag = e.tag :=
    congrArg Prod.fst (chmodded_key e)
  refine h.eq_some ?_ ?_
  · obtain ⟨e, he, hte⟩ := hsome
    exact ⟨_, List.mem_map_of_mem he, (htag e).trans hte⟩
  · intro e' he' hte'
    obtain ⟨e, -, rfl⟩ := List.mem_map.mp he'
    exact perm7_of_three (hall e ((htag e).symm.trans hte')) hperm

lemma chmodAccessAcl_bitsAgree {value out : Blob} (h : chmodAccessAcl value mode = .ok out) :
    BitsAgree out mode := by
  obtain ⟨hframed, hentries, hcomplete⟩ := chmodAccessAcl_entries h
  have hscanned := modeScanned_modeScan (aclEntries out)
  generalize hs : modeScan (aclEntries out) = s at hscanned
  rw [hentries] at hscanned
  have howner : s.userObjPerm = some (ownerBits mode) :=
    latest_chmodded hscanned.userObj hcomplete.userObj (contains_seven_bits _) fun e htag => by
      rw [chmodded, if_pos htag]
  have hother : s.otherPerm = some (otherBits mode) :=
    latest_chmodded hscanned.other hcomplete.other (contains_seven_bits _) fun e htag => by
      rw [chmodded, if_neg (not_tag htag (by decide)), if_neg (not_tag htag (by decide)), if_pos htag]
  have htags : ∀ e ∈ aclEntries out, ∃ e₀ ∈ aclEntries value, e₀.key = e.key := by
    rw [hentries]
    intro e he
    obtain ⟨e₀, he₀, rfl⟩ := List.mem_map.mp he
    exact ⟨e₀, he₀, (chmodded_key e₀).symm⟩
  have hmask : Masked (aclEntries value) → s.maskPerm = some (groupBits mode) := fun hsome =>
    latest_chmodded hscanned.mask hsome (contains_seven_bits _) fun e htag => by
      rw [chmodded, if_neg (not_tag htag (by decide)), if_pos htag]
  have hgroup : s.maskPerm.or s.groupObjPerm = some (groupBits mode) := by
    by_cases hsome : Masked (aclEntries value)
    · rw [hmask hsome, Option.some_or]
    · have hnone : s.maskPerm = none := by
        refine hscanned.mask.eq_none fun e he htag => hsome ?_
        rw [← hentries] at he
        obtain ⟨e₀, he₀, hkey⟩ := htags e he
        exact ⟨e₀, he₀, (congrArg Prod.fst hkey).trans htag⟩
      rw [decide_eq_false hsome] at hscanned
      rw [hnone, Option.none_or]
      exact latest_chmodded hscanned.groupObj hcomplete.groupObj (contains_seven_bits _)
        fun e htag => by rw [chmodded_groupObj htag]
  refine ⟨_, aclAccessModeBits_of_scan hframed hs (fun hnamed => ?_) howner hgroup hother,
    (joinClasses_mode mode).symm⟩
  obtain ⟨e, he, htag⟩ := hscanned.named.mp hnamed
  rw [← hentries] at he
  obtain ⟨e₀, he₀, hkey⟩ := htags e he
  rw [hmask (hcomplete.mask ⟨e₀, he₀, hkey ▸ htag⟩)]
  exact Option.some_ne_none _

def ChmodKeeps (entries entries' : List AclEntry) : Prop :=
  List.Forall₂ (fun e e' => e'.key = e.key ∧
    (Named e.key ∨ (e.tag = aclGroupObj ∧ Masked entries) → e' = e)) entries entries'

lemma chmodAccessAcl_keeps {value out : Blob} (h : chmodAccessAcl value mode = .ok out) :
    ChmodKeeps (aclEntries value) (aclEntries out) := by
  obtain ⟨-, hentries, -⟩ := chmodAccessAcl_entries h
  rw [hentries, ChmodKeeps, List.forall₂_map_right_iff, List.forall₂_same]
  intro e he
  refine ⟨chmodded_key e, ?_⟩
  rintro ((hnamed | hnamed) | ⟨htag, hmasked⟩)
  · have hne : e.tag = aclUser := hnamed
    simp [chmodded, hne, aclUserObj, aclUser, aclGroupObj, aclMask, aclOther]
  · have hne : e.tag = aclGroup := hnamed
    simp [chmodded, hne, aclUserObj, aclGroup, aclGroupObj, aclMask, aclOther]
  · rw [chmodded, if_neg (not_tag htag (by decide)), if_neg (not_tag htag (by decide)),
      if_neg (not_tag htag (by decide)), if_neg (by simp [hmasked])]

lemma ChmodKeeps.refl (entries : List AclEntry) : ChmodKeeps entries entries := by
  rw [ChmodKeeps, List.forall₂_same]
  exact fun e _ => ⟨rfl, fun _ => rfl⟩

end Chmod

/-! ## Creation -/

def lastPerm (tag : BitVec 16) (found : Option (BitVec 16)) (entries : List AclEntry) :
    Option (BitVec 16) :=
  entries.foldl (fun found e => if e.tag = tag then some e.perm else found) found

/-- The default list has a mask, or the bits of the owning group that reach into the
class of the owner are bits that the owner gets. -/
def GroupFits (entries : List AclEntry) (mode : BitVec 32) : Prop :=
  Masked entries ∨
    ∀ owner ∈ lastPerm aclUserObj none entries, ∀ group ∈ lastPerm aclGroupObj none entries,
      Contains (owner &&& ownerBits mode) ((group >>> 3) &&& 0o7)

section Creation

variable {mode : BitVec 32} {s s' : DefaultScan} {perm : BitVec 16} {e : AclEntry}

def DefaultScan.frontend (s : DefaultScan) : ModeScan :=
  ⟨s.userObj.map (· &&& 0o7), s.groupObj.map (· &&& 0o7), s.aclMask.map (· &&& 0o7),
    s.other.map (· &&& 0o7), s.hasNamedEntry⟩

lemma constrainEntry_frontend (id : BitVec 32)
    (h : constrainEntry mode s e.tag e.perm = .ok (perm, s')) :
    modeEntry s.frontend ⟨e.tag, perm, id⟩ = s'.frontend := by
  unfold modeEntry
  dsimp only
  cases constrainEntry_cases h with
  | userObj htag =>
    rw [if_pos htag]
    rfl
  | named htag =>
    rw [if_neg (by rcases htag with htag | htag <;> rw [htag] <;> decide), if_pos htag]
    rfl
  | groupObj htag =>
    rw [htag]
    rfl
  | mask htag =>
    rw [htag]
    rfl
  | other htag =>
    rw [htag]
    rfl

lemma constrainEntry_registers (h : constrainEntry mode s e.tag e.perm = .ok (perm, s')) :
    s'.userObj = (if e.tag = aclUserObj then some (e.perm &&& ownerBits mode) else s.userObj) ∧
      s'.groupObj = (if e.tag = aclGroupObj then some e.perm else s.groupObj) ∧
      (s.hasMask = s.aclMask.isSome → s'.hasMask = s'.aclMask.isSome) := by
  cases constrainEntry_cases h with
  | userObj htag | groupObj htag | mask htag | other htag =>
    rw [htag]
    exact ⟨rfl, rfl, by simp⟩
  | named htag =>
    rcases htag with htag | htag <;> rw [htag] <;> exact ⟨rfl, rfl, by simp⟩

lemma constrainEntries_registers (blob : Blob) {out : Blob} {o : Option (BitVec 16)}
    (hs : constrainEntries mode blob s = .ok (out, s'))
    (howner : s.userObj = o.map (· &&& ownerBits mode)) (hmask : s.hasMask = s.aclMask.isSome) :
    out.length = blob.length ∧ (chunks out).foldl modeEntry s.frontend = s'.frontend ∧
      s'.userObj = (lastPerm aclUserObj o (chunks blob)).map (· &&& ownerBits mode) ∧
      s'.groupObj = lastPerm aclGroupObj s.groupObj (chunks blob) ∧
      s'.hasMask = s'.aclMask.isSome := by
  induction blob using chunks.induct generalizing s out o with
  | case1 b0 b1 b2 b3 b4 b5 b6 b7 rest ih =>
    rw [constrainEntries] at hs
    split at hs
    · cases hs
    next perm s₁ hentry =>
    split at hs
    · cases hs
    next out₁ s₂ hrest =>
    cases hs
    let e : AclEntry := ⟨u16FromLe b0 b1, u16FromLe b2 b3, u32FromLe b4 b5 b6 b7⟩
    have hfrontend := constrainEntry_frontend (e := e) e.id hentry
    obtain ⟨howner₁, hgroup₁, hmask₁⟩ := constrainEntry_registers (e := e) hentry
    have hfound : s₁.userObj =
        (if e.tag = aclUserObj then some e.perm else o).map (· &&& ownerBits mode) := by
      rw [howner₁, howner]
      split <;> rfl
    obtain ⟨hlength, hscan, howner', hgroup', hmask'⟩ := ih hrest hfound (hmask₁ hmask)
    refine ⟨by simp [hlength], ?_, howner', ?_, hmask'⟩
    · rw [chunks, u16FromLe_extract, List.foldl_cons, hfrontend, hscan]
    · rw [hgroup', hgroup₁]
      rfl
  | case2 blob hshort =>
    have hnone : chunks blob = [] := by
      rw [chunks]
      exact hshort
    have hsame : constrainEntries mode blob s = .ok (blob, s) := by
      rw [constrainEntries]
      exact hshort
    rw [hsame] at hs
    cases hs
    rw [hnone]
    exact ⟨rfl, rfl, howner, rfl, hmask⟩

lemma getLsbD_createdMode {owner group other : BitVec 16} (howner : Contains 0o7#16 owner)
    (hother : Contains 0o7#16 other) {i : Nat} (hi : i < 9) :
    ((mode &&& ~~~ 0o777#32) ||| (owner.setWidth 32 <<< 6) ||| (group.setWidth 32 <<< 3) |||
      other.setWidth 32).getLsbD i =
      if i < 3 then other.getLsbD i else if i < 6 then group.getLsbD (i - 3)
      else (owner.getLsbD (i - 6) || group.getLsbD (i - 3)) := by
  have hhigh := getLsbD_777 i
  have howner' := @getLsbD_of_three _ howner
  have hother' := @getLsbD_of_three _ hother
  simp only [BitVec.getLsbD_or, BitVec.getLsbD_and, BitVec.getLsbD_not, BitVec.getLsbD_shiftLeft,
    BitVec.getLsbD_setWidth, hhigh]
  split
  · grind
  split
  · grind
  · grind

lemma createdMode_agrees_iff (mode : BitVec 32) {owner group other : BitVec 16}
    (howner : Contains 0o7#16 owner) (hother : Contains 0o7#16 other) :
    ((mode &&& ~~~ 0o777#32) ||| (owner.setWidth 32 <<< 6) ||| (group.setWidth 32 <<< 3) |||
        other.setWidth 32) &&& 0o777 = (joinClasses owner (group &&& 0o7) other &&& 0o777).setWidth 32 ↔
      Contains owner ((group >>> 3) &&& 0o7) := by
  have hgroup : Contains 0o7#16 (group &&& 0o7) := contains_and_right _ _
  have hseven : ∀ i, (0o7 : BitVec 16).getLsbD i = decide (i < 3) := getLsbD_seven
  have hlow : ∀ i, (0o777 : BitVec 16).getLsbD i = decide (i < 9) := getLsbD_nine
  have hlow' : ∀ i, (0o777 : BitVec 32).getLsbD i = decide (i < 9) := getLsbD_777
  have hbit (i : Nat) (hi : i < 9) :
      (((mode &&& ~~~ 0o777#32) ||| (owner.setWidth 32 <<< 6) ||| (group.setWidth 32 <<< 3) |||
          other.setWidth 32).getLsbD i = (joinClasses owner (group &&& 0o7) other).getLsbD i) ↔
        (6 ≤ i → group.getLsbD (i - 3) = true → owner.getLsbD (i - 6) = true) := by
    rw [getLsbD_createdMode howner hother hi, getLsbD_joinClasses howner hgroup hother,
      BitVec.getLsbD_and, hseven]
    by_cases h3 : i < 3
    · simp [h3, show ¬ 6 ≤ i by omega]
    by_cases h6 : i < 6
    · simp [h3, h6, show i - 3 < 3 by omega, show ¬ 6 ≤ i by omega]
    · simp [h3, h6, hi, show 6 ≤ i by omega]
  generalize (mode &&& ~~~ 0o777#32) ||| (owner.setWidth 32 <<< 6) ||| (group.setWidth 32 <<< 3) |||
    other.setWidth 32 = created at hbit ⊢
  generalize joinClasses owner (group &&& 0o7) other = joined at hbit ⊢
  constructor
  · intro heq
    refine contains_iff.mpr fun j hj => ?_
    rw [BitVec.getLsbD_and, BitVec.getLsbD_ushiftRight, hseven, Bool.and_eq_true,
      decide_eq_true_eq] at hj
    have hword := congrArg (BitVec.getLsbD · (j + 6)) heq
    simp only [BitVec.getLsbD_and, BitVec.getLsbD_setWidth, hlow, hlow',
      show j + 6 < 9 by omega, show j + 6 < 32 by omega, decide_true, Bool.and_true,
      Bool.true_and] at hword
    have howned := (hbit (j + 6) (by omega)).mp hword (by omega)
    rw [show j + 6 - 3 = 3 + j by omega, Nat.add_sub_cancel] at howned
    exact howned hj.1
  · intro hcontains
    apply BitVec.eq_of_getLsbD_eq
    intro i hi
    rw [BitVec.getLsbD_and, hlow', BitVec.getLsbD_setWidth, BitVec.getLsbD_and, hlow]
    by_cases h9 : i < 9
    · rw [(hbit i h9).mpr]
      · simp [hi]
      intro h6 hgroupBit
      refine contains_iff.mp hcontains (i - 6) ?_
      rw [BitVec.getLsbD_and, BitVec.getLsbD_ushiftRight, hseven, show 3 + (i - 6) = i - 3 by omega,
        hgroupBit]
      simpa using (by omega : i - 6 < 3)
    · simp [h9]

lemma constrainDefaultAclToMode_bitsAgree_iff {value acl : Blob} {mode' : BitVec 32}
    (h : constrainDefaultAclToMode value mode = .ok (acl, mode')) :
    BitsAgree acl mode' ↔ GroupFits (aclEntries value) mode := by
  rw [constrainDefaultAclToMode] at h
  split at h
  · cases h
  next hlength =>
  split at h
  · cases h
  next hversion =>
  split at h
  · cases h
  next entries s hs =>
  split at h
  · cases h
  next hnamed =>
  split at h
  · cases h
  · cases h
  · cases h
  next owner group other howner hgroup hother =>
  cases h
  have hframed : Framed value := ⟨hlength, not_not.mp hversion⟩
  obtain ⟨hsize, hscan, huser, hobj, hmasked⟩ :=
    constrainEntries_registers (o := none) _ hs rfl rfl
  obtain ⟨hframed', hentries⟩ := hframed.replaceEntries hsize
  obtain ⟨hscanned, -⟩ := constrainEntries_scanned _ defaultScanned_init hs
  have howner7 : Contains 0o7#16 owner := (contains_seven_bits _).trans (hscanned.userObj _ howner)
  have hother7 : Contains 0o7#16 other := (contains_seven_bits _).trans (hscanned.other _ hother)
  have hbits : aclAccessModeBits (value.take 4 ++ entries) =
      .ok (joinClasses owner (group &&& 0o7) other &&& 0o777) := by
    refine aclAccessModeBits_of_scan hframed' (s := s.frontend) ?_ ?_ ?_ ?_ ?_
    · rw [hentries]
      exact hscan
    · intro hsome hnone
      have hmask : s.hasMask = true := by
        by_contra hno
        exact hnamed ⟨hsome, by simpa using hno⟩
      rw [hmasked] at hmask
      rw [show s.frontend.maskPerm = s.aclMask.map (· &&& 0o7) from rfl, Option.map_eq_none_iff] at hnone
      rw [hnone] at hmask
      cases hmask
    · rw [show s.frontend.userObjPerm = s.userObj.map (· &&& 0o7) from rfl, howner, Option.map_some,
        BitVec.and_comm]
      exact congrArg some howner7
    · rw [show s.frontend.maskPerm.or s.frontend.groupObjPerm = (s.aclMask.or s.groupObj).map (· &&& 0o7)
        from Option.map_or.symm, hgroup, Option.map_some]
    · rw [show s.frontend.otherPerm = s.other.map (· &&& 0o7) from rfl, hother, Option.map_some,
        BitVec.and_comm]
      exact congrArg some hother7
  have hagree : BitsAgree (value.take 4 ++ entries) ((mode &&& ~~~ 0o777#32) |||
      (owner.setWidth 32 <<< 6) ||| (group.setWidth 32 <<< 3) ||| other.setWidth 32) ↔
      Contains owner ((group >>> 3) &&& 0o7) := by
    rw [← createdMode_agrees_iff mode howner7 hother7, BitsAgree, hbits]
    simp
  rw [hagree, GroupFits]
  rcases Option.or_eq_some_iff.mp hgroup with hmask | ⟨hnone, hgroupObj⟩
  · have hsome : Masked (aclEntries value) := by
      by_contra hno
      rw [hscanned.maskSet.mpr fun e he htag => hno ⟨e, he, htag⟩] at hmask
      cases hmask
    have hgroup7 : Contains 0o7#16 group := (contains_seven_bits _).trans (hscanned.mask _ hmask)
    have hzero : (group >>> 3) &&& 0o7 = 0 := by
      apply BitVec.eq_of_getLsbD_eq
      intro i _
      rw [BitVec.getLsbD_and, BitVec.getLsbD_ushiftRight, getLsbD_of_three hgroup7 (by omega)]
      simp
    rw [hzero]
    exact ⟨fun _ => .inl hsome, fun _ => by simp [Contains]⟩
  · have hno : ¬ Masked (aclEntries value) := by
      rintro ⟨e, he, htag⟩
      exact hscanned.maskSet.mp hnone e he htag
    rw [hobj] at hgroupObj
    rw [huser, Option.map_eq_some_iff] at howner
    obtain ⟨full, hfull, rfl⟩ := howner
    change lastPerm aclUserObj none (aclEntries value) = some full at hfull
    change lastPerm aclGroupObj none (aclEntries value) = some group at hgroupObj
    rw [hfull, hgroupObj]
    simp [hno]

end Creation

/-! ## One inode -/

/-- If there is an access list, the permission bits of the mode are its bits. -/
def Inode.Synced (i : Inode) : Prop := ∀ acl, i.accessAcl = some acl → BitsAgree acl i.mode

def Inode.KeptBy (i i' : Inode) : Prop :=
  List.Forall₂ (fun acl acl' => ChmodKeeps (aclEntries acl) (aclEntries acl'))
    i.accessAcl.toList i'.accessAcl.toList

lemma and_777_of_high {mode high : BitVec 32} (hhigh : high &&& 0o777 = 0) :
    (mode &&& ~~~ high) &&& 0o777 = mode &&& 0o777 := by
  apply BitVec.eq_of_getLsbD_eq
  intro i hi
  have hbit := congrArg (BitVec.getLsbD · i) hhigh
  simp only [BitVec.getLsbD_and, BitVec.ofNat_eq_ofNat, BitVec.getLsbD_zero] at hbit
  simp only [BitVec.getLsbD_and, BitVec.getLsbD_not, BitVec.ofNat_eq_ofNat]
  grind

lemma BitsAgree.of_and_777 {acl : Blob} {mode mode' : BitVec 32} (h : BitsAgree acl mode)
    (hmode : mode' &&& 0o777 = mode &&& 0o777) : BitsAgree acl mode' := by
  obtain ⟨bits, hbits, hagree⟩ := h
  exact ⟨bits, hbits, hmode.trans hagree⟩

lemma storeMode_eq {mode mode' : BitVec 32} (h : storeMode mode = .ok mode') : mode' = mode := by
  unfold storeMode at h
  split at h
  · cases h
  · exact (Except.ok.inj h).symm

lemma parsePersistedPosixMode_eq {mode mode' : BitVec 32}
    (h : parsePersistedPosixMode mode = .ok mode') : mode' = mode := by
  unfold parsePersistedPosixMode at h
  split at h
  · cases h
  · exact (Except.ok.inj h).symm

section Operations

variable {i i' : Inode} {change : PermissionChange} {seed : String} {outcome : PermissionOutcome}

lemma newMode_of_none (h : change.mode = none) (mode : BitVec 32) :
    change.newMode i mode &&& 0o777 = mode &&& 0o777 := by
  simp only [PermissionChange.newMode, h, Option.map_none, Option.getD_none, Option.isSome_none,
    Bool.false_and, Bool.false_eq_true, if_false]
  split
  · exact and_777_of_high (by decide)
  · rfl

lemma changeInodePermissions_cases (h : i.changeInodePermissions seed change = .ok (i', outcome)) :
    i' = i ∨ ∃ mode acl, change.newAcl i mode = .ok acl ∧ i'.accessAcl = acl ∧
      (i.kind = .symlink ∧ i'.mode = i.mode ∨
        i.kind ≠ .symlink ∧ mode = change.newMode i i.mode ∧ i'.mode = mode) := by
  unfold Inode.changeInodePermissions at h
  split at h
  · cases h
    exact .inl rfl
  obtain ⟨currentMode, hcurrent, h⟩ := ok_of_bind h
  split at h
  · cases h
    exact .inl rfl
  obtain ⟨acl, hacl, h⟩ := ok_of_bind h
  obtain ⟨stored, hstored, h⟩ := ok_of_bind h
  cases h
  refine .inr ⟨_, acl, hacl, rfl, ?_⟩
  by_cases hkind : i.kind = .symlink
  · rw [Inode.updateMode, if_pos hkind] at hstored
    exact .inl ⟨hkind, (Except.ok.inj hstored).symm⟩
  · rw [Inode.currentMode, if_neg hkind] at hcurrent
    rw [Inode.updateMode, if_neg hkind] at hstored
    exact .inr ⟨hkind, by rw [parsePersistedPosixMode_eq hcurrent], storeMode_eq hstored⟩

lemma newAcl_cases {mode : BitVec 32} {acl : Option Blob} (h : change.newAcl i mode = .ok acl)
    (hon : change.usePosixAcl = true) : (change.mode.isSome ∧ i.kind ≠ .symlink ∧
        ∃ old new, i.accessAcl = some old ∧ acl = some new ∧ chmodAccessAcl old mode = .ok new) ∨
      acl = i.accessAcl ∧ (change.mode = none ∨ i.kind = .symlink ∨ i.accessAcl = none) := by
  unfold PermissionChange.newAcl at h
  split at h
  next hmode =>
    simp only [hon, Bool.and_true, Bool.and_eq_true, bne_iff_ne, ne_eq] at hmode
    split at h
    next hnone =>
      cases h
      exact .inr ⟨hnone.symm, .inr (.inr hnone)⟩
    next old hold =>
      cases hnew : chmodAccessAcl old mode with
      | error e =>
        rw [hnew] at h
        cases h
      | ok new =>
        rw [hnew] at h
        cases h
        exact .inl ⟨hmode.1, hmode.2, old, new, hold, rfl, hnew⟩
  next hmode =>
    cases h
    refine .inr ⟨rfl, ?_⟩
    cases hnone : change.mode with
    | none => exact .inl rfl
    | some mode => exact .inr (.inl (by simpa [hon, hnone] using hmode))

lemma Inode.Synced.changeInodePermissions (hsynced : i.Synced) (hon : change.usePosixAcl = true)
    (h : i.changeInodePermissions seed change = .ok (i', outcome)) : i'.Synced := by
  rcases changeInodePermissions_cases h with rfl | ⟨mode, acl, hacl, hlist, hmode⟩
  · exact hsynced
  intro acl' hacl'
  rw [hlist] at hacl'
  rcases newAcl_cases hacl hon with ⟨-, hkind, old, new, -, rfl, hnew⟩ | ⟨rfl, hwhy⟩
  · cases hacl'
    rcases hmode with ⟨hsymlink, -⟩ | ⟨-, -, hmode⟩
    · exact absurd hsymlink hkind
    · rw [hmode]
      exact chmodAccessAcl_bitsAgree hnew
  · refine (hsynced acl' hacl').of_and_777 ?_
    rcases hmode with ⟨-, hmode⟩ | ⟨hkind, rfl, hmode⟩
    · rw [hmode]
    · rcases hwhy with hnone | hsymlink | hnone
      · rw [hmode, newMode_of_none hnone]
      · exact absurd hsymlink hkind
      · rw [hnone] at hacl'
        cases hacl'

lemma changeInodePermissions_kept (hon : change.usePosixAcl = true)
    (h : i.changeInodePermissions seed change = .ok (i', outcome)) : i.KeptBy i' := by
  have hsame : ∀ o : Option Blob, List.Forall₂
      (fun acl acl' => ChmodKeeps (aclEntries acl) (aclEntries acl')) o.toList o.toList := fun o =>
    List.forall₂_same.mpr fun acl _ => ChmodKeeps.refl (aclEntries acl)
  rw [Inode.KeptBy]
  rcases changeInodePermissions_cases h with rfl | ⟨mode, acl, hacl, hlist, -⟩
  · exact hsame _
  rw [hlist]
  rcases newAcl_cases hacl hon with ⟨-, -, old, new, hold, rfl, hnew⟩ | ⟨rfl, -⟩
  · rw [hold]
    exact .cons (chmodAccessAcl_keeps hnew) .nil
  · exact hsame _

lemma synchronizedMode_and_777 (r : AclRequest) (mode : BitVec 32) (bits : BitVec 16) :
    r.synchronizedMode mode bits &&& 0o777 = bits.setWidth 32 &&& 0o777 := by
  have hjoined : ((mode &&& ~~~ 0o777) ||| (bits.setWidth 32 &&& 0o777)) &&& 0o777 =
      bits.setWidth 32 &&& 0o777 := by
    apply BitVec.eq_of_getLsbD_eq
    intro i hi
    simp only [BitVec.getLsbD_and, BitVec.getLsbD_or, BitVec.getLsbD_not]
    grind
  unfold AclRequest.synchronizedMode
  dsimp only
  split
  · rw [and_777_of_high (by decide), hjoined]
  · exact hjoined

lemma aclAccessModeBits_and_777 {acl : Blob} {bits : BitVec 16}
    (h : aclAccessModeBits acl = .ok bits) : bits.setWidth 32 &&& 0o777 = bits.setWidth 32 := by
  obtain ⟨entries, -, h⟩ := ok_of_bind h
  obtain ⟨mode, -, h⟩ := ok_of_bind h
  cases h
  have hwidth : (0o777 : BitVec 32) = (0o777 : BitVec 16).setWidth 32 := rfl
  rw [hwidth, ← BitVec.setWidth_and, BitVec.and_assoc, BitVec.and_self]

lemma Inode.Synced.setxattr {r : AclRequest} (hsynced : i.Synced) (h : i.setxattr r = .ok i') :
    i'.Synced := by
  unfold Inode.setxattr at h
  split at h
  · cases h
  next bits hbits =>
  unfold Inode.storePosixAclForOwner at h
  split at h
  · cases h
  split at h
  · cases h
  split at h
  · cases h
  obtain ⟨currentMode, -, h⟩ := ok_of_bind h
  split at h
  · cases h
  split at h
  · cases h
  unfold AclRequest.permissionBits at hbits
  cases hname : r.name with
  | access =>
    rw [hname] at hbits h
    cases hread : aclAccessModeBits r.value with
    | error e =>
      rw [hread] at hbits
      cases hbits
    | ok read =>
      rw [hread] at hbits
      cases hbits
      obtain ⟨mode, hmode, h⟩ := ok_of_bind h
      cases h
      rintro acl ⟨⟩
      refine ⟨read, hread, ?_⟩
      rw [storeMode_eq hmode, synchronizedMode_and_777, aclAccessModeBits_and_777 hread]
  | default =>
    rw [hname] at hbits h
    obtain ⟨entries, -, hbits⟩ := ok_of_bind hbits
    obtain ⟨-, -, hbits⟩ := ok_of_bind hbits
    cases hbits
    cases h
    exact hsynced

lemma withoutPrivileges_and_777 (mode : BitVec 32) :
    withoutPrivileges mode &&& 0o777 = mode &&& 0o777 := by
  unfold withoutPrivileges
  dsimp only
  split
  · rw [and_777_of_high (by decide), and_777_of_high (by decide)]
  · exact and_777_of_high (by decide)

lemma Inode.Synced.clearFilePrivileges (hsynced : i.Synced) (h : i.clearFilePrivileges = .ok i') :
    i'.Synced := by
  unfold Inode.clearFilePrivileges at h
  split at h
  · cases h
  obtain ⟨currentMode, hcurrent, h⟩ := ok_of_bind h
  obtain ⟨mode, hmode, h⟩ := ok_of_bind h
  cases h
  intro acl hacl
  refine (hsynced acl hacl).of_and_777 ?_
  rw [storeMode_eq hmode, withoutPrivileges_and_777, parsePersistedPosixMode_eq hcurrent]

lemma Inode.Synced.after (hsynced : i.Synced) (op : InodeOperation) : (op.after i).Synced := by
  unfold InodeOperation.after
  split
  next hop =>
    cases op with
    | changePermissions seed change =>
      cases hchange : i.changeInodePermissions seed { change with usePosixAcl := true } with
      | error e =>
        simp only [InodeOperation.apply, hchange] at hop
        cases hop
      | ok result =>
        simp only [InodeOperation.apply, hchange] at hop
        cases hop
        exact hsynced.changeInodePermissions rfl hchange
    | setxattr request => exact hsynced.setxattr hop
    | clearPrivileges => exact hsynced.clearFilePrivileges hop
  · exact hsynced

lemma Inode.Synced.run (hsynced : i.Synced) (ops : List InodeOperation) : (i.run ops).Synced := by
  induction ops generalizing i with
  | nil => exact hsynced
  | cons op ops ih => exact ih (hsynced.after op)

end Operations

def Creation.Fits (c : Creation) : Prop :=
  ∀ acl, c.defaultAcl = some acl → GroupFits (aclEntries acl) c.requestedMode

lemma create_synced_iff {c : Creation} {i : Inode} (h : c.create = .ok i) : i.Synced ↔ c.Fits := by
  obtain ⟨⟨mode, accessAcl, defaultAcl⟩, hprepared, h⟩ := ok_of_bind h
  obtain ⟨stored, hstored, h⟩ := ok_of_bind h
  cases h
  have hmode := storeMode_eq hstored
  unfold prepareDefaultAclInheritance at hprepared
  unfold Inode.Synced Creation.Fits
  split at hprepared
  next hnone =>
    cases hprepared
    simp [hnone]
  next acl hacl =>
    obtain ⟨⟨constrained, mode'⟩, hconstrained, hprepared⟩ := ok_of_bind hprepared
    cases hprepared
    simp only [hacl, Option.some.injEq, forall_eq', hmode]
    exact constrainDefaultAclToMode_bitsAgree_iff hconstrained

/-- From its creation on, the mode of an inode follows its access list if and only if the
owning group of the default list fits, and chmod keeps what it must keep. -/
theorem mode_follows_acl_iff (c : Creation) (i : Inode) (hcreated : c.create = .ok i) :
    ((∀ ops, (i.run ops).Synced) ↔ c.Fits) ∧
      ∀ ops seed change i' outcome, change.usePosixAcl = true →
        (i.run ops).changeInodePermissions seed change = .ok (i', outcome) → (i.run ops).KeptBy i' := by
  rw [← create_synced_iff hcreated]
  exact ⟨⟨fun h => h [], fun hsynced ops => hsynced.run ops⟩,
    fun ops seed change i' outcome hon h => changeInodePermissions_kept hon h⟩

def createdUnder (entries : List AclEntry) : Creation :=
  ⟨false, "s", ⟨1000, 1000⟩, some (encode entries), 0o640, 0o022⟩

theorem mode_follows_acl_masked :
    ∃ i, (createdUnder namedUserAcl).create = .ok i ∧ ∀ ops, (i.run ops).Synced := by
  refine ⟨_, rfl, (mode_follows_acl_iff (createdUnder namedUserAcl) _ rfl).1.mpr ?_⟩
  rintro acl ⟨⟩
  rw [aclEntries_encode]
  exact .inl (by decide)

/-- The execute bit of the owner comes from the fourth bit of the owning group. -/
theorem mode_beside_acl :
    let entries : List AclEntry :=
      [⟨aclUserObj, 0o7, -1⟩, ⟨aclGroupObj, 0o10, -1⟩, ⟨aclOther, 0o5, -1⟩]
    AclRequest.permissionBits ⟨.default, encode entries, false, false, 0, false⟩ = .ok none ∧
      ∃ i acl, (createdUnder entries).create = .ok i ∧ i.mode = 0o700 ∧ i.accessAcl = some acl ∧
        aclAccessModeBits acl = .ok 0o600 := by
  exact ⟨rfl, _, _, rfl, rfl, rfl, rfl⟩

end Fod.Acl
