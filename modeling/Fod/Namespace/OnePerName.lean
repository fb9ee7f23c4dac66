import Fod.Namespace.Commit
import Fod.Namespace.ProgramsSafe

/-!
# One visible entry per name

The unique indexes of the schema are per table.  That no name is bound twice
across the tables follows from the lock discipline: a transaction that binds a
name holds its destination key and has resolved it, and a promotion moves a
binding between tables under the guard of the inode.
-/

namespace Fod.Namespace

def OnePerName (rows : List Row) : Prop :=
  ∀ x ∈ rows, ∀ y ∈ rows, x.visible = true → y.visible = true → x.place = y.place → x = y

instance (rows : List Row) : Decidable (OnePerName rows) :=
  inferInstanceAs (Decidable (∀ x ∈ rows, ∀ y ∈ rows, _ → _ → _ → _))

/-- A resolved name stays as it was found.  An alias that has not been validated
may have been promoted meanwhile: then its symlink stands at the name. -/
structure SeenOk (rows : List Row) (issued : List Entry) (F : Facts) (p : Place)
    (found : Option Entry) : Prop where
  key : .key (.destination p) ∈ F.locks
  issued : ∀ e ∈ found, e ∈ issued
  guard : ∀ id f, found = some (.hardlink id f) → F.Guards (.file f)
  bound : ∀ row ∈ rows, row.visible = true → row.place = p →
    found = some row.entry ∨ ∃ id sl, found = some (.symlinkHardlink id sl) ∧
      .symlinkHardlink id sl ∉ F.validated ∧ row.entry = .symlink sl
  stays : ∀ id sl, found = some (.symlinkHardlink id sl) →
    ∀ row ∈ rows, row.entry = .symlinkHardlink id sl → row.place = p

structure Sound (rows : List Row) (issued : List Entry) (F : Facts) : Prop where
  seen : ∀ x ∈ F.seen, SeenOk rows issued F x.1 x.2
  validated : ∀ e ∈ F.validated, F.Guards e
  pinned : ∀ row ∈ F.pins, row ∈ rows ∧ F.Guards row.entry ∧ ∃ e, row.entry.isLinkOf e = true
  touched : ∀ w ∈ F.writes, ∀ e, w.touches e = true → F.Guards e
  promoted : ∀ e link p, .promote e link p ∈ F.writes → link.isLinkOf e = true ∧
    ∃ row ∈ F.pins, row.entry = link ∧ row.place = p
  claimed : ∀ w ∈ F.writes, ∀ p ∈ w.claim, .key (.destination p) ∈ F.locks ∧
    ∀ row ∈ rows, row.visible = true → row.place = p → F.Removes row.entry
  once : F.ClaimsOnce
  apart : ∀ w ∈ F.writes, ∀ p ∈ w.claim, ∀ e link, .promote e link p ∉ F.writes
  rebound : ∀ e p, .rebind e p ∈ F.writes → e.isAlias = true → ∃ q, (q, some e) ∈ F.seen

lemma Sound.empty (rows : List Row) (issued : List Entry) : Sound rows issued {} := by
  constructor <;> simp [Facts.ClaimsOnce]

variable {e : Entry} {found : Option Entry} {issued : List Entry} {p : Place} {rows : List Row}
  {F : Facts}

lemma isLinkOf_visible {row : Row} (h : row.entry.isLinkOf e = true) : row.visible = true := by
  refine visible_of_not_file fun f hf => ?_
  rw [hf] at h
  obtain ⟨_, _, hlink, -⟩ | ⟨_, _, hlink, -⟩ := isLinkOf_cases h <;> cases hlink

/-! ## One statement -/

lemma SeenOk.of_same {F G : Facts} (h : SeenOk rows issued F p found) (hlocks : F.locks ⊆ G.locks)
    (hvalidated : G.validated = F.validated) : SeenOk rows issued G p found where
  key := hlocks h.key
  issued := h.issued
  guard id f he l hl := hlocks (h.guard id f he l hl)
  bound := hvalidated ▸ h.bound
  stays := h.stays

lemma SeenOk.of_read (hkeys : (rows.map Row.entry).Nodup)
    (hissued : ∀ row ∈ rows, row.entry ∈ issued) (hkey : .key (.destination p) ∈ F.locks)
    (hguard : ∀ id f, found = some (.hardlink id f) → F.Guards (.file f))
    (hread : (visibleAt rows p).map Row.entry = found.toList) : SeenOk rows issued F p found := by
  have hfound : ∀ e ∈ found, ∃ row ∈ rows, row.place = p ∧ row.entry = e := by
    intro e he
    have hmem : e ∈ (visibleAt rows p).map Row.entry := hread ▸ Option.mem_toList.mpr he
    obtain ⟨row, hrow, rfl⟩ := List.mem_map.mp hmem
    obtain ⟨hrow, hplace⟩ := List.mem_filter.mp hrow
    simp only [Bool.and_eq_true, beq_iff_eq] at hplace
    exact ⟨row, hrow, hplace.1, rfl⟩
  refine ⟨hkey, ?_, hguard, ?_, ?_⟩
  · intro e he
    obtain ⟨row, hrow, -, rfl⟩ := hfound e he
    exact hissued row hrow
  · intro row hrow hvisible hplace
    have hmem : row ∈ visibleAt rows p :=
      List.mem_filter.mpr ⟨hrow, by simp [hplace, hvisible]⟩
    have hentry := List.mem_map_of_mem (f := Row.entry) hmem
    rw [hread] at hentry
    exact .inl (Option.mem_toList.mp hentry)
  · intro id sl he row hrow hentry
    obtain ⟨old, hold, hplace, hold_entry⟩ := hfound _ he
    rw [List.inj_on_of_nodup_map hkeys hrow hold (hentry.trans hold_entry.symm)]
    exact hplace

lemma SeenOk.trust (h : SeenOk rows issued F p found) (hone : OnePerName rows)
    (hrow : hasEntry rows e = true) : SeenOk rows issued (F.trust e) p found := by
  refine ⟨h.key, h.issued, h.guard, ?_, h.stays⟩
  intro row hmem hvisible hplace
  obtain hfound | ⟨id, sl, hfound, hunvalidated, hentry⟩ := h.bound row hmem hvisible hplace
  · exact .inl hfound
  · refine .inr ⟨id, sl, hfound, ?_, hentry⟩
    intro hvalidated
    obtain rfl | hold := List.mem_cons.mp hvalidated
    · obtain ⟨old, hold, hold_entry⟩ := List.any_eq_true.mp hrow
      have hold_entry := eq_of_beq hold_entry
      have hold_visible : old.visible = true := by
        refine visible_of_not_file fun f hf => ?_
        rw [hold_entry] at hf
        cases hf
      have hold_place := h.stays id sl hfound old hold hold_entry
      have hsame := hone old hold row hmem hold_visible hvisible (hold_place.trans hplace.symm)
      rw [hsame, hentry] at hold_entry
      cases hold_entry
    · exact hunvalidated hold

lemma Facts.MayWrite.guards {w : Write} (h : F.MayWrite w)
    (htouch : w.touches e = true) : F.Guards e := by
  cases w with
  | insert new p => cases htouch
  | rebind x p => exact eq_of_beq htouch ▸ h.1
  | promote x link p =>
    obtain hx | hlink := Bool.or_eq_true_iff.mp htouch
    · exact eq_of_beq hx ▸ h.1
    · have hguard : e.guard = x.guard := eq_of_beq hlink ▸ guard_of_isLinkOf h.2.1
      intro l hl
      exact h.1 l (hguard ▸ hl)
  | hide f name => exact eq_of_beq htouch ▸ h
  | detach d => cases htouch
  | delete x =>
    cases x with
    | file f =>
      obtain hx | hlink := Bool.or_eq_true_iff.mp htouch
      · exact eq_of_beq hx ▸ h
      · obtain ⟨id, rfl⟩ := isHardlinkOf_iff.mp hlink
        exact h
    | hardlink id f => exact eq_of_beq htouch ▸ h
    | symlink sl => exact eq_of_beq htouch ▸ h
    | symlinkHardlink id sl => exact eq_of_beq htouch ▸ h
    | directory d => exact eq_of_beq htouch ▸ h

lemma Facts.Removes.write (h : F.Removes e) (w : Write) : (F.write w).Removes e := by
  obtain ⟨w', hw', htouch⟩ := h
  exact ⟨w', List.mem_append_left _ hw', htouch⟩

lemma Sound.hold
    (h : Sound rows issued F) (locks : List Lock) : Sound rows issued (F.hold locks) := by
  have hsub : F.locks ⊆ (F.hold locks).locks := List.subset_append_right _ _
  refine ⟨fun x hx => (h.seen x hx).of_same hsub rfl, fun e he => (h.validated e he).mono hsub,
    ?_, fun w hw e he => (h.touched w hw e he).mono hsub, h.promoted, ?_, h.once, h.apart,
    h.rebound⟩
  · intro row hrow
    obtain ⟨hmem, hguard, hlink⟩ := h.pinned row hrow
    exact ⟨hmem, hguard.mono hsub, hlink⟩
  · intro w hw p hp
    obtain ⟨hkey, hremoved⟩ := h.claimed w hw p hp
    exact ⟨hsub hkey, hremoved⟩

lemma Sound.removes_of_claims (h : Sound rows issued F) (hclaims : F.Claims p found)
    {row : Row} (hrow : row ∈ rows) (hvisible : row.visible = true) (hplace : row.place = p) :
    found = some row.entry ∧ F.Removes row.entry := by
  obtain hfound | ⟨id, sl, hfound, hunvalidated, -⟩ :=
    (h.seen _ hclaims.seen).bound row hrow hvisible hplace
  · exact ⟨hfound, hclaims.removed _ hfound⟩
  · exact absurd (hclaims.validated _ hfound rfl) hunvalidated

lemma Sound.write (h : Sound rows issued F) {w : Write} (hmay : F.MayWrite w) :
    Sound rows issued (F.write w) := by
  refine ⟨fun x hx => (h.seen x hx).of_same (fun _ hl => hl) rfl, h.validated, h.pinned,
    ?_, ?_, ?_, h.once.write hmay, ?_, ?_⟩
  · intro w' hw' e htouch
    obtain hold | rfl := Facts.mem_write.mp hw'
    · exact h.touched w' hold e htouch
    · exact hmay.guards htouch
  · intro e link p hw'
    obtain hold | rfl := Facts.mem_write.mp hw'
    · exact h.promoted e link p hold
    · exact ⟨hmay.2.1, hmay.2.2.2⟩
  · intro w' hw' p hp
    obtain hold | rfl := Facts.mem_write.mp hw'
    · obtain ⟨hkey, hremoved⟩ := h.claimed w' hold p hp
      exact ⟨hkey, fun row hrow hvisible hplace => (hremoved row hrow hvisible hplace).write w⟩
    · obtain ⟨found, hclaims⟩ := hmay.claims hp
      refine ⟨(h.seen _ hclaims.seen).key, fun row hrow hvisible hplace => ?_⟩
      exact (h.removes_of_claims hclaims hrow hvisible hplace).2.write w'
  · intro w' hw' p hp e link hpromote
    obtain hold | rfl := Facts.mem_write.mp hw'
    · obtain hold' | rfl := Facts.mem_write.mp hpromote
      · exact h.apart w' hold p hp e link hold'
      · simp [hmay.2.2.1 w' hold] at hp
    · obtain hold' | rfl := Facts.mem_write.mp hpromote
      · obtain ⟨found, hclaims⟩ := hmay.claims hp
        obtain ⟨hlink, pin, hpin, rfl, hplace⟩ := h.promoted e link p hold'
        obtain ⟨hrow, -, -⟩ := h.pinned pin hpin
        have hfound := (h.removes_of_claims hclaims hrow (isLinkOf_visible hlink) hplace).1
        exact hclaims.kept e _ p hold' hfound
      · cases hp
  · intro e p hw' halias
    obtain hold | rfl := Facts.mem_write.mp hw'
    · exact h.rebound e p hold halias
    · exact hmay.2.2.1 halias

lemma Sound.gain {F F' : Facts}
    (h : Sound rows issued F) (hone : OnePerName rows) (hkeys : (rows.map Row.entry).Nodup)
    (hissued : ∀ row ∈ rows, row.entry ∈ issued) (hgain : Gain rows F F') :
    Sound rows issued F' := by
  have hsame : ∀ G : Facts, G.locks = F.locks → G.validated = F.validated →
      ∀ x ∈ F.seen, SeenOk rows issued G x.1 x.2 :=
    fun G hlocks hvalidated x hx =>
      (h.seen x hx).of_same (fun _ hl => hlocks ▸ hl) hvalidated
  cases hgain with
  | same => exact h
  | @see p found hkey hguard hread =>
    refine ⟨?_, h.validated, h.pinned, h.touched, h.promoted, h.claimed, h.once, h.apart, ?_⟩
    · intro x hx
      obtain rfl | hold := List.mem_cons.mp hx
      · exact .of_read hkeys hissued hkey hguard hread
      · exact hsame (F.see p found) rfl rfl x hold
    · intro e q hw halias
      obtain ⟨q', hq'⟩ := h.rebound e q hw halias
      exact ⟨q', List.mem_cons_of_mem _ hq'⟩
  | @trust e hguard hrow =>
    refine ⟨fun x hx => (h.seen x hx).trust hone hrow, ?_, h.pinned, h.touched, h.promoted,
      h.claimed, h.once, h.apart, h.rebound⟩
    intro e' he'
    obtain rfl | hold := List.mem_cons.mp he'
    · exact hguard
    · exact h.validated e' hold
  | outside _ _ _ =>
    exact ⟨hsame _ rfl rfl, h.validated, h.pinned, h.touched, h.promoted, h.claimed, h.once,
      h.apart, h.rebound⟩
  | @pin row e hrow hlink hguard =>
    refine ⟨hsame _ rfl rfl, h.validated, ?_, h.touched, ?_, h.claimed, h.once, h.apart,
      h.rebound⟩
    · intro row' hrow'
      obtain rfl | hold := List.mem_cons.mp hrow'
      · refine ⟨hrow, ?_, e, hlink⟩
        intro l hl
        exact hguard l (guard_of_isLinkOf hlink ▸ hl)
      · exact h.pinned row' hold
    · intro e' link p hw
      obtain ⟨hlink', pin, hpin, hrest⟩ := h.promoted e' link p hw
      exact ⟨hlink', pin, List.mem_cons_of_mem _ hpin, hrest⟩
  | write hmay _ => exact h.write hmay

/-! ## The commit of another transaction -/

lemma Write.fill_cases {id : Nat} {w : Write} (h : w.fill id = some (e, p)) :
    (w.inserted id = some e ∧ w.claim = some p) ∨ w = .rebind e p ∨
      ∃ link, w = .promote e link p := by
  cases w with
  | insert new q =>
    cases h
    exact .inl ⟨rfl, rfl⟩
  | rebind x q =>
    cases h
    exact .inr (.inl rfl)
  | promote x link q =>
    cases h
    exact .inr (.inr ⟨link, rfl⟩)
  | hide f name => cases h
  | detach d => cases h
  | delete x => cases h

section Commit

variable {rows : List Row} {issued : List Entry} {F G : Facts} {id : Nat}

lemma Sound.binds (h : Sound rows issued G) {row : Row}
    (hrow : row ∈ applyWrites id rows G.writes) (hvisible : row.visible = true) :
    (row ∈ rows ∧ ¬ G.Removes row.entry) ∨
      (∃ w ∈ G.writes, w.fill id = some (row.entry, row.place) ∧ w.claim = some row.place) ∨
      ∃ pin ∈ rows, pin.place = row.place ∧ pin.entry.isLinkOf row.entry = true ∧
        G.Guards pin.entry ∧ .promote row.entry pin.entry row.place ∈ G.writes := by
  obtain ⟨hold, huntouched⟩ | ⟨w, hw, hfill⟩ := mem_applyWrites hrow hvisible
  · refine .inl ⟨hold, ?_⟩
    rintro ⟨w, hw, htouch⟩
    simp [huntouched w hw] at htouch
  · obtain ⟨-, hclaim⟩ | rfl | ⟨link, rfl⟩ := Write.fill_cases hfill
    · exact .inr (.inl ⟨w, hw, hfill, hclaim⟩)
    · exact .inr (.inl ⟨_, hw, hfill, rfl⟩)
    · obtain ⟨hlink, pin, hpin, rfl, hplace⟩ := h.promoted _ _ _ hw
      obtain ⟨hmem, hguard, -⟩ := h.pinned pin hpin
      exact .inr (.inr ⟨pin, hmem, hplace, hlink, hguard, hw⟩)

def Beside (F G : Facts) : Prop :=
  ∀ l ∈ F.locks, ∀ m ∈ G.locks, l.conflicts m = false

lemma Beside.not_both_keys (h : Beside F G) {k : Key} (hF : .key k ∈ F.locks)
    (hG : .key k ∈ G.locks) : False := by
  have hfree := h _ hF _ hG
  simp [Lock.conflicts] at hfree

lemma Beside.not_both_guards (h : Beside F G) {link e : Entry}
    (hlink : link.isLinkOf e = true) (hF : F.Guards link) (hG : G.Guards link) : False := by
  obtain ⟨id, f, rfl, -⟩ | ⟨id, sl, rfl, -⟩ := isLinkOf_cases hlink
  · exact h.not_both_keys (hF _ rfl) (hG _ rfl)
  · have hfree := h _ (hF _ rfl) _ (hG _ rfl)
    simp [Lock.conflicts, RowLock.conflicts] at hfree

lemma SeenOk.commit {p : Place} {found : Option Entry} (hF : Sound rows issued F)
    (h : SeenOk rows issued F p found) (hG : Sound rows issued G) (hbeside : Beside F G)
    (hfresh : ∀ e ∈ inserted id G.writes, e ∉ issued) :
    SeenOk (applyWrites id rows G.writes) (inserted id G.writes ++ issued) F p found := by
  refine ⟨h.key, fun e he => List.mem_append_right _ (h.issued e he), h.guard, ?_, ?_⟩
  · intro row hrow hvisible hplace
    obtain ⟨hold, -⟩ | ⟨w, hw, -, hclaim⟩ | ⟨pin, hpin, hpin_place, hlink, hguard, -⟩ :=
      hG.binds hrow hvisible
    · exact h.bound row hold hvisible hplace
    · have hkey := (hG.claimed w hw _ hclaim).1
      rw [hplace] at hkey
      exact (hbeside.not_both_keys h.key hkey).elim
    · have hfound := h.bound pin hpin (isLinkOf_visible hlink) (hpin_place.trans hplace)
      obtain ⟨id', f, hpin_entry, -⟩ | ⟨id', sl, hpin_entry, hentry⟩ := isLinkOf_cases hlink
      · obtain hfound | ⟨_, _, -, -, hsymlink⟩ := hfound
        · rw [hpin_entry] at hfound hlink hguard
          exact (hbeside.not_both_guards hlink (h.guard id' f hfound) hguard).elim
        · rw [hpin_entry] at hsymlink
          cases hsymlink
      · obtain hfound | ⟨_, _, -, -, hsymlink⟩ := hfound
        · rw [hpin_entry] at hfound hlink hguard
          exact .inr ⟨id', sl, hfound, fun hvalidated =>
            hbeside.not_both_guards hlink (hF.validated _ hvalidated) hguard, hentry⟩
        · rw [hpin_entry] at hsymlink
          cases hsymlink
  · intro id' sl hfound row hrow hentry
    have hnew : row.entry ∉ inserted id G.writes := by
      intro hmem
      rw [hentry] at hmem
      exact hfresh _ hmem (h.issued _ hfound)
    have hvisible : row.visible = true := by
      refine visible_of_not_file fun f hf => ?_
      rw [hentry] at hf
      cases hf
    obtain ⟨hold, -⟩ | ⟨w, hw, hfill⟩ := mem_applyWrites hrow hvisible
    · exact h.stays id' sl hfound row hold hentry
    · obtain ⟨hins, -⟩ | rfl | ⟨link, rfl⟩ := Write.fill_cases hfill
      · exact absurd (List.mem_filterMap.mpr ⟨w, hw, hins⟩) hnew
      · -- the alias moves under the destination key of the place it stands at
        obtain ⟨old, hold, hold_entry⟩ | hmem := entry_of_mem_applyWrites hrow
        · have halias := hold_entry.trans hentry
          obtain ⟨q, hq⟩ := hG.rebound _ _ hw (by rw [hentry]; rfl)
          rw [hentry] at hq
          have hseen := hG.seen _ hq
          have hF_place := h.stays id' sl hfound old hold halias
          have hG_place := hseen.stays id' sl rfl old hold halias
          have hkey : Lock.key (.destination p) ∈ G.locks := by
            rw [← hF_place, hG_place]
            exact hseen.key
          exact (hbeside.not_both_keys h.key hkey).elim
        · exact absurd hmem hnew
      · have hlink := (hG.promoted _ _ _ hw).1
        rw [hentry] at hlink
        cases hlink

lemma Sound.commit (hF : Sound rows issued F) (hG : Sound rows issued G)
    (hbeside : Beside F G) (hfresh : ∀ e ∈ inserted id G.writes, e ∉ issued) :
    Sound (applyWrites id rows G.writes) (inserted id G.writes ++ issued) F := by
  refine ⟨fun x hx => (hF.seen x hx).commit hF hG hbeside hfresh, hF.validated, ?_, hF.touched,
    hF.promoted, ?_, hF.once, hF.apart, hF.rebound⟩
  · intro pin hpin
    obtain ⟨hmem, hguard, e, hlink⟩ := hF.pinned pin hpin
    refine ⟨mem_applyWrites_of_untouched hmem (isLinkOf_visible hlink) fun w hw => ?_, hguard,
      e, hlink⟩
    rw [Bool.eq_false_iff]
    intro htouch
    exact hbeside.not_both_guards hlink hguard (hG.touched w hw _ htouch)
  · intro w hw p hp
    obtain ⟨hkey, hremoved⟩ := hF.claimed w hw p hp
    refine ⟨hkey, fun row hrow hvisible hplace => ?_⟩
    obtain ⟨hold, -⟩ | ⟨w', hw', -, hclaim⟩ | ⟨pin, hpin, hpin_place, hlink, hguard, -⟩ :=
      hG.binds hrow hvisible
    · exact hremoved row hold hvisible hplace
    · have hkey' := (hG.claimed w' hw' _ hclaim).1
      rw [hplace] at hkey'
      exact (hbeside.not_both_keys hkey hkey').elim
    · obtain ⟨w', hw', htouch⟩ :=
        hremoved pin hpin (isLinkOf_visible hlink) (hpin_place.trans hplace)
      exact (hbeside.not_both_guards hlink (hF.touched w' hw' _ htouch) hguard).elim

lemma Sound.entry_eq (h : Sound rows issued G) (hone : OnePerName rows) {x y : Row}
    (hx : x ∈ applyWrites id rows G.writes) (hy : y ∈ applyWrites id rows G.writes)
    (hx_visible : x.visible = true) (hy_visible : y.visible = true)
    (hplace : x.place = y.place) : x.entry = y.entry := by
  have hnot : ∀ {u v : Row}, u ∈ rows → ¬ G.Removes u.entry → u.visible = true →
      u.place = v.place → v ∈ applyWrites id rows G.writes → v.visible = true → v ∈ rows := by
    intro u v hu hkept hu_visible huv hv hv_visible
    obtain ⟨hold, -⟩ | ⟨w, hw, -, hclaim⟩ | ⟨pin, hpin, hpin_place, hlink, -, hw⟩ :=
      h.binds hv hv_visible
    · exact hold
    · exact absurd ((h.claimed w hw _ hclaim).2 u hu hu_visible huv) hkept
    · have hsame := hone u hu pin hpin hu_visible (isLinkOf_visible hlink)
        (huv.trans hpin_place.symm)
      rw [hsame] at hkept
      exact absurd ⟨_, hw, by simp [Write.touches]⟩ hkept
  obtain ⟨hx_old, hx_kept⟩ | hx_fill := h.binds hx hx_visible
  · have hy_old := hnot hx_old hx_kept hx_visible hplace hy hy_visible
    rw [hone x hx_old y hy_old hx_visible hy_visible hplace]
  · obtain ⟨hy_old, hy_kept⟩ | hy_fill := h.binds hy hy_visible
    · have hx_old := hnot hy_old hy_kept hy_visible hplace.symm hx hx_visible
      rw [hone x hx_old y hy_old hx_visible hy_visible hplace]
    · obtain ⟨w, hw, hfill, hclaim⟩ | ⟨pin, hpin, hpin_place, hlink, -, hw⟩ := hx_fill
      · obtain ⟨w', hw', hfill', hclaim'⟩ | ⟨pin', -, -, -, -, hw'⟩ := hy_fill
        · have hsame := h.once w hw w' hw' (by simp [hclaim]) (by simp [hclaim'])
          rw [hsame, hfill'] at hfill
          exact (Prod.mk.inj (Option.some.inj hfill)).1.symm
        · rw [← hplace] at hw'
          exact absurd hw' (h.apart w hw _ hclaim _ _)
      · obtain ⟨w', hw', -, hclaim'⟩ | ⟨pin', hpin', hpin_place', hlink', -, -⟩ := hy_fill
        · rw [hplace] at hw
          exact absurd hw (h.apart w' hw' _ hclaim' _ _)
        · have hsame := hone pin hpin pin' hpin' (isLinkOf_visible hlink)
            (isLinkOf_visible hlink') (by rw [hpin_place, hpin_place', hplace])
          rw [hsame] at hlink
          exact eq_of_isLinkOf hlink hlink'

end Commit

structure Inv (s : State) : Prop where
  one : OnePerName s.rows
  keys : (s.rows.map Row.entry).Nodup
  issued : ∀ row ∈ s.rows, row.entry ∈ s.issued
  exclusive : LockPool.Exclusive Tx.locks Lock.conflicts s.txs
  txs : ∀ tx ∈ s.txs, tx.Disciplined ∧ Sound s.rows s.issued tx.facts

lemma ended_ok (rows : List Row) (issued : List Entry) :
    Tx.ended.Disciplined ∧ Sound rows issued Tx.ended.facts :=
  ⟨.done, .empty rows issued⟩

lemma txs_set {txs : List Tx} {t : Nat} {tx : Tx}
    (h : ∀ tx ∈ txs, tx.Disciplined ∧ Sound rows issued tx.facts)
    (htx : tx.Disciplined ∧ Sound rows issued tx.facts) :
    ∀ tx' ∈ txs.set t tx, tx'.Disciplined ∧ Sound rows issued tx'.facts := by
  intro tx' htx'
  obtain hold | rfl := List.mem_or_eq_of_mem_set htx'
  · exact h tx' hold
  · exact htx

lemma Inv.start {s : State} (h : Inv s) (request : Request) :
    Inv { s with txs := s.txs ++ [⟨{}, request.program⟩] } := by
  refine ⟨h.one, h.keys, h.issued, h.exclusive.append Lock.conflicts_comm rfl, ?_⟩
  intro tx htx
  obtain hold | hnew := List.mem_append.mp htx
  · exact h.txs tx hold
  · rw [List.mem_singleton.mp hnew]
    exact ⟨program_safe request, .empty _ _⟩

lemma Inv.finish {s : State} (h : Inv s) {t : Nat} (ht : t < s.txs.length) :
    Inv { s with txs := s.txs.set t .ended } := by
  refine ⟨h.one, h.keys, h.issued, ?_, txs_set h.txs (ended_ok _ _)⟩
  refine h.exclusive.set_of_subset Lock.conflicts_comm (List.getElem?_eq_getElem ht) ?_
  intro l hl
  cases hl

lemma Gain.locks {F F' : Facts} (h : Gain rows F F') : F'.locks = F.locks := by
  cases h <;> rfl

lemma Inv.exec {s : State} (h : Inv s) {t : Nat} {choice : Bool} {stmt : Stmt}
    {rest : List Stmt} {tx : Tx} (ht : s.txs[t]? = some ⟨F, stmt :: rest⟩)
    (hexec : s.exec t choice F rest stmt = some tx) :
    Inv { s with txs := s.txs.set t tx } := by
  obtain ⟨hsafe, hsound⟩ := h.txs _ (List.mem_of_getElem? ht)
  obtain rfl | ⟨hdisciplined, F', locks, hgain, hfree, hfacts⟩ := exec_advances hsafe hexec
  · obtain ⟨hlt, -⟩ := List.getElem?_eq_some_iff.mp ht
    exact h.finish hlt
  · refine ⟨h.one, h.keys, h.issued, ?_, txs_set h.txs ⟨hdisciplined, ?_⟩⟩
    · refine h.exclusive.set Lock.conflicts_comm ht hfree ?_
      intro l hl
      simp only [Tx.locks, hfacts, Facts.hold, hgain.locks] at hl
      exact List.mem_append.mp hl
    · rw [hfacts]
      exact (hsound.gain h.one h.keys h.issued hgain).hold locks

lemma Inv.commit {s s' : State} (h : Inv s) {t id : Nat} {tx : Tx}
    (ht : s.txs[t]? = some tx) (hcommit : s.commit t id tx = some s') : Inv s' := by
  obtain ⟨⟨hnew, hfresh, -⟩, rfl⟩ := commit_eq_some hcommit
  obtain ⟨-, hsound⟩ := h.txs tx (List.mem_of_getElem? ht)
  have hkeys := nodup_entries_applyWrites h.keys h.issued hnew hfresh
  refine ⟨?_, hkeys, issued_applyWrites h.issued, ?_, ?_⟩
  · intro x hx y hy hx_visible hy_visible hplace
    exact List.inj_on_of_nodup_map hkeys hx hy
      (hsound.entry_eq h.one hx hy hx_visible hy_visible hplace)
  · refine h.exclusive.set_of_subset Lock.conflicts_comm ht ?_
    intro l hl
    cases hl
  · intro other hother
    obtain ⟨i, hi⟩ := List.mem_iff_getElem?.mp hother
    obtain ⟨-, rfl⟩ | ⟨hne, hi⟩ := LockPool.getElem?_set_cases hi
    · exact ended_ok _ _
    · obtain ⟨hdisciplined, hother_sound⟩ := h.txs other (List.mem_of_getElem? hi)
      exact ⟨hdisciplined,
        hother_sound.commit hsound (h.exclusive i t other tx hne hi ht) hfresh⟩

lemma Inv.step {s s' : State} {a : Action} (h : Inv s) (hstep : step s a = some s') : Inv s' := by
  obtain ⟨request, rfl⟩ | ⟨t, choice, F, stmt, rest, tx, ht, hexec, rfl⟩ |
    ⟨t, id, tx, -, ht, hcommit⟩ | ⟨t, hlt, rfl⟩ := step_cases hstep
  · exact h.start request
  · exact h.exec ht hexec
  · exact h.commit ht hcommit
  · exact h.finish hlt

theorem one_visible_entry_per_name (rows : List Row) (hone : OnePerName rows)
    (hkeys : (rows.map Row.entry).Nodup) (trace : List Action) (s : State)
    (hrun : GuardedRun.run step (init rows) trace = some s) : OnePerName s.rows := by
  have hinit : Inv (init rows) := by
    refine ⟨hone, hkeys, fun row hrow => List.mem_map_of_mem hrow, ?_, ?_⟩
    · intro i j x y _ hx
      simp [init] at hx
    · intro tx htx
      cases htx
  have hinv : Inv s :=
    GuardedRun.run_invariant_of_step (fun _ _ _ h hstep => Inv.step h hstep) hinit hrun
  exact hinv.one

def linkedFile : List Row :=
  [⟨.directory 1, ⟨none, "/"⟩, false⟩, ⟨.directory 2, ⟨none, "d"⟩, false⟩,
    ⟨.file 3, ⟨none, "f"⟩, false⟩, ⟨.hardlink 4 3, ⟨some 2, "h"⟩, false⟩]

def unlinkDuringCreate : List Action :=
  [.start (.unlinkFile 3 "seed" ".hidden" ⟨none, "f"⟩ superuser),
    .start (.createFile "other" ⟨none, "f"⟩ superuser), .exec 1 false] ++
    List.replicate 11 (.exec 0 false) ++ [.commit 0 5] ++
    List.replicate 4 (.exec 1 false) ++ [.commit 1 6]

theorem one_visible_entry_per_name_unlinkDuringCreate :
    ∃ s, GuardedRun.run step (init linkedFile) unlinkDuringCreate = some s ∧
      OnePerName linkedFile ∧ (linkedFile.map Row.entry).Nodup ∧ OnePerName s.rows := by
  refine ⟨_, rfl, by decide, by decide, ?_⟩
  exact one_visible_entry_per_name linkedFile (by decide) (by decide) unlinkDuringCreate _ rfl

end Fod.Namespace
