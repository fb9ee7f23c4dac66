import Fod.Namespace.Discipline

/-!
# What a commit leaves behind

The rows after a commit, seen from the rows before it: a visible row is an old
one that no write touched, or it stands where a write has put it.
-/

namespace Fod.Namespace

variable {row : Row} {rows : List Row} {id : Nat} {writes : List Write}

lemma visible_of_not_file (h : ∀ f, row.entry ≠ .file f) : row.visible = true := by
  unfold Row.visible
  split
  · rename_i f hf
    exact absurd hf (h f)
  · rfl

lemma mem_rebound {e : Entry} {p : Place}
    (h : row ∈ rows.map fun old => if old.entry = e then { old with place := p } else old) :
    (row ∈ rows ∧ row.entry ≠ e) ∨ (row.entry = e ∧ row.place = p) := by
  obtain ⟨old, hold, rfl⟩ := List.mem_map.mp h
  split
  · rename_i he
    exact .inr ⟨he, rfl⟩
  · rename_i he
    exact .inl ⟨hold, he⟩

lemma Write.mem_apply {w : Write} (h : row ∈ w.apply id rows) (hvisible : row.visible = true) :
    (row ∈ rows ∧ w.touches row.entry = false) ∨ w.fill id = some (row.entry, row.place) := by
  cases w with
  | insert new p =>
    obtain hold | hnew := List.mem_append.mp h
    · exact .inl ⟨hold, rfl⟩
    · rw [List.mem_singleton.mp hnew]
      exact .inr rfl
  | rebind e p =>
    obtain ⟨hold, hne⟩ | ⟨rfl, rfl⟩ := mem_rebound h
    · exact .inl ⟨hold, by simpa [Write.touches] using hne⟩
    · exact .inr rfl
  | promote e link p =>
    obtain ⟨hmem, hlink⟩ := List.mem_filter.mp h
    obtain ⟨hold, hne⟩ | ⟨rfl, rfl⟩ := mem_rebound hmem
    · exact .inl ⟨hold, by simpa [Write.touches, hne] using hlink⟩
    · exact .inr rfl
  | hide f name =>
    obtain ⟨old, hold, rfl⟩ := List.mem_map.mp h
    split at hvisible
    · rename_i hfile
      simp [Row.visible, hfile.1] at hvisible
    · rename_i hfile
      rw [if_neg hfile]
      refine .inl ⟨hold, ?_⟩
      simp only [Write.touches, beq_eq_false_iff_ne]
      exact fun he => hfile ⟨he, hvisible⟩
  | detach d =>
    obtain ⟨old, hold, rfl⟩ := List.mem_map.mp h
    split at hvisible
    · rename_i hhidden
      simp only [Bool.and_eq_true, Bool.not_eq_true'] at hhidden
      simp only [Row.visible] at hhidden hvisible
      simp [hvisible] at hhidden
    · rename_i hhidden
      rw [if_neg hhidden]
      exact .inl ⟨hold, rfl⟩
  | delete e =>
    obtain ⟨hold, hkeep⟩ := List.mem_filter.mp h
    refine .inl ⟨hold, ?_⟩
    cases e <;> simpa [Write.touches] using hkeep

lemma Write.mem_apply_of_untouched {w : Write}
    (h : row ∈ rows) (hvisible : row.visible = true) (huntouched : w.touches row.entry = false) :
    row ∈ w.apply id rows := by
  have hsame : ∀ {g : Row → Row}, g row = row → row ∈ rows.map g :=
    fun hg => List.mem_map.mpr ⟨row, h, hg⟩
  cases w with
  | insert new p => exact List.mem_append_left _ h
  | rebind e p =>
    have hne : row.entry ≠ e := by simpa [Write.touches] using huntouched
    exact hsame (if_neg hne)
  | promote e link p =>
    have hne : row.entry ≠ e ∧ row.entry ≠ link := by simpa [Write.touches] using huntouched
    exact List.mem_filter.mpr ⟨hsame (if_neg hne.1), by simpa using hne.2⟩
  | hide f name =>
    have hne : row.entry ≠ .file f := by simpa [Write.touches] using huntouched
    exact hsame (if_neg fun hfile => hne hfile.1)
  | detach d =>
    refine hsame (if_neg ?_)
    simp [hvisible]
  | delete e =>
    refine List.mem_filter.mpr ⟨h, ?_⟩
    cases e <;> simpa [Write.touches] using huntouched

lemma Write.entries_sublist (id : Nat) (rows : List Row) (w : Write) :
    ((w.apply id rows).map Row.entry).Sublist (rows.map Row.entry ++ (w.inserted id).toList) := by
  have hmap : ∀ g : Row → Row, (∀ row, (g row).entry = row.entry) →
      (rows.map g).map Row.entry = rows.map Row.entry := by
    intro g hg
    simp [Function.comp_def, hg]
  cases w with
  | insert new p => simp [Write.apply, Write.inserted]
  | rebind e p =>
    simp only [Write.apply, Write.inserted, Option.toList_none, List.append_nil]
    rw [hmap _ fun row => by split <;> rfl]
  | promote e link p =>
    simp only [Write.apply, Write.inserted, Option.toList_none, List.append_nil]
    rw [← hmap (fun row => if row.entry = e then { row with place := p } else row)
      fun row => by split <;> rfl]
    exact List.filter_sublist.map _
  | hide f name =>
    simp only [Write.apply, Write.inserted, Option.toList_none, List.append_nil]
    rw [hmap _ fun row => by split <;> rfl]
  | detach d =>
    simp only [Write.apply, Write.inserted, Option.toList_none, List.append_nil]
    rw [hmap _ fun row => by split <;> rfl]
  | delete e =>
    simp only [Write.apply, Write.inserted, Option.toList_none, List.append_nil]
    exact List.filter_sublist.map _

lemma applyWrites_append_singleton (id : Nat) (rows : List Row) (writes : List Write)
    (w : Write) : applyWrites id rows (writes ++ [w]) = w.apply id (applyWrites id rows writes) :=
  List.foldl_concat _ _ _ _

lemma mem_applyWrites (h : row ∈ applyWrites id rows writes) (hvisible : row.visible = true) :
    (row ∈ rows ∧ ∀ w ∈ writes, w.touches row.entry = false) ∨
      ∃ w ∈ writes, w.fill id = some (row.entry, row.place) := by
  induction writes using List.reverseRecOn with
  | nil => exact .inl ⟨h, by simp⟩
  | append_singleton writes w ih =>
    rw [applyWrites_append_singleton] at h
    obtain ⟨hbefore, huntouched⟩ | hfill := Write.mem_apply h hvisible
    · obtain ⟨hold, hothers⟩ | ⟨w', hw', hfill⟩ := ih hbefore
      · refine .inl ⟨hold, fun w' hw' => ?_⟩
        obtain hw' | hw' := List.mem_append.mp hw'
        · exact hothers w' hw'
        · rw [List.mem_singleton.mp hw']
          exact huntouched
      · exact .inr ⟨w', List.mem_append_left _ hw', hfill⟩
    · exact .inr ⟨w, List.mem_append_right _ (List.mem_singleton_self w), hfill⟩

lemma mem_applyWrites_of_untouched (h : row ∈ rows) (hvisible : row.visible = true)
    (huntouched : ∀ w ∈ writes, w.touches row.entry = false) :
    row ∈ applyWrites id rows writes := by
  induction writes generalizing rows with
  | nil => exact h
  | cons w writes ih =>
    have hnext : row ∈ w.apply id rows :=
      Write.mem_apply_of_untouched h hvisible (huntouched w List.mem_cons_self)
    exact ih hnext fun w' hw' => huntouched w' (List.mem_cons_of_mem _ hw')

lemma entries_applyWrites_sublist (id : Nat) (rows : List Row) (writes : List Write) :
    ((applyWrites id rows writes).map Row.entry).Sublist
      (rows.map Row.entry ++ inserted id writes) := by
  induction writes generalizing rows with
  | nil => simp [applyWrites, inserted]
  | cons w writes ih =>
    have hrest := ih (w.apply id rows)
    have hfirst := (Write.entries_sublist id rows w).append_right (inserted id writes)
    have hsplit : inserted id (w :: writes) = (w.inserted id).toList ++ inserted id writes := by
      cases hw : w.inserted id <;> simp [inserted, hw]
    rw [hsplit, ← List.append_assoc]
    exact hrest.trans hfirst

lemma entry_of_mem_applyWrites (h : row ∈ applyWrites id rows writes) :
    (∃ old ∈ rows, old.entry = row.entry) ∨ row.entry ∈ inserted id writes := by
  have hentry := (entries_applyWrites_sublist id rows writes).subset (List.mem_map_of_mem h)
  obtain hold | hnew := List.mem_append.mp hentry
  · exact .inl (List.mem_map.mp hold)
  · exact .inr hnew

lemma nodup_entries_applyWrites {issued : List Entry} (hkeys : (rows.map Row.entry).Nodup)
    (hissued : ∀ row ∈ rows, row.entry ∈ issued) (hnew : (inserted id writes).Nodup)
    (hfresh : ∀ e ∈ inserted id writes, e ∉ issued) :
    ((applyWrites id rows writes).map Row.entry).Nodup := by
  refine (entries_applyWrites_sublist id rows writes).nodup ?_
  refine List.nodup_append.mpr ⟨hkeys, hnew, ?_⟩
  intro e he e' he' heq
  obtain ⟨row, hrow, rfl⟩ := List.mem_map.mp he
  exact hfresh e' he' (heq ▸ hissued row hrow)

lemma issued_applyWrites {issued : List Entry} (hissued : ∀ row ∈ rows, row.entry ∈ issued) :
    ∀ row ∈ applyWrites id rows writes, row.entry ∈ inserted id writes ++ issued := by
  intro row hrow
  obtain ⟨old, hold, hentry⟩ | hnew := entry_of_mem_applyWrites hrow
  · exact List.mem_append_right _ (hentry ▸ hissued old hold)
  · exact List.mem_append_left _ hnew

lemma commit_eq_some {s s' : State} {t id : Nat} {tx : Tx} (h : s.commit t id tx = some s') :
    ((inserted id tx.facts.writes).Nodup ∧ (∀ e ∈ inserted id tx.facts.writes, e ∉ s.issued) ∧
      References (applyWrites id s.rows tx.facts.writes)) ∧
    s' = ⟨applyWrites id s.rows tx.facts.writes, s.txs.set t .ended,
      inserted id tx.facts.writes ++ s.issued⟩ := by
  simp only [State.commit] at h
  split at h
  · rename_i hguard
    exact ⟨hguard.2, (Option.some.inj h).symm⟩
  · cases h

lemma step_cases {s s' : State} {a : Action} (h : step s a = some s') :
    (∃ request, s' = { s with txs := s.txs ++ [⟨{}, Request.program request⟩] }) ∨
    (∃ t choice F stmt rest tx, s.txs[t]? = some ⟨F, stmt :: rest⟩ ∧
      s.exec t choice F rest stmt = some tx ∧ s' = { s with txs := s.txs.set t tx }) ∨
    (∃ t id tx, a = .commit t id ∧ s.txs[t]? = some tx ∧ s.commit t id tx = some s') ∨
    ∃ t, t < s.txs.length ∧ s' = { s with txs := s.txs.set t .ended } := by
  cases a with
  | start request => exact .inl ⟨request, (Option.some.inj h).symm⟩
  | exec t choice =>
    simp only [step] at h
    split at h
    · rename_i F stmt rest ht
      obtain ⟨tx, hexec, rfl⟩ := Option.map_eq_some_iff.mp h
      exact .inr (.inl ⟨t, choice, F, stmt, rest, tx, ht, hexec, rfl⟩)
    · cases h
  | commit t id =>
    obtain ⟨tx, ht, hcommit⟩ := Option.bind_eq_some_iff.mp h
    exact .inr (.inr (.inl ⟨t, id, tx, rfl, ht, hcommit⟩))
  | rollback t =>
    simp only [step] at h
    split at h
    · rename_i hlt
      exact .inr (.inr (.inr ⟨t, hlt, (Option.some.inj h).symm⟩))
    · cases h

end Fod.Namespace
