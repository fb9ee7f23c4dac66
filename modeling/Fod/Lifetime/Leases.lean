import Fod.Lifetime.Model

/-!
# Open leases and links

A check that found no open lease stays true: what has expired is not renewed, except
by the heartbeat of an expired session.  A change of one file leaves the rows, the
links and the leases of the others.
-/

namespace Fod.Lifetime

section Leases

variable {t t' : Tables} {now now' f : Nat}

lemma hasOpenLease_iff : t.hasOpenLease now f = true ↔
    ∃ key lease, t.leases.lookup key = some lease ∧ t.Counts now f key lease := by
  simp only [Tables.hasOpenLease, List.any_eq_true, decide_eq_true_eq, Table.lookup_eq_some]
  constructor
  · rintro ⟨⟨key, lease⟩, hrow, hcounts⟩
    exact ⟨key, lease, hrow, hcounts⟩
  · rintro ⟨key, lease, hrow, hcounts⟩
    exact ⟨⟨key, lease⟩, hrow, hcounts⟩

lemma live_eq_true {session : Nat} : t.live now session = true ↔
    ∃ expiresAt, t.sessions.lookup session = some expiresAt ∧ now < expiresAt := by
  cases h : t.sessions.lookup session <;> simp [Tables.live, h]

lemma hasOpenLease_mono
    (h : ∀ key lease, t'.leases.lookup key = some lease → t'.Counts now' f key lease →
      ∃ before, t.leases.lookup key = some before ∧ t.Counts now f key before)
    (hopen : t'.hasOpenLease now' f = true) : t.hasOpenLease now f = true := by
  obtain ⟨key, lease, hrow, hcounts⟩ := hasOpenLease_iff.mp hopen
  obtain ⟨before, hbefore, hcounts'⟩ := h key lease hrow hcounts
  exact hasOpenLease_iff.mpr ⟨key, before, hbefore, hcounts'⟩

lemma hasOpenLease_tick {seconds : Nat} (h : t.hasOpenLease (now + seconds) f = true) :
    t.hasOpenLease now f = true := by
  refine hasOpenLease_mono (fun key lease hrow hcounts => ⟨lease, hrow, hcounts.1, ?_, ?_⟩) h
  · have := hcounts.2.1
    omega
  · obtain ⟨expiresAt, hsession, hlt⟩ := live_eq_true.mp hcounts.2.2
    exact live_eq_true.mpr ⟨expiresAt, hsession, by omega⟩

lemma hasOpenLease_release {key : Nat × Nat}
    (h : Tables.hasOpenLease { t with leases := t.leases.erase key } now f = true) :
    t.hasOpenLease now f = true := by
  refine hasOpenLease_mono (fun key' lease hrow hcounts => ?_) h
  exact ⟨lease, (Table.lookup_erase_cases hrow).2, hcounts⟩

lemma hasOpenLease_heartbeat {session ttl : Nat}
    (h : (heartbeatFileOpenLeases t now session ttl).hasOpenLease now f = true) :
    t.hasOpenLease now f = true := by
  refine hasOpenLease_mono (fun key lease hrow hcounts => ?_) h
  change AList.lookup key (t.leases.adjust _) = some lease at hrow
  rw [Table.lookup_adjust] at hrow
  obtain ⟨before, hbefore, rfl⟩ := Option.map_eq_some_iff.mp hrow
  refine ⟨before, hbefore, ?_⟩
  -- the heartbeat renews what has not expired
  split at hcounts
  next hrenewed => exact ⟨hcounts.1, hrenewed.2, hcounts.2.2⟩
  next => exact hcounts

lemma live_prune {session : Nat} (h : (pruneExpiredClientSessions t now).live now session = true) :
    t.live now session = true := by
  obtain ⟨expiresAt, hsession, hlt⟩ := live_eq_true.mp h
  change AList.lookup session (t.sessions.keep _) = some expiresAt at hsession
  rw [Table.lookup_keep] at hsession
  exact live_eq_true.mpr ⟨expiresAt, (Option.filter_eq_some_iff.mp hsession).1, hlt⟩

lemma hasOpenLease_prune (h : (pruneExpiredClientSessions t now).hasOpenLease now f = true) :
    t.hasOpenLease now f = true := by
  refine hasOpenLease_mono (fun key lease hrow hcounts => ?_) h
  change AList.lookup key (t.leases.keep _) = some lease at hrow
  rw [Table.lookup_keep] at hrow
  exact ⟨lease, (Option.filter_eq_some_iff.mp hrow).1, hcounts.1, hcounts.2.1, live_prune hcounts.2.2⟩

lemma hasOpenLease_setSession {session expiresAt : Nat}
    (h : Tables.hasOpenLease { t with sessions := t.sessions.insert session expiresAt } now f = true) :
    t.hasOpenLease now f = true ∨
      ∃ key lease, t.leases.lookup key = some lease ∧ key.1 = session ∧ lease.file = f ∧
        now < lease.expiresAt := by
  obtain ⟨key, lease, hrow, hfile, hlease, hlive⟩ := hasOpenLease_iff.mp h
  by_cases hkey : key.1 = session
  · exact .inr ⟨key, lease, hrow, hkey, hfile, hlease⟩
  · refine .inl (hasOpenLease_iff.mpr ⟨key, lease, hrow, hfile, hlease, ?_⟩)
    obtain ⟨expires, hsession, hlt⟩ := live_eq_true.mp hlive
    rcases Table.lookup_insert_cases hsession with ⟨heq, -⟩ | ⟨-, hsession⟩
    · exact absurd heq hkey
    · exact live_eq_true.mpr ⟨expires, hsession, hlt⟩

end Leases

section Changes

variable {t : Tables} {now f g : Nat}

lemma mem_linksOf {id : Nat} :
    id ∈ t.linksOf f ↔ ∃ link, t.hardlinks.lookup id = some link ∧ link.file = f := by
  simp [Tables.linksOf, Table.mem_keysWith]

lemma linksOf_eq_nil_iff :
    t.linksOf f = [] ↔ ∀ id link, t.hardlinks.lookup id = some link → link.file ≠ f := by
  rw [List.eq_nil_iff_forall_not_mem]
  simp [mem_linksOf]

lemma visible_eq_true :
    t.visible f = true ↔ ∃ row, t.files.lookup f = some row ∧ row.unlinked = false := by
  cases h : t.files.lookup f <;> simp [Tables.visible, h]

lemma promote_cases (t : Tables) (f id : Nat) :
    (Change.promote id).apply t f = t ∨
      ∃ (link : Hardlink) (file : FileRow), t.files.lookup f = some file ∧
        (Change.promote id).apply t f =
          { t with
            files := t.files.insert f { file with name := link.name }
            hardlinks := t.hardlinks.erase id } := by
  simp only [Change.apply]
  split
  next link file _ hfile => exact .inr ⟨link, file, hfile, rfl⟩
  next => exact .inl rfl

lemma lookup_files_apply (change : Change) (hne : g ≠ f) :
    (change.apply t f).files.lookup g = t.files.lookup g := by
  cases change with
  | grant | link | dropLink => rfl
  | promote id =>
    rcases promote_cases t f id with hsame | ⟨link, file, -, hsame⟩
    · rw [hsame]
    · rw [hsame]
      exact AList.lookup_insert_ne hne
  | hide =>
    change AList.lookup g (t.files.adjust _) = _
    rw [Table.lookup_adjust]
    have hbeq : (g == f) = false := beq_eq_false_iff_ne.mpr hne
    cases t.files.lookup g <;> simp [hbeq]
  | delete => exact AList.lookup_erase_ne hne

lemma linksOf_apply (change : Change) (h : t.linksOf g = [])
    (hlink : ∀ name, change = .link name → g ≠ f) : (change.apply t f).linksOf g = [] := by
  rw [linksOf_eq_nil_iff] at h ⊢
  intro id link hlookup
  cases change with
  | grant | hide => exact h id link hlookup
  | link name =>
    exact Table.forall_insert (P := fun _ link => link.file ≠ g) (hlink name rfl).symm h id link hlookup
  | dropLink dropped => exact h id link (Table.lookup_erase_cases hlookup).2
  | promote promoted =>
    rcases promote_cases t f promoted with hsame | ⟨_, _, -, hsame⟩
    · exact h id link (hsame ▸ hlookup)
    · rw [hsame] at hlookup
      exact h id link (Table.lookup_erase_cases hlookup).2
  | delete =>
    change AList.lookup id (t.hardlinks.keep _) = some link at hlookup
    rw [Table.lookup_keep] at hlookup
    exact h id link (Option.filter_eq_some_iff.mp hlookup).1

lemma sessions_apply (change : Change) : (change.apply t f).sessions = t.sessions := by
  cases change with
  | promote id =>
    rcases promote_cases t f id with hsame | ⟨_, _, -, hsame⟩ <;> rw [hsame]
  | grant | link | dropLink | hide | delete => rfl

lemma hasOpenLease_apply (change : Change) (hne : g ≠ f)
    (h : (change.apply t f).hasOpenLease now g = true) : t.hasOpenLease now g = true := by
  refine hasOpenLease_mono (fun key lease hrow hcounts => ⟨lease, ?_, hcounts.1, hcounts.2.1, ?_⟩) h
  · cases change with
    | grant session handle expiresAt =>
      rcases Table.lookup_insert_cases hrow with ⟨-, rfl⟩ | ⟨-, hold⟩
      · exact absurd hcounts.1.symm hne
      · exact hold
    | delete =>
      change AList.lookup key (t.leases.keep _) = some lease at hrow
      rw [Table.lookup_keep] at hrow
      exact (Option.filter_eq_some_iff.mp hrow).1
    | promote id =>
      rcases promote_cases t f id with hsame | ⟨_, _, -, hsame⟩
      · exact hsame ▸ hrow
      · rwa [hsame] at hrow
    | link | dropLink | hide => exact hrow
  · have hlive := hcounts.2.2
    rwa [Tables.live, sessions_apply] at hlive

lemma visible_apply (change : Change) (h : (change.apply t f).visible g = true) :
    t.visible g = true := by
  obtain ⟨row, hrow, hvisible⟩ := visible_eq_true.mp h
  rw [visible_eq_true]
  by_cases hne : g = f
  · subst hne
    cases change with
    | grant | link | dropLink => exact ⟨row, hrow, hvisible⟩
    | promote id =>
      rcases promote_cases t g id with hsame | ⟨link, file, hfile, hsame⟩
      · exact ⟨row, hsame ▸ hrow, hvisible⟩
      · rw [hsame] at hrow
        change AList.lookup g (AList.insert g _ t.files) = some row at hrow
        rw [AList.lookup_insert] at hrow
        cases hrow
        exact ⟨file, hfile, hvisible⟩
    | hide =>
      change AList.lookup g (t.files.adjust _) = some row at hrow
      rw [Table.lookup_adjust] at hrow
      obtain ⟨before, hbefore, rfl⟩ := Option.map_eq_some_iff.mp hrow
      simp at hvisible
    | delete =>
      change AList.lookup g (t.files.erase g) = some row at hrow
      rw [AList.lookup_erase] at hrow
      cases hrow
  · rw [lookup_files_apply change hne] at hrow
    exact ⟨row, hrow, hvisible⟩

end Changes

end Fod.Lifetime
