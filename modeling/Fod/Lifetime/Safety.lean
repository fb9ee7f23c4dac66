import Fod.Lifetime.Stages

/-!
# No file is deleted while it has a name or is open

Every deletion of a row of `files` and every grant of a lease happens in the commit of
a transaction that is ready for it, and then the stage of that transaction says that it
is lawful.
-/

namespace Fod.Lifetime

section Steps

variable {s s' : State} {t : Tables}

/-! ## Deletions and grants -/

def Grants (s : State) (a : Action) (key : Nat × Nat) (f : Nat) : Prop :=
  ∃ id tx expiresAt, a = .commit id ∧ s.txs.lookup id = some tx ∧ tx.request.file = f ∧
    tx.stage = .ready (.grant key.1 key.2 expiresAt)

/-- A file goes by the commit of a transaction on it, when it has no name but one that the
transaction was to remove and no open lease.  A lease is granted on a visible file. -/
structure Lawful (s : State) (a : Action) (s' : State) : Prop where
  deleted : ∀ f row, s.tables.files.lookup f = some row → s'.tables.files.lookup f = none →
    (∃ id tx, a = .commit id ∧ s.txs.lookup id = some tx ∧ tx.request.file = f ∧
      (row.unlinked = true ∨ tx.request.removes row.name = true)) ∧
    s.tables.linksOf f = [] ∧ s.tables.hasOpenLease s.clock f = false
  leased : ∀ key lease, s'.tables.leases.lookup key = some lease →
    (∃ before, s.tables.leases.lookup key = some before ∧ before.file = lease.file) ∨
      Grants s a key lease.file
  granted : ∀ key f, Grants s a key f → s.tables.visible f = true

lemma step_cases {a : Action} (hstep : step s a = some s') :
    (∃ id tx change, a = .commit id ∧ s.txs.lookup id = some tx ∧ tx.stage = .ready change ∧
      s'.tables = change.apply s.tables tx.request.file) ∨ (s'.tables.files = s.tables.files ∧
      ∀ key lease, s'.tables.leases.lookup key = some lease →
        ∃ before, s.tables.leases.lookup key = some before ∧ before.file = lease.file) := by
  have hstart : ∀ {s₀ : State} {id request}, Lifetime.start s₀ id request = some s' →
      s'.tables = s₀.tables := by
    intro s₀ id request h
    unfold Lifetime.start at h
    split at h
    · cases h
      rfl
    · cases h
  have hsame : s'.tables = s.tables → s'.tables.files = s.tables.files ∧
      ∀ key lease, s'.tables.leases.lookup key = some lease →
        ∃ before, s.tables.leases.lookup key = some before ∧ before.file = lease.file := by
    intro heq
    rw [heq]
    exact ⟨rfl, fun key lease hrow => ⟨lease, hrow, rfl⟩⟩
  cases a with
  | start id request => exact .inr (hsame (hstart hstep))
  | exec id =>
    obtain ⟨tx, htx, hstep⟩ := Option.bind_eq_some_iff.mp hstep
    split at hstep
    · cases hstep
    · split at hstep <;> obtain rfl := Option.some.inj hstep <;> exact .inr (hsame rfl)
  | commit id =>
    obtain ⟨tx, htx, hstep⟩ := Option.bind_eq_some_iff.mp hstep
    split at hstep
    next change hchange =>
      cases hstep
      exact .inl ⟨id, tx, change, rfl, htx, hchange, rfl⟩
    · cases hstep
  | rollback id =>
    obtain ⟨tx, htx, hstep⟩ := Option.bind_eq_some_iff.mp hstep
    cases hstep
    exact .inr (hsame rfl)
  | releaseFileOpenLease session handle =>
    cases hstep
    exact .inr ⟨rfl, fun key lease hrow => ⟨lease, (Table.lookup_erase_cases hrow).2, rfl⟩⟩
  | heartbeatFileOpenLeases session ttl =>
    simp only [Lifetime.step, Option.ite_none_right_eq_some, Option.some.injEq] at hstep
    obtain ⟨-, rfl⟩ := hstep
    refine .inr ⟨rfl, fun key lease hrow => ?_⟩
    change AList.lookup key (s.tables.leases.adjust _) = some lease at hrow
    rw [Table.lookup_adjust] at hrow
    obtain ⟨before, hbefore, rfl⟩ := Option.map_eq_some_iff.mp hrow
    refine ⟨before, hbefore, ?_⟩
    split <;> rfl
  | registerClientSession session ttl =>
    simp only [Lifetime.step, Option.ite_none_right_eq_some, Option.some.injEq] at hstep
    obtain ⟨-, rfl⟩ := hstep
    exact .inr ⟨rfl, fun key lease hrow => ⟨lease, hrow, rfl⟩⟩
  | heartbeatClientSession session ttl =>
    simp only [Lifetime.step] at hstep
    split at hstep <;> obtain rfl := Option.some.inj hstep <;>
      exact .inr ⟨rfl, fun key lease hrow => ⟨lease, hrow, rfl⟩⟩
  | pruneExpiredClientSessions =>
    simp only [Lifetime.step] at hstep
    split at hstep
    · cases hstep
    · cases hstep
      refine .inr ⟨rfl, fun key lease hrow => ?_⟩
      change AList.lookup key (s.tables.leases.keep _) = some lease at hrow
      rw [Table.lookup_keep] at hrow
      exact ⟨lease, (Option.filter_eq_some_iff.mp hrow).1, rfl⟩
  | selectOrphans sweep limit =>
    simp only [Lifetime.step, Option.ite_none_right_eq_some, Option.some.injEq] at hstep
    obtain ⟨-, rfl⟩ := hstep
    exact .inr (hsame rfl)
  | purgeNext sweep id =>
    simp only [Lifetime.step] at hstep
    split at hstep
    · cases hstep
    · cases hstep
      exact .inr (hsame rfl)
    next f rest hsweep =>
      have htables := hstart hstep
      exact .inr (hsame htables)
  | tick seconds =>
    cases hstep
    exact .inr (hsame rfl)

lemma eq_delete_of_gone {f g : Nat} {row : FileRow} {change : Change}
    (hrow : t.files.lookup g = some row) (hgone : (change.apply t f).files.lookup g = none) :
    g = f ∧ change = .delete := by
  have hfile : g = f := by
    by_contra hne
    rw [lookup_files_apply change hne, hrow] at hgone
    cases hgone
  refine ⟨hfile, ?_⟩
  subst hfile
  cases change with
  | grant | link | dropLink => simp [Change.apply, hrow] at hgone
  | promote id =>
    rcases promote_cases t g id with hsame | ⟨link, file, -, hsame⟩
    · rw [hsame, hrow] at hgone
      cases hgone
    · rw [hsame] at hgone
      change AList.lookup g (AList.insert g _ t.files) = none at hgone
      rw [AList.lookup_insert] at hgone
      cases hgone
  | hide =>
    change AList.lookup g (t.files.adjust _) = none at hgone
    rw [Table.lookup_adjust, hrow] at hgone
    cases hgone
  | delete => rfl

lemma leased_of_apply {f : Nat} {change : Change} {key : Nat × Nat} {lease : Lease}
    (hrow : (change.apply t f).leases.lookup key = some lease) : t.leases.lookup key = some lease ∨
      (lease.file = f ∧ change = .grant key.1 key.2 lease.expiresAt) := by
  cases change with
  | grant session handle expiresAt =>
    rcases Table.lookup_insert_cases hrow with ⟨rfl, rfl⟩ | ⟨-, hold⟩
    · exact .inr ⟨rfl, rfl⟩
    · exact .inl hold
  | delete =>
    change AList.lookup key (t.leases.keep _) = some lease at hrow
    rw [Table.lookup_keep] at hrow
    exact .inl (Option.filter_eq_some_iff.mp hrow).1
  | promote id =>
    rcases promote_cases t f id with hsame | ⟨_, _, -, hsame⟩
    · exact .inl (hsame ▸ hrow)
    · rw [hsame] at hrow
      exact .inl hrow
  | link | dropLink | hide => exact .inl hrow

lemma Consistent.lawful (h : Consistent s) {a : Action} (hstep : Lifetime.step s a = some s') :
    Lawful s a s' where
  deleted f row hrow hgone := by
    rcases step_cases hstep with ⟨id, tx, change, rfl, htx, hchange, htables⟩ | ⟨hfiles, -⟩
    · rw [htables] at hgone
      obtain ⟨rfl, rfl⟩ := eq_delete_of_gone hrow hgone
      have hstage := h.stages id tx htx
      simp only [StageOk, hchange] at hstage
      exact ⟨⟨id, tx, rfl, htx, rfl, hstage.1 row hrow⟩, hstage.2⟩
    · rw [hfiles, hrow] at hgone
      cases hgone
  leased key lease hrow := by
    rcases step_cases hstep with ⟨id, tx, change, rfl, htx, hchange, htables⟩ | ⟨-, hleases⟩
    · rw [htables] at hrow
      rcases leased_of_apply hrow with hold | ⟨hfile, rfl⟩
      · exact .inl ⟨lease, hold, rfl⟩
      · exact .inr ⟨id, tx, lease.expiresAt, rfl, htx, hfile.symm, hchange⟩
    · exact .inl (hleases key lease hrow)
  granted key f hgrants := by
    obtain ⟨id, tx, expiresAt, -, htx, rfl, hstage⟩ := hgrants
    have hok := h.stages id tx htx
    simpa only [StageOk, hstage] using hok

end Steps

/-- In every run whose steps meet the condition, from tables without running
transactions, every step deletes files and grants leases lawfully and no unlinked file
has a link. -/
theorem open_unlinked_lifetime {t : Tables} {clock : Nat} {trace : List Action} {s : State}
    (hwf : Wf t) (hguard : GuardedRun.Along step Guard (State.idle t clock) trace)
    (hrun : GuardedRun.run step (State.idle t clock) trace = some s) :
    (∀ a s', step s a = some s' → Lawful s a s') ∧
      ∀ f row, s.tables.files.lookup f = some row → row.unlinked = true →
        s.tables.linksOf f = [] := by
  have h : Consistent s :=
    GuardedRun.run_invariant (fun _ a _ hs hg => hs.step a hg) (consistent_idle hwf clock) hguard hrun
  exact ⟨fun a s' hstep => h.lawful hstep, h.wf.unlinked⟩

def openFile : Tables where
  files := AList.insert 1 ⟨(0, "a"), false⟩ ∅
  hardlinks := ∅
  nextHardlink := 1
  sessions := AList.insert 5 100 ∅
  leases := AList.insert (5, 2) ⟨1, 60⟩ ∅

lemma openFile_wf : Wf openFile where
  session := Table.forall_insert rfl (by simp)
  unlinked f row hrow _ := by
    simp [linksOf_eq_nil_iff, openFile]

/-- The unlink is deferred; after the release a cleanup purges the file. -/
def unlinkWhileOpen : List Action :=
  [.start 1 (.unlinkFileEntry 1 (0, "a")), .exec 1, .exec 1, .commit 1,
    .releaseFileOpenLease 5 2, .selectOrphans 3 10, .purgeNext 3 2, .exec 2, .exec 2, .exec 2]

theorem open_unlinked_lifetime_unlinkWhileOpen :
    ∃ s, GuardedRun.run step (State.idle openFile 10) unlinkWhileOpen = some s ∧
      ∀ a s', step s a = some s' → Lawful s a s' := by
  have h : ∃ s, GuardedRun.run step (State.idle openFile 10) unlinkWhileOpen = some s := ⟨_, rfl⟩
  obtain ⟨s, hs⟩ := h
  exact ⟨s, hs, (open_unlinked_lifetime openFile_wf (by decide) hs).1⟩

/-- The purge of a file that was not unlinked takes its name with it. -/
theorem purge_deletes_named_file :
    ∃ s s', GuardedRun.run step (State.idle openFile 10)
        [.releaseFileOpenLease 5 2, .start 1 (.purgePrimaryFile 1), .exec 1, .exec 1, .exec 1] =
          some s ∧
      step s (.commit 1) = some s' ∧ s.tables.visible 1 = true ∧
      s'.tables.files.lookup 1 = none ∧ ¬Lawful s (.commit 1) s' := by
  refine ⟨_, _, rfl, rfl, rfl, rfl, fun hlawful => ?_⟩
  obtain ⟨⟨id, tx, hid, htx, -, hremoves⟩, -⟩ := hlawful.deleted 1 ⟨(0, "a"), false⟩ rfl rfl
  obtain rfl := Action.commit.inj hid
  cases htx
  revert hremoves
  decide

end Fod.Lifetime
