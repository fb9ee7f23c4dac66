import Fod.Lifetime.Leases

/-!
# What a transaction knows at each stage

The lifecycle lock of a file keeps its row and its links from the decision to the
commit, so what a transaction has read stays true.  Leases and sessions change
without the lock.
-/

namespace Fod.Lifetime

/-- A heartbeat revives an expired session that has an unexpired lease on the file. -/
def Revives (s : State) (session f : Nat) : Prop :=
  s.tables.live s.clock session = false ∧
    ∃ row ∈ s.tables.leases.entries,
      row.1.1 = session ∧ row.2.file = f ∧ s.clock < row.2.expiresAt

instance (s : State) (session f : Nat) : Decidable (Revives s session f) :=
  inferInstanceAs (Decidable (_ ∧ ∃ row ∈ s.tables.leases.entries, _))

/-- A purge is asked for only after an unlink, and no session of a file whose deletion
is decided comes back after it expired. -/
def Guard (s : State) : Action → Prop
  | .start _ (.purgePrimaryFile f) => s.tables.visible f = false
  | .heartbeatClientSession session _ =>
    ∀ row ∈ s.txs.entries, row.2.stage = .ready .delete →
      ¬Revives s session row.2.request.file
  | _ => True

instance (s : State) : (a : Action) → Decidable (Guard s a)
  | .start _ request => by
    cases request <;> unfold Guard <;> infer_instance
  | .heartbeatClientSession session _ =>
    inferInstanceAs (Decidable (∀ row ∈ s.txs.entries, _))
  | .exec _ | .commit _ | .rollback _ | .releaseFileOpenLease _ _ | .heartbeatFileOpenLeases _ _
  | .registerClientSession _ _ | .pruneExpiredClientSessions | .selectOrphans _ _
  | .purgeNext _ _ | .tick _ => isTrue trivial

/-! ## The invariant -/

def Removable (t : Tables) (request : Request) : Prop :=
  ∀ row, t.files.lookup request.file = some row →
    row.unlinked = true ∨ request.removes row.name = true

def StageOk (t : Tables) (now : Nat) (tx : Tx) : Prop :=
  match tx.stage with
  | .begun => ∀ f, tx.request = .purgePrimaryFile f → t.visible f = false
  | .openCheck => Removable t tx.request ∧ t.linksOf tx.request.file = []
  | .purgeCheck => Removable t tx.request
  | .finalCheck => Removable t tx.request
  | .ready (.grant _ _ _) => t.visible tx.request.file = true
  | .ready (.link _) => t.visible tx.request.file = true
  | .ready (.dropLink _) => True
  | .ready (.promote _) => True
  | .ready .hide => t.linksOf tx.request.file = []
  | .ready .delete =>
    Removable t tx.request ∧ t.linksOf tx.request.file = [] ∧
      t.hasOpenLease now tx.request.file = false

structure Wf (t : Tables) : Prop where
  session : ∀ key lease, t.leases.lookup key = some lease → (t.sessions.lookup key.1).isSome
  unlinked : ∀ f row, t.files.lookup f = some row → row.unlinked = true → t.linksOf f = []

structure Consistent (s : State) : Prop where
  wf : Wf s.tables
  exclusive : ∀ i j ti tj, s.txs.lookup i = some ti → s.txs.lookup j = some tj →
    ti.request.file = tj.request.file → i = j
  stages : ∀ id tx, s.txs.lookup id = some tx → StageOk s.tables s.clock tx
  granted : ∀ id tx session handle expiresAt, s.txs.lookup id = some tx →
    tx.stage = .ready (.grant session handle expiresAt) →
    (s.tables.sessions.lookup session).isSome
  sweeps : ∀ sweep files, s.sweeps.lookup sweep = some files →
    ∀ f ∈ files, s.tables.visible f = false

section Steps

variable {s s' : State} {t t' : Tables} {now now' id : Nat} {tx : Tx}

lemma StageOk.frame (h : StageOk t now tx)
    (hfile : t'.files.lookup tx.request.file = t.files.lookup tx.request.file)
    (hlinks : t.linksOf tx.request.file = [] → t'.linksOf tx.request.file = [])
    (hleases : tx.stage = .ready .delete → t'.hasOpenLease now' tx.request.file = true →
      t.hasOpenLease now tx.request.file = true) : StageOk t' now' tx := by
  obtain ⟨request, stage⟩ := tx
  have hremovable : Removable t request → Removable t' request := by
    intro hold row hrow
    exact hold row (hfile ▸ hrow)
  have hvisible : t'.visible request.file = t.visible request.file := by
    rw [Tables.visible, Tables.visible]
    exact congrArg _ hfile
  cases stage with
  | begun =>
    intro f hrequest
    dsimp only at hrequest
    subst hrequest
    exact hvisible.trans (h f rfl)
  | openCheck => exact ⟨hremovable h.1, hlinks h.2⟩
  | purgeCheck => exact hremovable h
  | finalCheck => exact hremovable h
  | ready change =>
    cases change with
    | grant session handle expiresAt => exact hvisible.trans h
    | link name => exact hvisible.trans h
    | dropLink id => trivial
    | promote id => trivial
    | hide => exact hlinks h
    | delete =>
      refine ⟨hremovable h.1, hlinks h.2.1, Bool.eq_false_iff.mpr fun hopen => ?_⟩
      have := hleases rfl hopen
      simp [h.2.2] at this

lemma Consistent.leases (h : Consistent s) (clock : Nat)
    (hfiles : t.files = s.tables.files) (hhardlinks : t.hardlinks = s.tables.hardlinks)
    (hsession : ∀ key lease, t.leases.lookup key = some lease → (t.sessions.lookup key.1).isSome)
    (hgranted : ∀ id tx session handle expiresAt, s.txs.lookup id = some tx →
      tx.stage = .ready (.grant session handle expiresAt) → (t.sessions.lookup session).isSome)
    (hopen : ∀ id tx, s.txs.lookup id = some tx → tx.stage = .ready .delete →
      t.hasOpenLease clock tx.request.file = true →
      s.tables.hasOpenLease s.clock tx.request.file = true) :
    Consistent { s with tables := t, clock := clock } := by
  have hlinks (f : Nat) : t.linksOf f = s.tables.linksOf f := by
    rw [Tables.linksOf, Tables.linksOf, hhardlinks]
  have hvisible (f : Nat) : t.visible f = s.tables.visible f := by
    rw [Tables.visible, Tables.visible, hfiles]
  refine ⟨⟨hsession, ?_⟩, h.exclusive, ?_, hgranted, ?_⟩
  · intro f row hrow hunlinked
    rw [hlinks]
    exact h.wf.unlinked f row (hfiles ▸ hrow) hunlinked
  · intro id tx htx
    refine (h.stages id tx htx).frame ?_ ?_ (hopen id tx htx)
    · exact congrArg (AList.lookup _) hfiles
    · intro hnil
      exact (hlinks _).trans hnil
  · intro sweep files hsweep f hf
    exact (hvisible f).trans (h.sweeps sweep files hsweep f hf)

lemma Consistent.ended (h : Consistent s) (id : Nat) : Consistent (s.ended id) where
  wf := h.wf
  exclusive i j ti tj hi hj :=
    h.exclusive i j ti tj (Table.lookup_erase_cases hi).2 (Table.lookup_erase_cases hj).2
  stages i ti hi := h.stages i ti (Table.lookup_erase_cases hi).2
  granted i ti session handle expiresAt hi :=
    h.granted i ti session handle expiresAt (Table.lookup_erase_cases hi).2
  sweeps := h.sweeps

lemma Consistent.setTx (h : Consistent s)
    (hfile : ∀ j tj, s.txs.lookup j = some tj → tj.request.file = tx.request.file → j = id)
    (hstage : StageOk s.tables s.clock tx)
    (hgranted : ∀ session handle expiresAt, tx.stage = .ready (.grant session handle expiresAt) →
      (s.tables.sessions.lookup session).isSome) : Consistent (s.setTx id tx) where
  wf := h.wf
  exclusive i j ti tj hi hj hsame := by
    rcases Table.lookup_insert_cases hi with ⟨rfl, rfl⟩ | ⟨-, hi'⟩
    · rcases Table.lookup_insert_cases hj with ⟨hj', -⟩ | ⟨-, hj'⟩
      · exact hj'.symm
      · exact (hfile j tj hj' hsame.symm).symm
    · rcases Table.lookup_insert_cases hj with ⟨rfl, rfl⟩ | ⟨-, hj'⟩
      · exact hfile i ti hi' hsame
      · exact h.exclusive i j ti tj hi' hj' hsame
  stages := Table.forall_insert hstage h.stages
  granted i ti session handle expiresAt hi := by
    rcases Table.lookup_insert_cases hi with ⟨-, rfl⟩ | ⟨-, hi'⟩
    · exact hgranted session handle expiresAt
    · exact h.granted i ti session handle expiresAt hi'
  sweeps := h.sweeps

/-! ### Statements -/

lemma removeName_cases {f : Nat} {name : Name} {primary stage : Stage}
    (h : removeName t f name primary = some stage) :
    (stage = primary ∧ ∃ row, t.files.lookup f = some row ∧ row.name = name) ∨
      ∃ id, stage = .ready (.dropLink id) := by
  unfold removeName at h
  split at h
  · cases h
  next row hrow =>
    split at h
    next hprimary => exact .inl ⟨(Option.some.inj h).symm, row, hrow, hprimary.2⟩
    next =>
      obtain ⟨id, -, rfl⟩ := Option.map_eq_some_iff.mp h
      exact .inr ⟨id, rfl⟩

variable {request : Request}

lemma removable_of_removes {row : FileRow}
    (hrow : t.files.lookup request.file = some row) (h : request.removes row.name = true) :
    Removable t request := by
  intro row' hrow'
  rw [hrow] at hrow'
  cases hrow'
  exact .inr h

lemma removable_of_not_visible (h : t.visible request.file = false) : Removable t request := by
  intro row hrow
  refine .inl (Bool.eq_true_of_not_eq_false fun hvisible => ?_)
  rw [visible_eq_true.mpr ⟨row, hrow, hvisible⟩] at h
  cases h

lemma linksOf_eq_nil_of_min? {f : Nat} (h : (t.linksOf f).min? = none) : t.linksOf f = [] :=
  List.min?_eq_none_iff.mp h

lemma stageOk_removePrimaryFile (h : Removable t request) :
    StageOk t now ⟨request, removePrimaryFile t now request.file⟩ := by
  unfold removePrimaryFile
  split
  · trivial
  next hmin =>
    have hlinks := linksOf_eq_nil_of_min? hmin
    split
    · exact hlinks
    next hopen => exact ⟨h, hlinks, by simpa using hopen⟩

lemma StageOk.exec {stage stage' : Stage} (h : StageOk t now ⟨request, stage⟩)
    (hexec : exec t now request stage = some stage') : StageOk t now ⟨request, stage'⟩ := by
  unfold Lifetime.exec at hexec
  split at hexec
  next f session handle ttl =>
    split at hexec
    next hgrant =>
      cases hexec
      exact hgrant.2.2
    · cases hexec
  next f name =>
    split at hexec
    next hvisible =>
      cases hexec
      exact hvisible
    · cases hexec
  next f name =>
    rcases removeName_cases hexec with ⟨rfl, row, hrow, hname⟩ | ⟨id, rfl⟩
    · split
      · trivial
      next hmin =>
        exact ⟨removable_of_removes hrow (by simp [Request.removes, hname]),
          linksOf_eq_nil_of_min? hmin⟩
    · trivial
  next f name =>
    cases hexec
    split
    · exact h.2
    · exact h.1
  next f name =>
    rcases removeName_cases hexec with ⟨rfl, row, hrow, hname⟩ | ⟨id, rfl⟩
    · exact removable_of_removes hrow (by simp [Request.removes, hname])
    · trivial
  next f =>
    obtain ⟨row, -, rfl⟩ := Option.map_eq_some_iff.mp hexec
    exact removable_of_not_visible (h f rfl)
  next =>
    split at hexec
    · cases hexec
      exact h
    · cases hexec
  next =>
    cases hexec
    exact stageOk_removePrimaryFile h
  next => cases hexec

lemma exec_grant {stage : Stage} {session handle expiresAt : Nat}
    (hexec : exec t now request stage = some (.ready (.grant session handle expiresAt))) :
    (t.sessions.lookup session).isSome := by
  unfold Lifetime.exec at hexec
  split at hexec
  next =>
    split at hexec
    next hgrant =>
      obtain ⟨rfl, -, -⟩ : _ ∧ _ ∧ _ := by simpa using hexec
      obtain ⟨expires, hsession, -⟩ := live_eq_true.mp hgrant.2.1
      simp [hsession]
    · cases hexec
  next =>
    split at hexec <;> cases hexec
  next =>
    rcases removeName_cases hexec with ⟨hstage, -⟩ | ⟨id, hstage⟩
    · split at hstage <;> cases hstage
    · cases hstage
  next =>
    split at hexec <;> cases hexec
  next =>
    rcases removeName_cases hexec with ⟨hstage, -⟩ | ⟨id, hstage⟩ <;> cases hstage
  next =>
    obtain ⟨row, -, hstage⟩ := Option.map_eq_some_iff.mp hexec
    cases hstage
  next =>
    split at hexec <;> cases hexec
  next =>
    unfold removePrimaryFile at hexec
    split at hexec
    · cases hexec
    · split at hexec <;> cases hexec
  next => cases hexec

lemma Consistent.exec (h : Consistent s) {stage : Stage} (htx : s.txs.lookup id = some tx)
    (hexec : Lifetime.exec s.tables s.clock tx.request tx.stage = some stage) :
    Consistent (s.setTx id { tx with stage := stage }) := by
  refine h.setTx (fun j tj hj hsame => h.exclusive j id tj tx hj htx hsame) ?_ ?_
  · exact (h.stages id tx htx).exec hexec
  · intro session handle expiresAt hstage
    dsimp only at hstage
    subst hstage
    exact exec_grant hexec

lemma Consistent.start (h : Consistent s)
    (hpurge : ∀ f, request = .purgePrimaryFile f → s.tables.visible f = false)
    (hstart : start s id request = some s') : Consistent s' := by
  unfold Lifetime.start at hstart
  split at hstart
  next hfree =>
    cases hstart
    refine h.setTx (fun j tj hj hsame => ?_) hpurge (fun _ _ _ hstage => by cases hstage)
    have hrow := List.all_eq_true.mp hfree.2 ⟨j, tj⟩ (Table.lookup_eq_some.mp hj)
    simp [hsame] at hrow
  · cases hstart

lemma Wf.apply (h : Wf t) (hstage : StageOk t now tx) {change : Change}
    (hchange : tx.stage = .ready change)
    (hgranted : ∀ session handle expiresAt, change = .grant session handle expiresAt →
      (t.sessions.lookup session).isSome) : Wf (change.apply t tx.request.file) where
  session key lease hrow := by
    rw [sessions_apply]
    cases change with
    | grant session handle expiresAt =>
      rcases Table.lookup_insert_cases hrow with ⟨rfl, -⟩ | ⟨-, hold⟩
      · exact hgranted session handle expiresAt rfl
      · exact h.session key lease hold
    | delete =>
      change AList.lookup key (t.leases.keep _) = some lease at hrow
      rw [Table.lookup_keep] at hrow
      exact h.session key lease (Option.filter_eq_some_iff.mp hrow).1
    | promote id =>
      rcases promote_cases t tx.request.file id with hsame | ⟨_, _, -, hsame⟩
      · exact h.session key lease (hsame ▸ hrow)
      · rw [hsame] at hrow
        exact h.session key lease hrow
    | link | dropLink | hide => exact h.session key lease hrow
  unlinked g row hrow hunlinked := by
    have hnot : ∀ name, change = .link name → g ≠ tx.request.file := by
      rintro name rfl rfl
      simp only [StageOk, hchange] at hstage
      obtain ⟨row', hrow', hvisible⟩ := visible_eq_true.mp hstage
      have heq : row = row' := Option.some.inj (hrow.symm.trans hrow')
      rw [heq, hvisible] at hunlinked
      cases hunlinked
    refine linksOf_apply change ?_ hnot
    by_cases hfile : g = tx.request.file
    · subst hfile
      cases change with
      | grant session handle expiresAt => exact h.unlinked _ row hrow hunlinked
      | link name => exact absurd rfl (hnot name rfl)
      | dropLink dropped => exact h.unlinked _ row hrow hunlinked
      | promote id =>
        rcases promote_cases t tx.request.file id with hsame | ⟨link, file, hfile, hsame⟩
        · exact h.unlinked _ row (hsame ▸ hrow) hunlinked
        · rw [hsame] at hrow
          change AList.lookup _ (AList.insert _ _ t.files) = some row at hrow
          rw [AList.lookup_insert] at hrow
          cases hrow
          exact h.unlinked _ file hfile hunlinked
      | hide =>
        simp only [StageOk, hchange] at hstage
        exact hstage
      | delete =>
        simp only [StageOk, hchange] at hstage
        exact hstage.2.1
    · rw [lookup_files_apply change hfile] at hrow
      exact h.unlinked g row hrow hunlinked

lemma Consistent.commit (h : Consistent s) {change : Change} (htx : s.txs.lookup id = some tx)
    (hchange : tx.stage = .ready change) :
    Consistent ((s.setTables (change.apply s.tables tx.request.file)).ended id) := by
  have hended := h.ended id
  refine ⟨?_, hended.exclusive, ?_, ?_, ?_⟩
  · refine h.wf.apply (h.stages id tx htx) hchange ?_
    rintro session handle expiresAt rfl
    exact h.granted id tx session handle expiresAt htx hchange
  · intro j tj hj
    obtain ⟨hne, hj⟩ := Table.lookup_erase_cases hj
    have hfile : tj.request.file ≠ tx.request.file := by
      intro hsame
      exact hne (h.exclusive j id tj tx hj htx hsame)
    refine (h.stages j tj hj).frame (lookup_files_apply change hfile) ?_ ?_
    · intro hnil
      exact linksOf_apply change hnil fun _ _ => hfile
    · exact fun _ hopen => hasOpenLease_apply change hfile hopen
  · intro j tj session handle expiresAt hj hstage
    change (AList.lookup session (change.apply s.tables tx.request.file).sessions).isSome
    rw [sessions_apply]
    exact hended.granted j tj session handle expiresAt hj hstage
  · intro sweep files hsweep f hf
    refine Bool.eq_false_iff.mpr fun hvisible => ?_
    have hbefore := visible_apply change hvisible
    rw [h.sweeps sweep files hsweep f hf] at hbefore
    cases hbefore

/-! ### Runs -/

lemma consistent_idle (h : Wf t) (clock : Nat) : Consistent (State.idle t clock) where
  wf := h
  exclusive _ _ _ _ hi := by simp [State.idle] at hi
  stages _ _ hi := by simp [State.idle] at hi
  granted _ _ _ _ _ hi := by simp [State.idle] at hi
  sweeps _ _ hi := by simp [State.idle] at hi

lemma isSome_insert {session session' expiresAt : Nat} (h : (t.sessions.lookup session).isSome) :
    ((t.sessions.insert session' expiresAt).lookup session).isSome := by
  rw [Table.lookup_insert_eq_ite]
  split
  · rfl
  · exact h

lemma Consistent.setSession (h : Consistent s) {session expiresAt : Nat}
    (hopen : ∀ id tx, s.txs.lookup id = some tx → tx.stage = .ready .delete →
      ∀ key lease, s.tables.leases.lookup key = some lease → key.1 = session →
        lease.file = tx.request.file → s.clock < lease.expiresAt →
        s.tables.live s.clock session = true) :
    Consistent (s.setTables
      { s.tables with sessions := s.tables.sessions.insert session expiresAt }) := by
  refine h.leases s.clock rfl rfl ?_ ?_ ?_
  · exact fun key lease hrow => isSome_insert (h.wf.session key lease hrow)
  · intro id tx session' handle expires htx hstage
    exact isSome_insert (h.granted id tx session' handle expires htx hstage)
  · intro id tx htx hstage hafter
    rcases hasOpenLease_setSession hafter with hbefore | ⟨key, lease, hrow, hkey, hfile, hlease⟩
    · exact hbefore
    · have hlive := hopen id tx htx hstage key lease hrow hkey hfile hlease
      exact hasOpenLease_iff.mpr ⟨key, lease, hrow, hfile, hlease, hkey ▸ hlive⟩

lemma Consistent.prune (h : Consistent s) (hgranting : s.granting = false) :
    Consistent (s.setTables (pruneExpiredClientSessions s.tables s.clock)) := by
  have hkept : ∀ session, s.tables.live s.clock session = true →
      ((pruneExpiredClientSessions s.tables s.clock).sessions.lookup session).isSome := by
    intro session hlive
    obtain ⟨expiresAt, hsession, hlt⟩ := live_eq_true.mp hlive
    change (AList.lookup session (s.tables.sessions.keep _)).isSome
    rw [Table.lookup_keep, hsession]
    simp [hlt]
  refine h.leases s.clock rfl rfl ?_ ?_ fun _ _ _ _ => hasOpenLease_prune
  · intro key lease hrow
    change AList.lookup key (s.tables.leases.keep _) = some lease at hrow
    rw [Table.lookup_keep] at hrow
    exact hkept key.1 (Option.filter_eq_some_iff.mp hrow).2
  · intro id tx session handle expiresAt htx hstage
    have hrow := List.any_eq_false.mp hgranting ⟨id, tx⟩ (Table.lookup_eq_some.mp htx)
    simp only [hstage, Bool.not_eq_true, Bool.not_eq_false'] at hrow
    exact hkept session hrow

lemma Consistent.step (a : Action) (h : Consistent s) (hguard : Guard s a)
    (hstep : step s a = some s') : Consistent s' := by
  cases a with
  | start id request =>
    refine h.start (fun f hrequest => ?_) hstep
    subst hrequest
    exact hguard
  | exec id =>
    obtain ⟨tx, htx, hstep⟩ := Option.bind_eq_some_iff.mp hstep
    split at hstep
    · cases hstep
    · split at hstep
      · cases hstep
        exact h.ended id
      next stage hexec =>
        cases hstep
        exact h.exec htx hexec
  | commit id =>
    obtain ⟨tx, htx, hstep⟩ := Option.bind_eq_some_iff.mp hstep
    split at hstep
    next change hchange =>
      cases hstep
      exact h.commit htx hchange
    · cases hstep
  | rollback id =>
    obtain ⟨tx, htx, hstep⟩ := Option.bind_eq_some_iff.mp hstep
    cases hstep
    exact h.ended id
  | releaseFileOpenLease session handle =>
    cases hstep
    refine h.leases s.clock rfl rfl ?_ h.granted fun _ _ _ _ => hasOpenLease_release
    exact fun key lease hrow => h.wf.session key lease (Table.lookup_erase_cases hrow).2
  | heartbeatFileOpenLeases session ttl =>
    simp only [Lifetime.step, Option.ite_none_right_eq_some, Option.some.injEq] at hstep
    obtain ⟨-, rfl⟩ := hstep
    refine h.leases s.clock rfl rfl ?_ h.granted fun _ _ _ _ => hasOpenLease_heartbeat
    intro key lease hrow
    change AList.lookup key (s.tables.leases.adjust _) = some lease at hrow
    rw [Table.lookup_adjust] at hrow
    obtain ⟨before, hbefore, -⟩ := Option.map_eq_some_iff.mp hrow
    exact h.wf.session key before hbefore
  | registerClientSession session ttl =>
    simp only [Lifetime.step, Option.ite_none_right_eq_some, Option.some.injEq] at hstep
    obtain ⟨hnew, rfl⟩ := hstep
    refine h.setSession fun id tx _ _ key lease hrow hkey _ _ => ?_
    have hsome := h.wf.session key lease hrow
    rw [hkey, Option.isNone_iff_eq_none.mp hnew] at hsome
    cases hsome
  | heartbeatClientSession session ttl =>
    simp only [Lifetime.step] at hstep
    split at hstep
    · cases hstep
      refine h.setSession fun id tx htx hstage key lease hrow hkey hfile hlease => ?_
      have hnot := hguard ⟨id, tx⟩ (Table.lookup_eq_some.mp htx) hstage
      refine Bool.eq_true_of_not_eq_false fun hexpired => hnot ⟨hexpired, ?_⟩
      exact ⟨⟨key, lease⟩, Table.lookup_eq_some.mp hrow, hkey, hfile, hlease⟩
    · cases hstep
      exact h
  | pruneExpiredClientSessions =>
    simp only [Lifetime.step] at hstep
    split at hstep
    · cases hstep
    next hgranting =>
      cases hstep
      exact h.prune (by simpa using hgranting)
  | selectOrphans sweep limit =>
    simp only [Lifetime.step, Option.ite_none_right_eq_some, Option.some.injEq] at hstep
    obtain ⟨-, rfl⟩ := hstep
    refine ⟨h.wf, h.exclusive, h.stages, h.granted, ?_⟩
    intro sweep' files hsweep f hf
    rcases Table.lookup_insert_cases hsweep with ⟨-, rfl⟩ | ⟨-, hold⟩
    · have hmem := List.mem_of_mem_take hf
      obtain ⟨row, hrow, hunlinked⟩ := (Table.mem_keysWith _).mp (List.mem_of_mem_filter hmem)
      change Tables.visible s.tables f = false
      simp [Tables.visible, hrow, hunlinked]
    · exact h.sweeps sweep' files hold f hf
  | purgeNext sweep id =>
    simp only [Lifetime.step] at hstep
    split at hstep
    · cases hstep
    · cases hstep
      refine ⟨h.wf, h.exclusive, h.stages, h.granted, ?_⟩
      intro sweep' files hsweep
      exact h.sweeps sweep' files (Table.lookup_erase_cases hsweep).2
    next f rest hsweep =>
      have hvisible := h.sweeps sweep (f :: rest) hsweep f List.mem_cons_self
      have hrest : Consistent { s with sweeps := s.sweeps.insert sweep rest } := by
        refine ⟨h.wf, h.exclusive, h.stages, h.granted, ?_⟩
        exact Table.forall_insert (fun g hg => h.sweeps sweep _ hsweep g (List.mem_cons_of_mem f hg))
          h.sweeps
      refine hrest.start (fun g hrequest => ?_) hstep
      obtain rfl : f = g := Request.purgePrimaryFile.inj hrequest
      exact hvisible
  | tick seconds =>
    cases hstep
    exact h.leases _ rfl rfl h.wf.session h.granted fun _ _ _ _ => hasOpenLease_tick

end Steps

end Fod.Lifetime
