import Fod.Fencing.Model

/-!
# What a write-ownership transaction knows

Every program writes a lease, or validates a fence, only under the advisory key of
the resource.  What a transaction has gathered is stated against the committed
leases, and one statement keeps it.
-/

namespace Fod.Fencing

def Held (grants : List Grant) (f : Nat) (o : Owner) (token : Nat) : Prop :=
  (∃ g ∈ grants, g.file = f ∧ g.owner = o ∧ g.token = token) ∧
    ∀ g ∈ grants, g.file = f → g.token = token →
      ∀ g' ∈ grants, g'.file = f → g.order ≤ g'.order → g'.owner = o

/-- With a fence, no other owner was granted the file between the grant of the
token and the commit; without one, nobody was between the check and the commit. -/
def Fenced (grants : List Grant) (p : Persist) : Prop :=
  match p.check with
  | .inl (o, token) => Held (grants.filter fun g => g.order < p.order) p.file o token
  | .inr checked => ∀ g ∈ grants, g.file = p.file → ¬ (checked < g.order ∧ g.order < p.order)

def Safe (o : Owner) : List Resource → List Stmt → Prop
  | _, [] => True
  | held, .tryLock r :: rest | held, .lock r :: rest => Safe o (r :: held) rest
  | held, .upsert r o' _ :: rest => r ∈ held ∧ o' = o ∧ Safe o held rest
  | held, .validate f _ _ :: rest | held, .rejectActive f :: rest =>
    .file f ∈ held ∧ Safe o held rest
  | held, _ :: rest => Safe o held rest

lemma program_safe (request : Request) : ∃ o, Safe o [] request.program := by
  have hcheck : ∀ o held f fence, Safe o held (checkFence f fence) := by
    intro o held f fence
    cases fence with
    | none => simp [checkFence, Safe]
    | some fence =>
      simp only [checkFence]
      split <;> simp [Safe]
  cases request with
  | acquireWriteOwnership parent name file o ttl =>
    refine ⟨o, ?_⟩
    simp only [Request.program, acquireWriteOwnership]
    split
    · trivial
    · cases file <;> simp [Safe]
  | heartbeatWriteOwnership parent name file o token ttl =>
    refine ⟨o, ?_⟩
    simp only [Request.program, heartbeatWriteOwnership]
    split
    · trivial
    · cases file <;> simp [Safe]
  | heartbeatFileWriteOwnership f o token ttl =>
    refine ⟨o, ?_⟩
    simp only [Request.program, heartbeatFileWriteOwnership]
    split <;> simp [Safe]
  | releaseWriteOwnership o token fileToken =>
    refine ⟨o, ?_⟩
    simp only [Request.program, releaseWriteOwnership]
    split
    · trivial
    · cases fileToken <;> simp [Safe]
  | pruneExpiredClientSessions before => exact ⟨⟨0, 0⟩, trivial⟩
  | persist f fence => exact ⟨⟨0, 0⟩, hcheck _ _ f fence⟩
  | punchHole f fence => exact ⟨⟨0, 0⟩, hcheck _ _ f (some fence)⟩
  | adopt src dst fence => exact ⟨⟨0, 0⟩, hcheck _ _ dst fence⟩

def Write.grantee : Write → Option Owner
  | .insert _ o _ | .regrant _ _ o _ => some o
  | _ => none

def Tx.Disciplined (tx : Tx) : Prop :=
  ∃ o held, (∀ r ∈ held, .key r ∈ tx.locks) ∧ Safe o held tx.todo ∧
    ∀ w ∈ tx.facts.writes, ∀ x ∈ w.grantee, x = o

def WriteOk (leases : List Lease) (F : Facts) : Write → Prop
  | .insert r _ _ =>
    .key r ∈ F.locks ∧ ∀ lease ∈ leases, lease.resource = r → F.deletes lease = true
  | .regrant r k o _ =>
    .key r ∈ F.locks ∧ .row r k ∈ F.locks ∧
      ∃ lease ∈ leases, lease.resource = r ∧ lease.token = k ∧ lease.owner = o
  | .renew _ _ _ => True
  | .delete r k => .row r k ∈ F.locks

structure TxOk (leases : List Lease) (grants : List Grant) (F : Facts) : Prop where
  writes : ∀ w ∈ F.writes, WriteOk leases F w
  fence : ∀ f o k, F.fence = some (f, o, k) → .key (.file f) ∈ F.locks ∧ Held grants f o k
  clear : ∀ f checked, F.clear = some (f, checked) → .key (.file f) ∈ F.locks ∧
    ∀ g ∈ grants, g.file = f → g.order ≤ checked

lemma TxOk.empty (leases : List Lease) (grants : List Grant) : TxOk leases grants {} := by
  constructor <;> simp

lemma WriteOk.mono {leases : List Lease} {F G : Facts} {w : Write} (h : WriteOk leases F w)
    (hlocks : F.locks ⊆ G.locks) (hwrites : F.writes ⊆ G.writes) : WriteOk leases G w := by
  cases w with
  | insert r o expires =>
    refine ⟨hlocks h.1, fun lease hlease hr => ?_⟩
    have hdeleted := h.2 lease hlease hr
    simp only [Facts.deletes, List.contains_iff_mem] at hdeleted ⊢
    exact hwrites hdeleted
  | regrant r k o expires => exact ⟨hlocks h.1, hlocks h.2.1, h.2.2⟩
  | renew r k expires => trivial
  | delete r k => exact hlocks h

variable {F : Facts} {s : State} {rest : List Stmt}

lemma TxOk.add {leases : List Lease} {grants : List Grant}
    (h : TxOk leases grants F) (locks : List Lock) (writes : List Write) (dropped : List Nat)
    (hnew : ∀ w ∈ writes, WriteOk leases ((F.hold locks).write writes) w) :
    TxOk leases grants { (F.hold locks).write writes with dropped } := by
  have hlocks : F.locks ⊆ (F.hold locks).locks := List.subset_append_right _ _
  refine ⟨?_, ?_, ?_⟩
  · intro w hw
    obtain hold | hadded := List.mem_append.mp hw
    · exact (h.writes w hold).mono hlocks (List.subset_append_left _ _)
    · exact hnew w hadded
  · intro f o k hfence
    obtain ⟨hkey, hheld⟩ := h.fence f o k hfence
    exact ⟨hlocks hkey, hheld⟩
  · intro f checked hclear
    obtain ⟨hkey, hgrants⟩ := h.clear f checked hclear
    exact ⟨hlocks hkey, hgrants⟩

/-! ## One statement -/

structure Current (s : State) : Prop where
  held : ∀ g ∈ s.grants, ∀ lease ∈ s.leases, lease.serial = (true, g.token) →
    lease.resource = .file g.file ∧ lease.owner = g.owner ∧
      ∀ g' ∈ s.grants, g'.file = g.file → g.order ≤ g'.order → g'.owner = g.owner
  granted : ∀ lease ∈ s.leases, ∀ f, lease.resource = .file f →
    ∃ g ∈ s.grants, g.file = f ∧ g.owner = lease.owner ∧ g.token = lease.token

lemma Current.of_lease (h : Current s) {lease : Lease} {f : Nat}
    (hlease : lease ∈ s.leases) (hf : lease.resource = .file f) :
    Held s.grants f lease.owner lease.token := by
  refine ⟨h.granted lease hlease f hf, fun g hg hg_file hg_token g' hg' hg'_file horder => ?_⟩
  have hserial : lease.serial = (true, g.token) := by
    simp [Lease.serial, hf, Resource.isFile, hg_token]
  obtain ⟨-, howner, hsince⟩ := h.held g hg lease hlease hserial
  rw [howner]
  exact hsince g' hg' (hg'_file.trans hg_file.symm) horder

def Advances (s : State) (t : Nat) (F : Facts) (tx : Tx) : Prop :=
  (∃ locks, s.free t locks = true ∧ ∀ l ∈ tx.locks, l ∈ locks ∨ l ∈ F.locks) ∧
    tx.Disciplined ∧ TxOk s.leases s.grants tx.facts

lemma free_nil (s : State) (t : Nat) : s.free t [] = true := by
  simp [State.free, LockPool.free]

lemma Advances.ended (s : State) (t : Nat) (F : Facts) : Advances s t F .ended := by
  refine ⟨⟨[], free_nil s t, fun l hl => ?_⟩, ⟨⟨0, 0⟩, [], ?_, trivial, ?_⟩, .empty _ _⟩
  · cases hl
  · intro r hr
    cases hr
  · intro w hw
    cases hw

lemma Advances.of_read {t : Nat} {F F' : Facts} {o : Owner}
    {held : List Resource} (hlocks : F'.locks = F.locks) (hheld : ∀ r ∈ held, .key r ∈ F.locks)
    (hsafe : Safe o held rest) (howner : ∀ w ∈ F'.writes, ∀ x ∈ w.grantee, x = o)
    (hok : TxOk s.leases s.grants F') : Advances s t F ⟨F', rest⟩ := by
  refine ⟨⟨[], free_nil s t, fun l hl => ?_⟩, ⟨o, held, fun r hr => ?_, hsafe, howner⟩, hok⟩
  · exact .inr (hlocks ▸ hl)
  · change .key r ∈ F'.locks
    rw [hlocks]
    exact hheld r hr

lemma mem_view {lease : Lease} : lease ∈ s.view F ↔ lease ∈ s.leases ∧ F.deletes lease = false := by
  simp [State.view]

lemma Advances.of_change {t : Nat} {o : Owner}
    {held : List Resource} {rows : List Lease} {writes : List Write} {dropped : List Nat} {tx : Tx}
    (hheld : ∀ r ∈ held, .key r ∈ F.locks) (hsafe : Safe o held rest)
    (howner : ∀ w ∈ F.writes ++ writes, ∀ x ∈ w.grantee, x = o)
    (hok : TxOk s.leases s.grants F)
    (hnew : ∀ w ∈ writes, WriteOk s.leases ((F.hold (rows.map fun lease =>
      Lock.row lease.resource lease.token)).write writes) w)
    (h : s.change t { F with dropped } rest rows writes = some tx) : Advances s t F tx := by
  simp only [State.change] at h
  split at h
  · rename_i hfree
    cases h
    refine ⟨⟨_, hfree, fun l hl => List.mem_append.mp hl⟩,
      ⟨o, held, fun r hr => ?_, hsafe, howner⟩, hok.add _ writes dropped hnew⟩
    exact List.mem_append_right _ (hheld r hr)
  · cases h

lemma writeOk_deletions {leases rows : List Lease} :
    ∀ w ∈ rows.map State.deletion, WriteOk leases ((F.hold (rows.map fun lease =>
      Lock.row lease.resource lease.token)).write (rows.map State.deletion)) w := by
  intro w hw
  obtain ⟨lease, hlease, rfl⟩ := List.mem_map.mp hw
  exact List.mem_append_left _ (List.mem_map_of_mem hlease)

lemma exec_advances {t : Nat} {choice : Bool} {stmt : Stmt} {tx : Tx} (hcurrent : Current s)
    (horders : ∀ g ∈ s.grants, g.order ≤ s.commits)
    (hdisciplined : Tx.Disciplined ⟨F, stmt :: rest⟩) (hok : TxOk s.leases s.grants F)
    (h : s.exec t choice F rest stmt = some tx) : Advances s t F tx := by
  obtain ⟨owner, held, hheld, hsafe, howner⟩ := hdisciplined
  have howner : ∀ w ∈ F.writes, ∀ x ∈ w.grantee, x = owner := howner
  have hkey : ∀ r, s.free t [.key r] = true → Safe owner (r :: held) rest →
      Advances s t F ⟨F.hold [.key r], rest⟩ := by
    intro r hfree hrest
    refine ⟨⟨[.key r], hfree, fun l hl => List.mem_append.mp hl⟩,
      ⟨owner, r :: held, ?_, hrest, howner⟩, ?_⟩
    · intro r' hr'
      obtain rfl | hold := List.mem_cons.mp hr'
      · exact List.mem_cons_self
      · exact List.mem_cons_of_mem _ (hheld r' hold)
    · have hadd := hok.add [.key r] [] F.dropped (by simp)
      simpa [Facts.write, Facts.hold] using hadd
  have hdelete : ∀ rows dropped, Safe owner held rest →
      s.change t { F with dropped } rest rows (rows.map State.deletion) = some tx →
      Advances s t F tx := by
    intro rows dropped hrest hchange
    refine .of_change hheld hrest ?_ hok writeOk_deletions hchange
    intro w hw x hx
    obtain hold | hnew := List.mem_append.mp hw
    · exact howner w hold x hx
    · obtain ⟨lease, -, rfl⟩ := List.mem_map.mp hnew
      cases hx
  have hrenew : ∀ lease r token expires, Safe owner held rest →
      s.change t F rest [lease] [.renew r token expires] = some tx → Advances s t F tx := by
    intro lease r token expires hrest hchange
    refine .of_change hheld hrest ?_ hok ?_ hchange
    · intro w hw x hx
      obtain hold | hnew := List.mem_append.mp hw
      · exact howner w hold x hx
      · rw [List.mem_singleton.mp hnew] at hx
        cases hx
    · intro w hw
      rw [List.mem_singleton.mp hw]
      trivial
  cases stmt with
  | tryLock r =>
    cases h
    split
    · rename_i hfree
      exact hkey r hfree hsafe
    · exact .ended s t F
  | lock r =>
    simp only [State.exec] at h
    split at h
    · rename_i hfree
      cases h
      exact hkey r hfree hsafe
    · cases h
  | requireSession session =>
    cases h
    split
    · exact .of_read rfl hheld hsafe howner hok
    · exact .ended s t F
  | prune r => exact hdelete _ _ hsafe h
  | requireNoConflict r o =>
    cases h
    split
    · exact .ended s t F
    · exact .of_read rfl hheld hsafe howner hok
  | upsert r o ttl =>
    obtain ⟨hr, rfl, hrest⟩ := hsafe
    have hgrantee : ∀ w : Write, (∀ x ∈ w.grantee, x = o) →
        ∀ w' ∈ F.writes ++ [w], ∀ x ∈ w'.grantee, x = o := by
      intro w hw w' hw'
      obtain hold | hnew := List.mem_append.mp hw'
      · exact howner w' hold
      · exact List.mem_singleton.mp hnew ▸ hw
    simp only [State.exec] at h
    split at h
    · rename_i lease hfind
      have hlease := (mem_view.mp (List.mem_of_find?_eq_some hfind)).1
      have hresource : lease.resource = r := by simpa using List.find?_some hfind
      split at h
      · rename_i hsame
        refine .of_change hheld hrest (hgrantee _ ?_) hok ?_ h
        · intro x hx
          exact (Option.some.inj hx).symm
        · intro w hw
          rw [List.mem_singleton.mp hw]
          refine ⟨List.mem_append_right _ (hheld r hr), ?_, lease, hlease, hresource, rfl,
            hsame⟩
          simp [Facts.hold, Facts.write, hresource]
      · cases h
        exact .ended s t F
    · rename_i hnone
      cases h
      refine .of_read rfl hheld hrest (hgrantee _ ?_) ?_
      · intro x hx
        exact (Option.some.inj hx).symm
      · refine hok.add [] [.insert r o (s.now + ttl)] F.dropped ?_
        intro w hw
        rw [List.mem_singleton.mp hw]
        refine ⟨hheld r hr, fun lease hlease hresource => ?_⟩
        by_contra hkept
        have hnot := List.find?_eq_none.mp hnone lease (mem_view.mpr ⟨hlease, ?_⟩)
        · simp [hresource] at hnot
        · simpa [Facts.deletes, Facts.write, Facts.hold] using hkept
  | heartbeatDestination r token o ttl withFile =>
    simp only [State.exec] at h
    split at h
    · exact hrenew _ _ _ _ hsafe h
    · cases h
      split
      · exact .of_read rfl hheld hsafe howner hok
      · exact .ended s t F
  | heartbeatFile r token o ttl =>
    simp only [State.exec] at h
    split at h
    · exact hrenew _ _ _ _ hsafe h
    · cases h
      exact .ended s t F
  | release isFile token o => exact hdelete _ _ hsafe h
  | pruneSessions before => exact hdelete _ _ hsafe h
  | validate f o token =>
    cases h
    split
    · rename_i hvalid
      refine .of_read rfl hheld hsafe.2 howner ⟨hok.writes, ?_, hok.clear⟩
      intro f' o' k' hfence
      obtain ⟨rfl, rfl, rfl⟩ : f = f' ∧ o = o' ∧ token = k' := by simpa using hfence
      obtain ⟨lease, hlease, hmatch⟩ := List.any_eq_true.mp hvalid
      simp only [Bool.and_eq_true, beq_iff_eq] at hmatch
      obtain ⟨⟨⟨⟨hresource, rfl⟩, rfl⟩, -⟩, -⟩ := hmatch
      exact ⟨hheld _ hsafe.1, hcurrent.of_lease (mem_view.mp hlease).1 hresource⟩
    · exact .ended s t F
  | rejectActive f =>
    cases h
    split
    · exact .ended s t F
    · refine .of_read rfl hheld hsafe.2 howner ⟨hok.writes, hok.fence, ?_⟩
      intro f' checked hclear
      obtain ⟨rfl, rfl⟩ : f = f' ∧ s.commits = checked := by simpa using hclear
      exact ⟨hheld _ hsafe.1, fun g hg _ => horders g hg⟩

end Fod.Fencing
