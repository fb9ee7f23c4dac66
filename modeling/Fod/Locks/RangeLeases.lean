import Fod.Lib.GuardedRun
import Fod.Locks.PosixTable

/-!
# Range locks shared by several mounts

With the PostgreSQL backend the records of a resource are leased rows of
`lock_range_leases`.  A `setlk` transaction fixes `NOW()` when it begins, waits
for the advisory lock of the wait graph, loads the unexpired rows and then
replaces the rows of its owner.  Heartbeats and clean-ups take no lock and may
fall anywhere in between.
-/

namespace Fod.Locks

structure LeaseRow where
  resource : Nat
  session : Nat
  record : PosixLockRecord
  expiresAt : Nat
  deriving DecidableEq

def LeaseRow.holder (row : LeaseRow) : Nat × Nat := (row.session, row.record.owner)

def i64Max : Nat := 2 ^ 63 - 1

def validRecord (record : PosixLockRecord) : Bool :=
  record.typ != .unlock && record.start ≤ i64Max &&
    record.stop.all fun stop => stop ≤ i64Max && record.start ≤ stop

structure Setlk where
  session : Nat
  resource : Nat
  owner : Nat
  start : Nat
  stop : Nat
  typ : LockType
  pid : Nat
  ttl : Nat
  now : Nat

namespace Setlk

def holder (tx : Setlk) : Nat × Nat := (tx.session, tx.owner)

def request (tx : Setlk) : PosixLockRecord :=
  ⟨tx.owner, tx.typ, tx.start, some tx.stop, tx.pid⟩

def ownerRecords (tx : Setlk) (records : List PosixLockRecord) :
    Option (List PosixLockRecord) :=
  if tx.typ ≠ .unlock ∧
      (lockConflict records tx.owner tx.typ tx.start tx.stop).isSome then none
  else
    some ((updateOwnerLockRange records tx.owner tx.start tx.stop
      (if tx.typ ≠ .unlock then some tx.request else none)).filter
        fun record => record.owner == tx.owner)

end Setlk

/-- The transaction that holds the wait-graph lock: `payload` are the rows it is
about to store, computed from what it loaded at `loadedAt`. -/
structure Granted where
  tx : Setlk
  payload : List PosixLockRecord
  loadedAt : Nat

/-- The lock state of one mount: its mirror of the records it last loaded, the
owners it works for, and the records its heartbeat has still to renew. -/
structure Mount where
  session : Nat
  ttl : Nat
  posixLocks : List (Nat × List PosixLockRecord)
  localOwners : List Nat
  beats : List (Nat × PosixLockRecord)

namespace Mount

def storeRecords (m : Mount) (resource : Nat) (records : List PosixLockRecord) : Mount :=
  let others := m.posixLocks.filter fun entry => entry.1 != resource
  { m with posixLocks := if records.isEmpty then others else (resource, records) :: others }

def refreshOwner (m : Mount) (owner : Nat) : Mount :=
  if m.posixLocks.any fun entry => entry.2.any fun record => record.owner == owner then m
  else { m with localOwners := m.localOwners.filter (· != owner) }

def clearOwner (m : Mount) (owner : Nat) : Mount :=
  { m with
    posixLocks := (m.posixLocks.map fun entry =>
      (entry.1, entry.2.filter fun record => record.owner != owner)).filter
        fun entry => !entry.2.isEmpty }

def snapshot (m : Mount) : Mount :=
  { m with
    beats := m.posixLocks.flatMap fun entry =>
      (entry.2.filter fun record => m.localOwners.contains record.owner).map
        fun record => (entry.1, record) }

end Mount

structure State where
  clock : Nat
  rows : List LeaseRow
  mounts : List Mount
  waiting : List Setlk
  granted : Option Granted

inductive Action where
  | setlk (m resource owner start stop : Nat) (typ : LockType) (pid : Nat)
  | load (i : Nat)
  | commit
  | giveUp (i : Nat)
  | rollback
  | reload (m resource : Nat)
  | refreshOwner (m owner : Nat)
  | clearOwner (m owner : Nat)
  | snapshot (m : Nat)
  | beat (m : Nat)
  | deleteOwner (session owner : Nat)
  | deleteSession (session : Nat)
  | prune
  | tick (seconds : Nat)

namespace State

def unexpiredAt (s : State) (resource now : Nat) : List LeaseRow :=
  s.rows.filter fun row => row.resource == resource && decide (now < row.expiresAt)

def setMount (s : State) (m : Nat) (mount : Mount) : State :=
  { s with mounts := s.mounts.set m mount }

def beatHits (session resource : Nat) (record : PosixLockRecord) (row : LeaseRow) : Bool :=
  row.resource == resource && row.session == session &&
    row.record.owner == record.owner && row.record.start == record.start &&
    row.record.stop == record.stop

def heartbeat (s : State) (session ttl resource : Nat) (record : PosixLockRecord) : State :=
  { s with
    rows := s.rows.map fun row =>
      if beatHits session resource record row then { row with expiresAt := s.clock + ttl }
      else row }

def replaceRows (s : State) (tx : Setlk) (payload : List PosixLockRecord) : List LeaseRow :=
  s.rows.filter (fun row => !(row.resource == tx.resource && row.holder == tx.holder)) ++
    payload.map fun record => ⟨tx.resource, tx.session, record, tx.now + max tx.ttl 1⟩

end State

open State

def step (s : State) : Action → Option State
  | .setlk m resource owner start stop typ pid =>
    match s.mounts[m]? with
    | some mount =>
      some { s.setMount m { mount with localOwners := owner :: mount.localOwners } with
        waiting := s.waiting ++
          [⟨mount.session, resource, owner, start, stop, typ, pid, mount.ttl, s.clock⟩] }
    | none => none
  | .load i =>
    match s.granted, s.waiting[i]? with
    | none, some tx =>
      let records := (s.unexpiredAt tx.resource tx.now).map LeaseRow.record
      -- an unreadable blob and a conflict both end the transaction without a change
      match if records.all validRecord then tx.ownerRecords records else none with
      | none => some { s with waiting := s.waiting.eraseIdx i }
      | some payload =>
        some { s with
          waiting := s.waiting.eraseIdx i
          granted := some ⟨tx, payload, s.clock⟩ }
    | _, _ => none
  | .commit =>
    match s.granted with
    | some g =>
      -- the columns are BIGINT
      if g.payload.all fun record =>
          record.start ≤ i64Max && record.stop.all fun stop => stop ≤ i64Max then
        some { s with rows := s.replaceRows g.tx g.payload, granted := none }
      else none
    | none => none
  | .giveUp i => some { s with waiting := s.waiting.eraseIdx i }
  | .rollback => some { s with granted := none }
  | .reload m resource =>
    match s.mounts[m]? with
    | some mount => some (s.setMount m (mount.storeRecords resource
        ((s.unexpiredAt resource s.clock).map LeaseRow.record)))
    | none => none
  | .refreshOwner m owner =>
    match s.mounts[m]? with
    | some mount => some (s.setMount m (mount.refreshOwner owner))
    | none => none
  | .clearOwner m owner =>
    match s.mounts[m]? with
    | some mount => some (s.setMount m (mount.clearOwner owner))
    | none => none
  | .snapshot m =>
    match s.mounts[m]? with
    | some mount => some (s.setMount m mount.snapshot)
    | none => none
  | .beat m =>
    match s.mounts[m]? with
    | some mount =>
      match mount.beats with
      | (resource, record) :: rest =>
        some ((s.heartbeat mount.session mount.ttl resource record).setMount m
          { mount with beats := rest })
      | [] => none
    | none => none
  | .deleteOwner session owner =>
    some { s with rows := s.rows.filter fun row => row.holder != (session, owner) }
  -- the trigger on `client_sessions` takes the wait-graph lock
  | .deleteSession session =>
    if s.granted.isNone then
      some { s with rows := s.rows.filter fun row => row.session != session }
    else none
  | .prune => some { s with rows := s.rows.filter fun row => decide (s.clock < row.expiresAt) }
  | .tick seconds => some { s with clock := s.clock + seconds }

def init (mounts : List (Nat × Nat)) : State :=
  ⟨0, [], mounts.map fun mount => ⟨mount.1, mount.2, [], [], []⟩, [], none⟩

/-- No two owners hold unexpired rows of one resource that conflict. -/
def Exclusive (s : State) : Prop :=
  ∀ a ∈ s.rows, ∀ b ∈ s.rows, a.resource = b.resource → a.holder ≠ b.holder →
    s.clock < a.expiresAt → s.clock < b.expiresAt → ¬ Conflicting a.record b.record

def Renewable (s : State) (row : LeaseRow) : Prop :=
  s.clock < row.expiresAt ∨
    ∀ other ∈ s.rows, other.resource = row.resource → other.holder ≠ row.holder →
      s.clock < other.expiresAt → ¬ Conflicting row.record other.record

instance (s : State) (row : LeaseRow) : Decidable (Renewable s row) :=
  inferInstanceAs (Decidable (_ ∨ _))

def loading (s : State) : Action → Option Setlk
  | .load i => s.waiting[i]?
  | _ => none

def renewing (s : State) : Action → List LeaseRow
  | .beat m =>
    match s.mounts[m]? with
    | some ⟨session, _, _, _, (resource, record) :: _⟩ =>
      s.rows.filter (beatHits session resource record)
    | _ => []
  | _ => []

/--
A transaction loads its owner's rows while they may still be renewed, and what
it loads under its owner key from another session stands in no conflict with
it; a heartbeat renews no row that has expired and been granted to another.
-/
def Timely (s : State) (a : Action) : Prop :=
  (∀ tx ∈ loading s a, ∀ row ∈ s.unexpiredAt tx.resource tx.now,
    row.record.owner = tx.owner → Renewable s row ∧
      (row.session ≠ tx.session → row.record.typ = .read ∧
        (tx.typ = .write → ¬ Conflicting tx.request row.record))) ∧
  ∀ row ∈ renewing s a, Renewable s row ∧
    (s.clock < row.expiresAt ∨ ∀ g ∈ s.granted, g.tx.resource = row.resource →
      g.tx.holder = row.holder)

instance (s : State) (a : Action) : Decidable (Timely s a) :=
  inferInstanceAs (Decidable (_ ∧ _))

/-! ## The invariant -/

def GrantedInv (s : State) (g : Granted) : Prop :=
  g.loadedAt ≤ s.clock ∧ ∀ record ∈ g.payload, record.owner = g.tx.owner ∧
    ∀ row ∈ s.rows, row.resource = g.tx.resource → row.holder ≠ g.tx.holder →
      g.loadedAt < row.expiresAt → ¬ Conflicting record row.record

structure Inv (s : State) : Prop where
  exclusive : Exclusive s
  waiting : ∀ tx ∈ s.waiting, tx.now ≤ s.clock
  granted : ∀ g ∈ s.granted, GrantedInv s g

lemma inv_init (mounts : List (Nat × Nat)) : Inv (init mounts) where
  exclusive := by simp [Exclusive, init]
  waiting := by simp [init]
  granted := by simp [init]

variable {row : LeaseRow} {s : State} {record : PosixLockRecord}

lemma mem_unexpiredAt {resource now : Nat} : row ∈ s.unexpiredAt resource now ↔
      row ∈ s.rows ∧ row.resource = resource ∧ now < row.expiresAt := by
  simp [State.unexpiredAt]

lemma Renewable.not_conflicting (h : Exclusive s) {row other : LeaseRow}
    (hrow : row ∈ s.rows) (hother : other ∈ s.rows) (hrenew : Renewable s row)
    (hresource : other.resource = row.resource) (hholder : other.holder ≠ row.holder)
    (hclock : s.clock < other.expiresAt) : ¬ Conflicting row.record other.record := by
  obtain hunexpired | hnone := hrenew
  · exact h row hrow other hother hresource.symm hholder.symm hunexpired hclock
  · exact hnone other hother hresource hholder hclock

lemma not_conflicting_of_read {a b : PosixLockRecord} (ha : a.typ = .read)
    (hb : b.typ = .read) : ¬ Conflicting a b := by
  rintro ⟨-, hwrite⟩
  simp [ha, hb] at hwrite

lemma Inv.shrink {s s' : State} (h : Inv s) (hclock : s.clock ≤ s'.clock)
    (hrows : ∀ row ∈ s'.rows, row ∈ s.rows)
    (hwaiting : ∀ tx ∈ s'.waiting, tx ∈ s.waiting ∨ tx.now ≤ s'.clock)
    (hgranted : ∀ g ∈ s'.granted, g ∈ s.granted) : Inv s' where
  exclusive := fun a ha b hb hres hhold haexp hbexp =>
    h.exclusive a (hrows a ha) b (hrows b hb) hres hhold
      (Nat.lt_of_le_of_lt hclock haexp) (Nat.lt_of_le_of_lt hclock hbexp)
  waiting := by
    intro tx htx
    obtain hold | hnew := hwaiting tx htx
    · exact Nat.le_trans (h.waiting tx hold) hclock
    · exact hnew
  granted := by
    intro g hg
    obtain ⟨hloaded, hpayload⟩ := h.granted g (hgranted g hg)
    refine ⟨Nat.le_trans hloaded hclock, fun record hrecord => ?_⟩
    obtain ⟨howner, hrow⟩ := hpayload record hrecord
    exact ⟨howner, fun row hmem => hrow row (hrows row hmem)⟩

lemma mem_ownerRecords {tx : Setlk} {records payload : List PosixLockRecord}
    (h : tx.ownerRecords records = some payload) (hmem : record ∈ payload) :
    record.owner = tx.owner ∧ ((∃ whole ∈ records, Fragment record whole) ∨
        (record = tx.request ∧ tx.typ ≠ .unlock ∧
          lockConflict records tx.owner tx.typ tx.start tx.stop = none)) := by
  unfold Setlk.ownerRecords at h
  split at h
  · cases h
  · rename_i hfree
    cases h
    obtain ⟨hupdated, howner⟩ := List.mem_filter.mp hmem
    refine ⟨by simpa using howner, ?_⟩
    obtain hfragment | hreplacement := fragment_of_mem_updateOwnerLockRange hupdated
    · exact .inl hfragment
    · split at hreplacement
      · rename_i htyp
        refine .inr ⟨(Option.some.inj hreplacement).symm, htyp, ?_⟩
        simpa [htyp] using hfree
      · cases hreplacement

lemma Inv.grantedInv (h : Inv s) {tx : Setlk} (hnow : tx.now ≤ s.clock)
    (hguard : ∀ row ∈ s.unexpiredAt tx.resource tx.now, row.record.owner = tx.owner →
      Renewable s row ∧ (row.session ≠ tx.session → row.record.typ = .read ∧
        (tx.typ = .write → ¬ Conflicting tx.request row.record)))
    (hvalid : ∀ row ∈ s.unexpiredAt tx.resource tx.now, row.record.typ ≠ .unlock)
    {payload : List PosixLockRecord} (hpayload : tx.ownerRecords
      ((s.unexpiredAt tx.resource tx.now).map LeaseRow.record) = some payload) :
    GrantedInv s ⟨tx, payload, s.clock⟩ := by
  refine ⟨le_rfl, fun record hrecord => ?_⟩
  obtain ⟨howner, horigin⟩ := mem_ownerRecords hpayload hrecord
  refine ⟨howner, fun row hrow hresource hholder hunexpired => ?_⟩
  have hloaded : row ∈ s.unexpiredAt tx.resource tx.now :=
    mem_unexpiredAt.mpr ⟨hrow, hresource, Nat.lt_of_le_of_lt hnow hunexpired⟩
  have hsession : row.record.owner = tx.owner → row.session ≠ tx.session := by
    intro hkey hsame
    exact hholder (by simp [LeaseRow.holder, Setlk.holder, hkey, hsame])
  obtain ⟨whole, hwhole, hfragment⟩ | ⟨rfl, htyp, hfree⟩ := horigin
  · obtain ⟨own, hown, rfl⟩ := List.mem_map.mp hwhole
    have hkey : own.record.owner = tx.owner := hfragment.owner ▸ howner
    obtain ⟨hrenew, hforeign⟩ := hguard own hown hkey
    obtain ⟨hmem, hres, -⟩ := mem_unexpiredAt.mp hown
    refine fun hconflict => ?_
    have hconflict := hfragment.conflicting hconflict
    by_cases hsame : row.holder = own.holder
    · -- both rows belong to one foreign session that uses the same owner key
      obtain ⟨hses, hkeys⟩ : row.session = own.session ∧
          row.record.owner = own.record.owner := by
        simpa [LeaseRow.holder] using hsame
      have hrowforeign := hsession (hkeys.trans hkey)
      exact not_conflicting_of_read (hforeign (hses ▸ hrowforeign)).1
        ((hguard row hloaded (hkeys.trans hkey)).2 hrowforeign).1 hconflict
    · exact hrenew.not_conflicting h.exclusive hmem hrow (hresource.trans hres.symm) hsame
        hunexpired hconflict
  · by_cases hkey : row.record.owner = tx.owner
    · obtain ⟨hread, hwrite⟩ := (hguard row hloaded hkey).2 (hsession hkey)
      refine fun hconflict => ?_
      obtain hreq | hrow := hconflict.2
      · exact hwrite hreq hconflict
      · simp [hread] at hrow
    · exact not_conflicting_of_lockConflict_eq_none hfree
        (List.mem_map.mpr ⟨row, hloaded, rfl⟩) hkey (hvalid row hloaded) htyp tx.pid

lemma mem_replaceRows {tx : Setlk} {payload : List PosixLockRecord}
    (h : row ∈ s.replaceRows tx payload) :
    (row ∈ s.rows ∧ (row.resource = tx.resource → row.holder ≠ tx.holder)) ∨
      (row.resource = tx.resource ∧ row.session = tx.session ∧ row.record ∈ payload) := by
  simp only [State.replaceRows, List.mem_append, List.mem_filter, List.mem_map] at h
  obtain ⟨hmem, hother⟩ | ⟨record, hrecord, rfl⟩ := h
  · refine .inl ⟨hmem, fun hres hhold => ?_⟩
    simp [hres, hhold] at hother
  · exact .inr ⟨rfl, rfl, hrecord⟩

lemma Inv.commit (h : Inv s) {g : Granted} (hg : s.granted = some g) :
    Inv { s with rows := s.replaceRows g.tx g.payload, granted := none } := by
  obtain ⟨hloaded, hpayload⟩ := h.granted g hg
  -- a stored row against a row that stays
  have hnew : ∀ new old : LeaseRow, new.record ∈ g.payload → old ∈ s.rows →
      old.resource = g.tx.resource → old.holder ≠ g.tx.holder →
      s.clock < old.expiresAt → ¬ Conflicting new.record old.record := by
    intro new old hmem hold hres hhold hexp
    exact (hpayload _ hmem).2 old hold hres hhold (Nat.lt_of_le_of_lt hloaded hexp)
  have hsame : ∀ row : LeaseRow, row.session = g.tx.session → row.record ∈ g.payload →
      row.holder = g.tx.holder := by
    intro row hsession hmem
    simp [LeaseRow.holder, Setlk.holder, hsession, (hpayload _ hmem).1]
  refine ⟨?_, h.waiting, fun _ hnone => by cases hnone⟩
  intro a ha b hb hres hhold haexp hbexp
  obtain ⟨haold, hakeep⟩ | ⟨hares, hases, hanew⟩ := mem_replaceRows ha <;>
    obtain ⟨hbold, hbkeep⟩ | ⟨hbres, hbses, hbnew⟩ := mem_replaceRows hb
  · exact h.exclusive a haold b hbold hres hhold haexp hbexp
  · intro hconflict
    exact hnew b a hbnew haold (hres.trans hbres) (hakeep (hres.trans hbres)) haexp
      hconflict.symm
  · exact hnew a b hanew hbold (hres.symm.trans hares) (hbkeep (hres.symm.trans hares)) hbexp
  · exact absurd ((hsame a hases hanew).trans (hsame b hbses hbnew).symm) hhold

lemma mem_heartbeat {session ttl resource : Nat}
    (h : row ∈ (s.heartbeat session ttl resource record).rows) :
    ∃ old ∈ s.rows, old.resource = row.resource ∧ old.holder = row.holder ∧
      old.record = row.record ∧ (old = row ∨ beatHits session resource record old = true) := by
  obtain ⟨old, hold, rfl⟩ := List.mem_map.mp h
  refine ⟨old, hold, ?_⟩
  split <;> simp_all [LeaseRow.holder]

lemma Inv.heartbeat (h : Inv s) {session resource : Nat} (ttl : Nat)
   
    (hguard : ∀ row ∈ s.rows, beatHits session resource record row = true →
      Renewable s row ∧ (s.clock < row.expiresAt ∨ ∀ g ∈ s.granted,
        g.tx.resource = row.resource → g.tx.holder = row.holder)) :
    Inv (s.heartbeat session ttl resource record) := by
  refine ⟨?_, h.waiting, ?_⟩
  · intro a ha b hb hres hhold haexp hbexp
    obtain ⟨olda, holda, hares, hahold, harec, ha⟩ := mem_heartbeat ha
    obtain ⟨oldb, holdb, hbres, hbhold, hbrec, hb⟩ := mem_heartbeat hb
    have hresold : olda.resource = oldb.resource := by rw [hares, hbres, hres]
    have hholdold : olda.holder ≠ oldb.holder := by rw [hahold, hbhold]; exact hhold
    rw [← harec, ← hbrec]
    obtain rfl | hahit := ha
    · obtain rfl | hbhit := hb
      · exact h.exclusive olda holda oldb holdb hresold hholdold haexp hbexp
      · intro hconflict
        exact (hguard oldb holdb hbhit).1.not_conflicting h.exclusive holdb holda hresold
          hholdold haexp hconflict.symm
    · obtain rfl | hbhit := hb
      · exact (hguard olda holda hahit).1.not_conflicting h.exclusive holda holdb
          hresold.symm hholdold.symm hbexp
      · -- one key names one owner
        simp only [beatHits, Bool.and_eq_true, beq_iff_eq] at hahit hbhit
        exact absurd (by simp [LeaseRow.holder, hahit.1.1, hbhit.1.1]) hholdold
  · intro g hg
    obtain ⟨hloaded, hpayload⟩ := h.granted g hg
    refine ⟨hloaded, fun new hnew => ⟨(hpayload new hnew).1, ?_⟩⟩
    intro row hrow hres hhold hexp
    obtain ⟨old, hold, hores, hohold, horec, hkeep⟩ := mem_heartbeat hrow
    rw [← horec]
    refine (hpayload new hnew).2 old hold (hores.trans hres) (hohold ▸ hhold) ?_
    obtain rfl | hhit := hkeep
    · exact hexp
    · obtain hunexpired | hfree := (hguard old hold hhit).2
      · exact Nat.lt_of_le_of_lt hloaded hunexpired
      · exact absurd (hfree g hg (hores.trans hres).symm).symm (hohold ▸ hhold)

lemma Inv.setMount (h : Inv s) (m : Nat) (mount : Mount) : Inv (s.setMount m mount) :=
  h.shrink le_rfl (fun _ hrow => hrow) (fun _ htx => .inl htx) (fun _ hg => hg)

lemma Inv.load {s s' : State} (h : Inv s) {i : Nat} (hguard : Timely s (.load i))
    (hstep : step s (.load i) = some s') : Inv s' := by
  simp only [step] at hstep
  split at hstep
  · rename_i tx hfree htx
    have herase : ∀ waiting ∈ s.waiting.eraseIdx i, waiting ∈ s.waiting :=
      fun _ hmem => List.mem_of_mem_eraseIdx hmem
    split at hstep
    · cases hstep
      exact h.shrink le_rfl (fun _ hrow => hrow) (fun tx htx => .inl (herase tx htx))
        (fun _ hg => hg)
    · rename_i payload hpayload
      cases hstep
      split at hpayload
      · rename_i hvalid
        refine ⟨h.exclusive, fun tx htx => h.waiting tx (herase tx htx), fun g hg => ?_⟩
        cases hg
        refine h.grantedInv (h.waiting tx (List.mem_of_getElem? htx)) (hguard.1 tx htx) ?_ hpayload
        intro row hrow
        have hrecord := List.all_eq_true.mp hvalid row.record (List.mem_map.mpr ⟨row, hrow, rfl⟩)
        simp only [validRecord, Bool.and_eq_true, bne_iff_ne, ne_eq] at hrecord
        exact hrecord.1.1
      · cases hpayload
  · cases hstep

lemma Inv.beat {s s' : State} (h : Inv s) {m : Nat} (hguard : Timely s (.beat m))
    (hstep : step s (.beat m) = some s') : Inv s' := by
  simp only [step] at hstep
  split at hstep
  · rename_i mount hmount
    split at hstep
    · rename_i resource record rest hbeats
      cases hstep
      refine (h.heartbeat mount.ttl fun row hrow hhit => hguard.2 row ?_).setMount m _
      obtain ⟨session, ttl, posixLocks, localOwners, beats⟩ := mount
      obtain rfl : beats = _ := hbeats
      simp [renewing, hmount, hrow, hhit]
    · cases hstep
  · cases hstep

lemma Inv.step {s s' : State} {a : Action} (h : Inv s) (hguard : Timely s a)
    (hstep : step s a = some s') : Inv s' := by
  cases a with
  | load i => exact h.load hguard hstep
  | beat m => exact h.beat hguard hstep
  | setlk m resource owner start stop typ pid =>
    simp only [Locks.step] at hstep
    split at hstep <;> cases hstep
    refine h.shrink le_rfl (fun _ hrow => hrow) (fun tx htx => ?_) (fun _ hg => hg)
    obtain hold | hnew := List.mem_append.mp htx
    · exact .inl hold
    · obtain rfl := List.mem_singleton.mp hnew
      exact .inr le_rfl
  | commit =>
    simp only [Locks.step] at hstep
    split at hstep
    · split at hstep <;> cases hstep
      exact h.commit ‹_›
    · cases hstep
  | giveUp i =>
    cases hstep
    exact h.shrink le_rfl (fun _ hrow => hrow)
      (fun _ htx => .inl (List.mem_of_mem_eraseIdx htx)) (fun _ hg => hg)
  | rollback =>
    cases hstep
    exact h.shrink le_rfl (fun _ hrow => hrow) (fun _ htx => .inl htx) (fun _ hg => by cases hg)
  | reload m resource | refreshOwner m owner | clearOwner m owner | snapshot m =>
    simp only [Locks.step] at hstep
    split at hstep <;> cases hstep
    exact h.setMount m _
  | deleteOwner session owner | prune =>
    cases hstep
    exact h.shrink le_rfl (fun _ hrow => List.mem_of_mem_filter hrow) (fun _ htx => .inl htx)
      (fun _ hg => hg)
  | deleteSession session =>
    simp only [Locks.step] at hstep
    split at hstep <;> cases hstep
    exact h.shrink le_rfl (fun _ hrow => List.mem_of_mem_filter hrow) (fun _ htx => .inl htx)
      (fun _ hg => hg)
  | tick seconds =>
    cases hstep
    exact h.shrink (Nat.le_add_right _ _) (fun _ hrow => hrow) (fun _ htx => .inl htx)
      (fun _ hg => hg)

/-- Range locks of different owners exclude each other in every run whose
transactions and heartbeats come in time. -/
theorem range_locks_exclusive (mounts : List (Nat × Nat)) (trace : List Action) (s : State)
    (timely : GuardedRun.Along step Timely (init mounts) trace)
    (hrun : GuardedRun.run step (init mounts) trace = some s) : Exclusive s :=
  (GuardedRun.run_invariant (fun _ _ _ h hguard hstep => h.step hguard hstep)
    (inv_init mounts) timely hrun).exclusive

def lockBytes (m owner : Nat) : List Action :=
  [.setlk m 7 owner 0 9 .write 1, .load 0, .commit, .reload m 7]

def timelyTrace : List Action :=
  lockBytes 0 100 ++ [.snapshot 0, .tick 4, .beat 0, .tick 11] ++ lockBytes 1 200

theorem range_locks_exclusive_timely :
    ∃ s, GuardedRun.run step (init [(1, 10), (2, 10)]) timelyTrace = some s ∧
      s.rows.length = 2 ∧ Exclusive s := by
  refine ⟨_, rfl, by decide, ?_⟩
  exact range_locks_exclusive [(1, 10), (2, 10)] timelyTrace _ (by decide) rfl

/-- The first owner's heartbeat comes after its lease was granted to the second. -/
def lateHeartbeatTrace : List Action :=
  lockBytes 0 100 ++ [.tick 11] ++ lockBytes 1 200 ++ [.snapshot 0, .beat 0]

theorem late_heartbeat_revives_lock :
    ∃ s, GuardedRun.run step (init [(1, 10), (2, 10)]) lateHeartbeatTrace = some s ∧
      ¬ Exclusive s := by
  refine ⟨_, rfl, fun h => ?_⟩
  exact h ⟨7, 1, ⟨100, .write, 0, some 9, 1⟩, 21⟩ (by decide)
    ⟨7, 2, ⟨200, .write, 0, some 9, 1⟩, 21⟩ (by decide) rfl (by decide) (by decide) (by decide)
    (by decide)

-- A transaction that began before its owner's rows expired stores them again.
example : ∃ s, GuardedRun.run step (init [(1, 10), (2, 10)])
    (lockBytes 0 100 ++ [.tick 9, .setlk 0 7 100 50 59 .write 1, .tick 2,
      .setlk 1 7 200 0 9 .write 1, .load 1, .commit, .load 0, .commit]) = some s ∧
      ¬ Exclusive s :=
  ⟨_, rfl, fun h => h ⟨7, 1, ⟨100, .write, 0, some 9, 1⟩, 19⟩ (by decide)
    ⟨7, 2, ⟨200, .write, 0, some 9, 1⟩, 21⟩ (by decide) rfl (by decide) (by decide) (by decide)
    (by decide)⟩

-- Two sessions that use one owner key do not see each other as owners.
example : ∃ s, GuardedRun.run step (init [(1, 10), (2, 10)])
    (lockBytes 0 100 ++ lockBytes 1 100) = some s ∧ ¬ Exclusive s :=
  ⟨_, rfl, fun h => h ⟨7, 1, ⟨100, .write, 0, some 9, 1⟩, 10⟩ (by decide)
    ⟨7, 2, ⟨100, .write, 0, some 9, 1⟩, 10⟩ (by decide) rfl (by decide) (by decide) (by decide)
    (by decide)⟩

end Fod.Locks
