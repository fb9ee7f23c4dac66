import Fod.Quota.Model

/-!
# The quota is never exceeded

A transaction that changed blocks checks the quota after its last change, under the
lock, and nobody else can commit blocks until it ends.
-/

namespace Fod.Quota

variable {cfg : Config} {s s' : State} {tx : Tx} {id : Nat}

def Within (cfg : Config) (tables : Tables) : Prop :=
  tables.blocks.card * cfg.blockSize ≤ cfg.maxFsSizeBytes

def Disciplined : Bool → Bool → List Statement → Prop
  | _, checked, [] => checked = true
  | locked, _, .change _ :: rest => Disciplined locked false rest
  | _, checked, .lockPayloadQuota :: rest => Disciplined true checked rest
  | locked, _, .enforcePayloadQuota _ :: rest => locked = true ∧ Disciplined locked true rest
  | locked, checked, .refreshPayloadReservation _ :: rest => Disciplined locked checked rest
  | locked, checked, .deleteExpired :: rest => Disciplined locked checked rest
  | locked, checked, .requireCapacity _ :: rest => Disciplined locked checked rest
  | locked, checked, .insertReservation _ _ :: rest => Disciplined locked checked rest
  | locked, checked, .deleteReservation _ :: rest => Disciplined locked checked rest

variable {rest : List Statement} {writes : List Write}

lemma disciplined_changes {locked checked : Bool} (changes : List BlockChange)
    (h : ∀ checked, Disciplined locked checked rest) :
    Disciplined locked checked (changes.map .change ++ rest) := by
  induction changes generalizing checked with
  | nil => exact h checked
  | cons change changes ih => exact ih

lemma disciplined_program (locked : Bool) (transaction : Transaction) :
    Disciplined locked true transaction.program := by
  cases transaction with
  | persistFileBlocks changes token =>
    cases token with
    | none => exact disciplined_changes changes fun _ => ⟨rfl, rfl⟩
    | some token =>
      have hrest := @disciplined_changes [.enforcePayloadQuota (some token)] true true changes
        fun _ => ⟨rfl, rfl⟩
      simpa [Transaction.program, Disciplined] using hrest
  | persistFileBlocksFromPath changes => exact disciplined_changes changes fun _ => ⟨rfl, rfl⟩
  | punchHoleKeepSize changes =>
    cases changes with
    | none => rfl
    | some changes => exact disciplined_changes changes fun _ => ⟨rfl, rfl⟩
  | reservePayloadCapacity token bytes =>
    rw [Transaction.program]
    split
    · rfl
    · rfl
  | releasePayloadCapacityReservation token => rfl

def NoBlocks (writes : List Write) : Prop := ∀ change, .block change ∉ writes

def Checked (cfg : Config) (s : State) (id : Nat) (tx : Tx) : Prop :=
  NoBlocks tx.writes ∨ (s.lock = some id ∧ Within cfg (tx.view s.tables))

def TxOk (cfg : Config) (s : State) (id : Nat) (tx : Tx) : Prop :=
  ∃ checked, Disciplined (decide (s.lock = some id)) checked tx.program ∧
    (checked = true → Checked cfg s id tx)

structure Inv (cfg : Config) (s : State) : Prop where
  within : Within cfg s.tables
  txs : ∀ {id tx}, s.txs.lookup id = some tx → TxOk cfg s id tx

lemma blocks_foldl_of_noBlocks (h : NoBlocks writes) (tables : Tables) :
    (writes.foldl Write.apply tables).blocks = tables.blocks := by
  induction writes generalizing tables with
  | nil => rfl
  | cons write writes ih =>
    have hrest : NoBlocks writes := fun change hmem => h change (List.mem_cons_of_mem _ hmem)
    rw [List.foldl_cons, ih hrest]
    cases write with
    | block change => exact absurd List.mem_cons_self (h change)
    | setReservation token reservation => rfl
    | deleteReservation token => rfl
    | deleteExpired now => rfl

lemma blocks_foldl_congr {tables tables' : Tables} (h : tables.blocks = tables'.blocks)
    (writes : List Write) :
    (writes.foldl Write.apply tables).blocks = (writes.foldl Write.apply tables').blocks := by
  induction writes generalizing tables tables' with
  | nil => exact h
  | cons write writes ih =>
    apply ih
    cases write with
    | block change => exact congrArg (fun blocks => change.apply blocks) h
    | setReservation token reservation => exact h
    | deleteReservation token => exact h
    | deleteExpired now => exact h

lemma TxOk.congr (h : TxOk cfg s id tx) (hlock : s'.lock = some id ↔ s.lock = some id)
    (hblocks : s.lock = some id → s'.tables.blocks = s.tables.blocks) : TxOk cfg s' id tx := by
  obtain ⟨checked, hdisciplined, hchecked⟩ := h
  refine ⟨checked, by rwa [decide_eq_decide.mpr hlock], fun hc => ?_⟩
  rcases hchecked hc with hnone | ⟨hheld, hwithin⟩
  · exact .inl hnone
  · refine .inr ⟨hlock.mpr hheld, ?_⟩
    rw [Within, Tx.view, blocks_foldl_congr (hblocks hheld)]
    exact hwithin

lemma Inv.ended (h : Inv cfg s) {tables : Tables} (hwithin : Within cfg tables)
    (hsame : s.lock = some id ∨ tables.blocks = s.tables.blocks) :
    Inv cfg ({ s with tables := tables }.ended id) := by
  refine ⟨hwithin, fun {id' tx} htx => ?_⟩
  obtain ⟨hne, htx⟩ := Table.lookup_erase_cases htx
  refine (h.txs htx).congr ?_ fun hheld => ?_
  · rw [State.ended]
    dsimp only
    split
    next hown => simp [hown, Ne.symm hne]
    next => rfl
  · rcases hsame with hown | hblocks
    · rw [hown, Option.some.injEq] at hheld
      exact absurd hheld.symm hne
    · exact hblocks

lemma exec_noBlocks {now : Nat} {view : Tables} {statement : Statement}
    (h : statement.exec cfg now view = .ok writes) (hne : ∀ change, statement ≠ .change change) :
    NoBlocks writes := by
  intro change hmem
  cases statement with
  | change change' => exact absurd rfl (hne change')
  | lockPayloadQuota =>
    cases h
    cases hmem
  | refreshPayloadReservation token =>
    simp only [Statement.exec] at h
    split at h
    · cases h
    · split at h
      · split at h
        · cases h
        · cases h
          simp at hmem
      · cases h
        simp at hmem
  | enforcePayloadQuota excluded =>
    simp only [Statement.exec] at h
    split at h
    · cases h
      cases hmem
    · split at h
      · cases h
      · cases h
        cases hmem
  | deleteExpired =>
    simp only [Statement.exec] at h
    split at h
    · cases h
      cases hmem
    · cases h
      simp at hmem
  | requireCapacity bytes =>
    simp only [Statement.exec] at h
    split at h
    · cases h
      cases hmem
    · split at h
      · cases h
      · cases h
        cases hmem
  | insertReservation token bytes =>
    simp only [Statement.exec] at h
    split at h
    · cases h
      cases hmem
    · cases h
      simp at hmem
  | deleteReservation token =>
    cases h
    simp at hmem

lemma Checked.append {program : List Statement} {txs : Table Nat Tx}
    (h : Checked cfg s id tx) (hnone : NoBlocks writes) :
    Checked cfg { s with txs := txs } id ⟨tx.now, program, tx.writes ++ writes⟩ := by
  rcases h with hno | ⟨hlock, hwithin⟩
  · refine .inl fun change hmem => ?_
    rcases List.mem_append.mp hmem with hold | hnew
    · exact hno change hold
    · exact hnone change hnew
  · refine .inr ⟨hlock, ?_⟩
    rw [Within, Tx.view, List.foldl_append, blocks_foldl_of_noBlocks hnone]
    exact hwithin

lemma within_of_enforce (hquota : 0 < cfg.maxFsSizeBytes) {now : Nat} {view : Tables}
    {excluded : Option Nat}
    (h : (Statement.enforcePayloadQuota excluded).exec cfg now view = .ok writes) :
    writes = [] ∧ Within cfg view := by
  simp only [Statement.exec, Config.quotaBytes, if_pos hquota] at h
  split at h
  · cases h
  next hle =>
    cases h
    refine ⟨rfl, ?_⟩
    rw [persistedAndReservedPayloadBytes] at hle
    rw [Within]
    omega

lemma TxOk.execute (hquota : 0 < cfg.maxFsSizeBytes) (h : TxOk cfg s id tx)
    {statement : Statement} (hprogram : tx.program = statement :: rest)
    (hlock : statement ≠ .lockPayloadQuota)
    (hexec : statement.exec cfg tx.now (tx.view s.tables) = .ok writes) (txs : Table Nat Tx) :
    TxOk cfg { s with txs := txs } id ⟨tx.now, rest, tx.writes ++ writes⟩ := by
  obtain ⟨checked, hdisciplined, hchecked⟩ := h
  rw [hprogram] at hdisciplined
  cases statement with
  | change change => exact ⟨false, hdisciplined, fun hc => by cases hc⟩
  | lockPayloadQuota => exact absurd rfl hlock
  | enforcePayloadQuota excluded =>
    obtain ⟨rfl, hwithin⟩ := within_of_enforce hquota hexec
    refine ⟨true, hdisciplined.2, fun _ => .inr ⟨of_decide_eq_true hdisciplined.1, ?_⟩⟩
    rw [List.append_nil]
    exact hwithin
  | refreshPayloadReservation token =>
    exact ⟨checked, hdisciplined, fun hc =>
      (hchecked hc).append (exec_noBlocks hexec fun _ h => by cases h)⟩
  | deleteExpired =>
    exact ⟨checked, hdisciplined, fun hc =>
      (hchecked hc).append (exec_noBlocks hexec fun _ h => by cases h)⟩
  | requireCapacity bytes =>
    exact ⟨checked, hdisciplined, fun hc =>
      (hchecked hc).append (exec_noBlocks hexec fun _ h => by cases h)⟩
  | insertReservation token bytes =>
    exact ⟨checked, hdisciplined, fun hc =>
      (hchecked hc).append (exec_noBlocks hexec fun _ h => by cases h)⟩
  | deleteReservation token =>
    exact ⟨checked, hdisciplined, fun hc =>
      (hchecked hc).append (exec_noBlocks hexec fun _ h => by cases h)⟩

lemma Inv.setTx (h : Inv cfg s) (htx : TxOk cfg { s with txs := s.txs.insert id tx } id tx) :
    Inv cfg { s with txs := s.txs.insert id tx } := by
  refine ⟨h.within, fun {id' tx'} hlookup => ?_⟩
  rcases Table.lookup_insert_cases hlookup with ⟨rfl, rfl⟩ | ⟨_, hold⟩
  · exact htx
  · exact (h.txs hold).congr Iff.rfl fun _ => rfl

lemma Inv.takeLock (h : Inv cfg s) (htx : s.txs.lookup id = some tx)
    (hprogram : tx.program = .lockPayloadQuota :: rest) (hfree : s.lock = none ∨ s.lock = some id) :
    Inv cfg { s with lock := some id, txs := s.txs.insert id { tx with program := rest } } := by
  refine ⟨h.within, fun {id' tx'} hlookup => ?_⟩
  rcases Table.lookup_insert_cases hlookup with ⟨rfl, rfl⟩ | ⟨hne, hold⟩
  · obtain ⟨checked, hdisciplined, hchecked⟩ := h.txs htx
    rw [hprogram] at hdisciplined
    refine ⟨checked, by rw [decide_eq_true rfl]; exact hdisciplined, fun hc => ?_⟩
    rcases hchecked hc with hnone | ⟨_, hwithin⟩
    · exact .inl hnone
    · exact .inr ⟨rfl, hwithin⟩
  · refine (h.txs hold).congr ?_ fun _ => rfl
    dsimp only
    constructor
    · intro hsame
      exact absurd (Option.some.inj hsame).symm hne
    · intro hheld
      rcases hfree with hnone | hown
      · rw [hnone] at hheld
        cases hheld
      · rw [hown, Option.some.injEq] at hheld
        exact absurd hheld.symm hne

lemma Inv.step (hquota : 0 < cfg.maxFsSizeBytes) (h : Inv cfg s) {a : Action}
    (hs : Quota.step cfg s a = some s') : Inv cfg s' := by
  cases a with
  | start id transaction =>
    rw [Quota.step] at hs
    split at hs
    · cases hs
    · cases hs
      exact h.setTx ⟨true, disciplined_program _ transaction, fun _ => .inl fun _ hmem => by cases hmem⟩
  | exec id =>
    obtain ⟨tx, htx, hs⟩ := Option.bind_eq_some_iff.mp hs
    split at hs
    · cases hs
    next rest hprogram =>
      split at hs
      · next hfree =>
        cases hs
        exact h.takeLock htx hprogram hfree
      · cases hs
    next statement rest hlock hprogram =>
      cases hs
      rw [State.execute]
      split
      next => exact h.ended h.within (.inr rfl)
      next writes hexec => exact h.setTx ((h.txs htx).execute hquota hprogram hlock hexec _)
  | commit id =>
    obtain ⟨tx, htx, hs⟩ := Option.bind_eq_some_iff.mp hs
    split at hs
    next hprogram =>
      cases hs
      obtain ⟨checked, hdisciplined, hchecked⟩ := h.txs htx
      rw [hprogram] at hdisciplined
      rcases hchecked hdisciplined with hnone | ⟨hheld, hwithin⟩
      · have hblocks := blocks_foldl_of_noBlocks hnone s.tables
        refine h.ended ?_ (.inr hblocks)
        rw [Within, Tx.view, hblocks]
        exact h.within
      · exact h.ended hwithin (.inl hheld)
    · cases hs
  | rollback id =>
    obtain ⟨tx, _, hs⟩ := Option.bind_eq_some_iff.mp hs
    cases hs
    exact h.ended h.within (.inr rfl)
  | tick seconds =>
    cases hs
    exact ⟨h.within, fun htx => (h.txs htx).congr Iff.rfl fun _ => rfl⟩

def State.init (tables : Tables) (clock : Nat) : State := ⟨tables, clock, none, ∅⟩

theorem payload_stays_within_quota (cfg : Config) (hquota : 0 < cfg.maxFsSizeBytes) (tables : Tables)
    (clock : Nat) (hwithin : Within cfg tables) {trace : List Action} {s : State}
    (hrun : GuardedRun.run (Quota.step cfg) (State.init tables clock) trace = some s) :
    s.tables.blocks.card * cfg.blockSize ≤ cfg.maxFsSizeBytes := by
  have hinit : Inv cfg (State.init tables clock) := ⟨hwithin, fun htx => by cases htx⟩
  exact (GuardedRun.run_invariant_of_step (fun _ _ _ h hs => h.step hquota hs) hinit hrun).within

def twoPersists : List Action :=
  [.start 1 (.persistFileBlocks [.insert (1, 0)] none), .start 2 (.persistFileBlocks [.insert (2, 0)] none),
    .exec 1, .exec 2, .exec 1, .exec 1, .commit 1, .exec 2, .exec 2]

theorem payload_stays_within_quota_twoPersists :
    ∃ s, GuardedRun.run (Quota.step ⟨8, 8⟩) (State.init ⟨∅, ∅⟩ 0) twoPersists = some s ∧
      s.tables.blocks = {(1, 0)} ∧ s.tables.blocks.card * 8 ≤ 8 := by
  have hrun : ∃ s, GuardedRun.run (Quota.step ⟨8, 8⟩) (State.init ⟨∅, ∅⟩ 0) twoPersists = some s ∧
      s.tables.blocks = {(1, 0)} := ⟨_, rfl, rfl⟩
  obtain ⟨s, hs, hblocks⟩ := hrun
  exact ⟨s, hs, hblocks, payload_stays_within_quota ⟨8, 8⟩ (by decide) ⟨∅, ∅⟩ 0 (Nat.zero_le _) hs⟩

end Fod.Quota
