import Fod.Lib.GuardedRun
import Fod.Lib.Table

/-!
# The payload quota

Transactions that store payload count the rows of `data_blocks` and the live
reservations before they commit.  They do so under an advisory lock that they keep
until they end; every statement sees what is committed and its own changes.
-/

namespace Fod.Quota

abbrev BlockKey := Nat × Nat

structure Config where
  maxFsSizeBytes : Nat
  blockSize : Nat

def Config.quotaBytes (cfg : Config) : Option Nat :=
  if 0 < cfg.maxFsSizeBytes then some cfg.maxFsSizeBytes else none

structure Reservation where
  reservedBytes : Nat
  expiresAt : Nat
  deriving DecidableEq

structure Tables where
  blocks : Finset BlockKey
  reservations : Table Nat Reservation
  deriving DecidableEq

inductive QuotaError where
  | storageQuotaExceeded
  | reservationMissing
  deriving DecidableEq

def reservationSeconds : Nat := 3600

inductive BlockChange where
  | insert (key : BlockKey)
  | delete (key : BlockKey)

inductive Write where
  | block (change : BlockChange)
  | setReservation (token : Nat) (reservation : Reservation)
  | deleteReservation (token : Nat)
  | deleteExpired (now : Nat)

def BlockChange.apply (blocks : Finset BlockKey) : BlockChange → Finset BlockKey
  | .insert key => Insert.insert key blocks
  | .delete key => blocks.erase key

def Write.apply (tables : Tables) : Write → Tables
  | .block change => { tables with blocks := change.apply tables.blocks }
  | .setReservation token reservation =>
    { tables with reservations := tables.reservations.insert token reservation }
  | .deleteReservation token => { tables with reservations := tables.reservations.erase token }
  | .deleteExpired now =>
    { tables with reservations := tables.reservations.keep fun _ r => decide (now < r.expiresAt) }

def Reservation.counted (now : Nat) (excluded : Option Nat) (token : Nat) (r : Reservation) : Nat :=
  if now < r.expiresAt ∧ some token ≠ excluded then r.reservedBytes else 0

def persistedAndReservedPayloadBytes (cfg : Config) (now : Nat) (tables : Tables)
    (excluded : Option Nat) : Nat :=
  tables.blocks.card * cfg.blockSize +
    tables.reservations.sumWith (Reservation.counted now excluded)

inductive Statement where
  | change (change : BlockChange)
  | lockPayloadQuota
  | refreshPayloadReservation (token : Nat)
  | enforcePayloadQuota (excluded : Option Nat)
  | deleteExpired
  | requireCapacity (bytes : Nat)
  | insertReservation (token bytes : Nat)
  | deleteReservation (token : Nat)

/-- What a statement of a transaction that started at `now` changes, if it succeeds.
Without a quota a reservation is neither checked nor made. -/
def Statement.exec (cfg : Config) (now : Nat) (view : Tables) :
    Statement → Except QuotaError (List Write)
  | .change c => .ok [.block c]
  | .lockPayloadQuota => .ok []
  | .refreshPayloadReservation token =>
    match view.reservations.lookup token with
    | none => .error .reservationMissing
    | some r =>
      match cfg.quotaBytes with
      | some quota =>
        if quota < persistedAndReservedPayloadBytes cfg now view (some token) + r.reservedBytes then
          .error .storageQuotaExceeded
        else .ok [.setReservation token { r with expiresAt := now + reservationSeconds }]
      | none => .ok [.setReservation token { r with expiresAt := now + reservationSeconds }]
  | .enforcePayloadQuota excluded =>
    match cfg.quotaBytes with
    | none => .ok []
    | some quota =>
      if quota < persistedAndReservedPayloadBytes cfg now view excluded then
        .error .storageQuotaExceeded
      else .ok []
  | .deleteExpired => if cfg.quotaBytes.isNone then .ok [] else .ok [.deleteExpired now]
  | .requireCapacity bytes =>
    match cfg.quotaBytes with
    | none => .ok []
    | some quota =>
      if quota < persistedAndReservedPayloadBytes cfg now view none + bytes then
        .error .storageQuotaExceeded
      else .ok []
  | .insertReservation token bytes =>
    if cfg.quotaBytes.isNone then .ok []
    else .ok [.setReservation token ⟨bytes, now + reservationSeconds⟩]
  | .deleteReservation token => .ok [.deleteReservation token]

/-- A persist, an import and a hole change any rows; a hole behind the end of the file
changes nothing and takes no lock. -/
inductive Transaction where
  | persistFileBlocks (changes : List BlockChange) (token : Option Nat)
  | persistFileBlocksFromPath (changes : List BlockChange)
  | punchHoleKeepSize (changes : Option (List BlockChange))
  | reservePayloadCapacity (token bytes : Nat)
  | releasePayloadCapacityReservation (token : Nat)

def Transaction.program : Transaction → List Statement
  | .persistFileBlocks changes none =>
    changes.map .change ++ [.lockPayloadQuota, .enforcePayloadQuota none]
  | .persistFileBlocks changes (some token) =>
    [.lockPayloadQuota, .refreshPayloadReservation token] ++ changes.map .change ++
      [.enforcePayloadQuota (some token)]
  | .persistFileBlocksFromPath changes =>
    changes.map .change ++ [.lockPayloadQuota, .enforcePayloadQuota none]
  | .punchHoleKeepSize none => []
  | .punchHoleKeepSize (some changes) =>
    changes.map .change ++ [.lockPayloadQuota, .enforcePayloadQuota none]
  | .reservePayloadCapacity token bytes =>
    if bytes = 0 then []
    else [.lockPayloadQuota, .deleteExpired, .requireCapacity bytes, .insertReservation token bytes]
  | .releasePayloadCapacityReservation token => [.deleteReservation token]

structure Tx where
  now : Nat
  program : List Statement
  writes : List Write

structure State where
  tables : Tables
  clock : Nat
  lock : Option Nat
  txs : Table Nat Tx

inductive Action where
  | start (id : Nat) (transaction : Transaction)
  | exec (id : Nat)
  | commit (id : Nat)
  | rollback (id : Nat)
  | tick (seconds : Nat)

def Tx.view (tx : Tx) (tables : Tables) : Tables := tx.writes.foldl Write.apply tables

def State.ended (s : State) (id : Nat) : State :=
  { s with
    txs := s.txs.erase id
    lock := if s.lock = some id then none else s.lock }

def State.execute (cfg : Config) (s : State) (id : Nat) (tx : Tx) (statement : Statement)
    (rest : List Statement) : State :=
  match statement.exec cfg tx.now (tx.view s.tables) with
  | .error _ => s.ended id
  | .ok writes => { s with txs := s.txs.insert id ⟨tx.now, rest, tx.writes ++ writes⟩ }

def step (cfg : Config) (s : State) : Action → Option State
  | .start id transaction =>
    if (s.txs.lookup id).isSome then none
    else some { s with txs := s.txs.insert id ⟨s.clock, transaction.program, []⟩ }
  | .exec id => do
    let tx ← s.txs.lookup id
    match tx.program with
    | [] => none
    | .lockPayloadQuota :: rest =>
      -- the statement waits for the lock
      if s.lock = none ∨ s.lock = some id then
        some { s with lock := some id, txs := s.txs.insert id { tx with program := rest } }
      else none
    | statement :: rest => some (s.execute cfg id tx statement rest)
  | .commit id => do
    let tx ← s.txs.lookup id
    match tx.program with
    | [] => some ({ s with tables := tx.view s.tables }.ended id)
    | _ => none
  | .rollback id => do
    let _ ← s.txs.lookup id
    some (s.ended id)
  | .tick seconds => some { s with clock := s.clock + seconds }

end Fod.Quota
