import Fod.Quota.Model

/-!
# Transactions that free payload

One transaction after another.  Blocks that are stored under a reservation count
beside it until it is released, so a transaction that only frees blocks may be
refused in between.
-/

namespace Fod.Quota

def execStatements (cfg : Config) (now : Nat) (tables : Tables) :
    List Statement → Except QuotaError Tables
  | [] => .ok tables
  | statement :: rest =>
    match statement.exec cfg now tables with
    | .error e => .error e
    | .ok writes => execStatements cfg now (writes.foldl Write.apply tables) rest

def Transaction.run (cfg : Config) (now : Nat) (tables : Tables) (transaction : Transaction) :
    Except QuotaError Tables :=
  execStatements cfg now tables transaction.program

def Transaction.blockChanges : Transaction → List BlockChange
  | .persistFileBlocks changes _ => changes
  | .persistFileBlocksFromPath changes => changes
  | .punchHoleKeepSize changes => changes.getD []
  | .reservePayloadCapacity _ _ => []
  | .releasePayloadCapacityReservation _ => []

def applyChanges (blocks : Finset BlockKey) (changes : List BlockChange) : Finset BlockKey :=
  changes.foldl BlockChange.apply blocks

/-- The tables with their history: `grown` are the bytes that persists have added under
each reservation since it was made. -/
structure Ledger where
  tables : Tables
  clock : Nat
  grown : Table Nat Nat

namespace Ledger

def grownUnder (l : Ledger) (token : Nat) : Nat := (l.grown.lookup token).getD 0

def record (cfg : Config) (l : Ledger) (tables : Tables) : Transaction → Table Nat Nat
  | .persistFileBlocks _ (some token) =>
    l.grown.insert token
      (l.grownUnder token + (tables.blocks.card - l.tables.blocks.card) * cfg.blockSize)
  | .reservePayloadCapacity token bytes => if bytes = 0 then l.grown else l.grown.erase token
  | _ => l.grown

inductive Event where
  | commit (transaction : Transaction)
  | tick (seconds : Nat)

def step (cfg : Config) (l : Ledger) : Event → Option Ledger
  | .commit transaction =>
    match transaction.run cfg l.clock l.tables with
    | .error _ => none
    | .ok tables => some ⟨tables, l.clock, l.record cfg tables transaction⟩
  | .tick seconds => some { l with clock := l.clock + seconds }

def empty (clock : Nat) : Ledger := ⟨⟨∅, ∅⟩, clock, ∅⟩

end Ledger

variable {cfg : Config} {now : Nat} {tables tables' : Tables}

lemma execStatements_ok {statement : Statement} {rest : List Statement} {writes : List Write}
    (h : statement.exec cfg now tables = .ok writes) :
    execStatements cfg now tables (statement :: rest) =
      execStatements cfg now (writes.foldl Write.apply tables) rest := by
  rw [execStatements, h]

lemma execStatements_error {statement : Statement} {rest : List Statement} {e : QuotaError}
    (h : statement.exec cfg now tables = .error e) :
    execStatements cfg now tables (statement :: rest) = .error e := by
  rw [execStatements, h]

lemma execStatements_changes (changes : List BlockChange) (rest : List Statement) (tables : Tables) :
    execStatements cfg now tables (changes.map .change ++ rest) =
      execStatements cfg now { tables with blocks := applyChanges tables.blocks changes } rest := by
  induction changes generalizing tables with
  | nil => rfl
  | cons c changes ih =>
    rw [List.map_cons, List.cons_append, execStatements]
    exact ih _

def enforce (cfg : Config) (now : Nat) (tables : Tables) (excluded : Option Nat) :
    Except QuotaError Tables :=
  if cfg.maxFsSizeBytes < persistedAndReservedPayloadBytes cfg now tables excluded then
    .error .storageQuotaExceeded
  else .ok tables

section

variable (hquota : 0 < cfg.maxFsSizeBytes)

include hquota

lemma execStatements_enforce (excluded : Option Nat) :
    execStatements cfg now tables [.enforcePayloadQuota excluded] = enforce cfg now tables excluded := by
  rw [enforce]
  split
  next hover =>
    apply execStatements_error
    simp only [Statement.exec, Config.quotaBytes, if_pos hquota, if_pos hover]
  next hfits =>
    have hexec : (Statement.enforcePayloadQuota excluded).exec cfg now tables = .ok [] := by
      simp only [Statement.exec, Config.quotaBytes, if_pos hquota, if_neg hfits]
    rw [execStatements_ok hexec]
    rfl

lemma execStatements_unreserved (changes : List BlockChange) :
    execStatements cfg now tables
        (changes.map .change ++ [.lockPayloadQuota, .enforcePayloadQuota none]) =
      enforce cfg now { tables with blocks := applyChanges tables.blocks changes } none := by
  rw [execStatements_changes, ← execStatements_enforce hquota]
  rfl

lemma run_reserved (changes : List BlockChange) (token : Nat) :
    (Transaction.persistFileBlocks changes (some token)).run cfg now tables =
      match tables.reservations.lookup token with
      | none => .error .reservationMissing
      | some r =>
        if cfg.maxFsSizeBytes <
            persistedAndReservedPayloadBytes cfg now tables (some token) + r.reservedBytes then
          .error .storageQuotaExceeded
        else
          enforce cfg now ⟨applyChanges tables.blocks changes, tables.reservations.insert token
            { r with expiresAt := now + reservationSeconds }⟩ (some token) := by
  have hlock : Statement.lockPayloadQuota.exec cfg now tables = .ok [] := rfl
  rw [Transaction.run, Transaction.program, List.append_assoc, List.cons_append, List.cons_append,
    List.nil_append, execStatements_ok hlock, List.foldl_nil]
  cases hr : tables.reservations.lookup token with
  | none =>
    apply execStatements_error
    simp only [Statement.exec, hr]
  | some r =>
    dsimp only
    split
    next hover =>
      apply execStatements_error
      simp only [Statement.exec, hr, Config.quotaBytes, if_pos hquota, if_pos hover]
    next hfits =>
      have hexec : (Statement.refreshPayloadReservation token).exec cfg now tables =
          .ok [.setReservation token { r with expiresAt := now + reservationSeconds }] := by
        simp only [Statement.exec, hr, Config.quotaBytes, if_pos hquota, if_neg hfits]
      rw [execStatements_ok hexec, execStatements_changes, execStatements_enforce hquota]
      rfl

lemma run_reserve (token : Nat) {bytes : Nat} (hbytes : bytes ≠ 0) :
    (Transaction.reservePayloadCapacity token bytes).run cfg now tables =
      let kept : Tables := { tables with
        reservations := tables.reservations.keep fun _ r => decide (now < r.expiresAt) }
      if cfg.maxFsSizeBytes < persistedAndReservedPayloadBytes cfg now kept none + bytes then
        .error .storageQuotaExceeded
      else
        .ok { kept with
          reservations := kept.reservations.insert token ⟨bytes, now + reservationSeconds⟩ } := by
  have hsome : cfg.quotaBytes = some cfg.maxFsSizeBytes := if_pos hquota
  have hlock : Statement.lockPayloadQuota.exec cfg now tables = .ok [] := rfl
  have hdelete : Statement.deleteExpired.exec cfg now tables = .ok [.deleteExpired now] := by
    simp only [Statement.exec, hsome, Option.isNone_some, Bool.false_eq_true, if_false]
  rw [Transaction.run, Transaction.program, if_neg hbytes, execStatements_ok hlock, List.foldl_nil,
    execStatements_ok hdelete]
  dsimp only [List.foldl_cons, List.foldl_nil, Write.apply]
  split
  next hover =>
    apply execStatements_error
    simp only [Statement.exec, hsome, if_pos hover]
  next hfits =>
    have hcapacity : (Statement.requireCapacity bytes).exec cfg now { tables with
        reservations := tables.reservations.keep fun _ r => decide (now < r.expiresAt) } = .ok [] := by
      simp only [Statement.exec, hsome, if_neg hfits]
    rw [execStatements_ok hcapacity, List.foldl_nil]
    have hinsert : (Statement.insertReservation token bytes).exec cfg now { tables with
        reservations := tables.reservations.keep fun _ r => decide (now < r.expiresAt) } =
        .ok [.setReservation token ⟨bytes, now + reservationSeconds⟩] := by
      simp only [Statement.exec, hsome, Option.isNone_some, Bool.false_eq_true, if_false]
    rw [execStatements_ok hinsert]
    rfl

end

/-! ## The invariant -/

def unused (clock : Nat) (grown : Nat → Nat) (token : Nat) (r : Reservation) : Nat :=
  if clock < r.expiresAt then r.reservedBytes - grown token else 0

def Ledger.Fits (cfg : Config) (l : Ledger) : Prop :=
  l.tables.blocks.card * cfg.blockSize +
    l.tables.reservations.sumWith (unused l.clock l.grownUnder) ≤ cfg.maxFsSizeBytes

lemma unused_le_counted (grown : Nat → Nat) (token : Nat) (r : Reservation) :
    unused now grown token r ≤ r.counted now none token := by
  rw [unused, Reservation.counted]
  split
  next hlive => rw [if_pos ⟨hlive, by simp⟩]; omega
  next => exact Nat.zero_le _

lemma fits_of_enforced {l : Ledger} {grown : Table Nat Nat}
    (h : enforce cfg l.clock tables none = .ok tables') :
    Ledger.Fits cfg ⟨tables', l.clock, grown⟩ := by
  rw [enforce] at h
  split at h
  · cases h
  next hle =>
    cases h
    rw [persistedAndReservedPayloadBytes] at hle
    have hsum : tables.reservations.sumWith (unused l.clock (Ledger.grownUnder ⟨tables, l.clock, grown⟩)) ≤
        tables.reservations.sumWith (Reservation.counted l.clock none) :=
      Table.sumWith_mono fun k r _ => unused_le_counted _ k r
    rw [Ledger.Fits]
    dsimp only
    omega

lemma sumWith_erase_excluded (t : Table Nat Reservation) (token : Nat) :
    Table.sumWith (t.erase token) (Reservation.counted now (some token)) =
      Table.sumWith (t.erase token) (Reservation.counted now none) := by
  have hsame : ∀ k r, (t.erase token).lookup k = some r →
      r.counted now (some token) k = r.counted now none k := by
    intro k r hlookup
    have hne : k ≠ token := (Table.lookup_erase_cases hlookup).1
    simp [Reservation.counted, hne]
  exact Nat.le_antisymm (Table.sumWith_mono fun k r h => (hsame k r h).le)
    (Table.sumWith_mono fun k r h => (hsame k r h).ge)

lemma counted_self (token : Nat) (r : Reservation) : r.counted now (some token) token = 0 := by
  simp [Reservation.counted]

lemma sumWith_excluded (t : Table Nat Reservation) (token : Nat) :
    t.sumWith (Reservation.counted now (some token)) =
      Table.sumWith (t.erase token) (Reservation.counted now none) := by
  have hself : (t.lookup token).elim 0 (Reservation.counted now (some token) token) = 0 := by
    cases t.lookup token with
    | none => rfl
    | some r => exact counted_self token r
  rw [Table.sumWith_erase (k := token), hself, Nat.zero_add, sumWith_erase_excluded]

lemma sumWith_insert_excluded (t : Table Nat Reservation) (token : Nat) (r : Reservation) :
    Table.sumWith (t.insert token r) (Reservation.counted now (some token)) =
      Table.sumWith (t.erase token) (Reservation.counted now none) := by
  rw [Table.sumWith_insert, counted_self, Nat.zero_add, sumWith_erase_excluded]

namespace Ledger

variable {l : Ledger}

lemma Fits.persistReserved {token : Nat} {r : Reservation} {blocks : Finset BlockKey} {expiresAt : Nat}
    (hrefresh : persistedAndReservedPayloadBytes cfg l.clock l.tables (some token) + r.reservedBytes ≤
      cfg.maxFsSizeBytes)
    (henforce : persistedAndReservedPayloadBytes cfg l.clock
      ⟨blocks, l.tables.reservations.insert token { r with expiresAt := expiresAt }⟩ (some token) ≤
        cfg.maxFsSizeBytes) :
    Fits cfg ⟨⟨blocks, l.tables.reservations.insert token { r with expiresAt := expiresAt }⟩, l.clock,
      l.grown.insert token
        (l.grownUnder token + (blocks.card - l.tables.blocks.card) * cfg.blockSize)⟩ := by
  rw [persistedAndReservedPayloadBytes, sumWith_excluded] at hrefresh
  rw [persistedAndReservedPayloadBytes, sumWith_insert_excluded] at henforce
  rw [Fits]
  generalize hgrown : l.grown.insert token _ = grown
  dsimp only at henforce ⊢
  rw [Table.sumWith_insert]
  have hothers : Table.sumWith (l.tables.reservations.erase token)
      (unused l.clock (grownUnder ⟨⟨blocks, l.tables.reservations.insert token
        { r with expiresAt := expiresAt }⟩, l.clock, grown⟩)) ≤
      Table.sumWith (l.tables.reservations.erase token) (Reservation.counted l.clock none) :=
    Table.sumWith_mono fun k r _ => unused_le_counted _ k r
  have hown : unused l.clock (grownUnder ⟨⟨blocks, l.tables.reservations.insert token
        { r with expiresAt := expiresAt }⟩, l.clock, grown⟩) token { r with expiresAt := expiresAt } ≤
      r.reservedBytes - (l.grownUnder token + (blocks.card - l.tables.blocks.card) * cfg.blockSize) := by
    have hlookup : grown.lookup token = some
        (l.grownUnder token + (blocks.card - l.tables.blocks.card) * cfg.blockSize) := by
      rw [← hgrown, AList.lookup_insert]
    rw [unused, grownUnder, hlookup, Option.getD_some]
    split
    · exact Nat.le_refl _
    · exact Nat.zero_le _
  rw [Nat.sub_mul] at hown
  omega

lemma Fits.reserve {token bytes expiresAt : Nat} {kept : Tables}
    (hcapacity : persistedAndReservedPayloadBytes cfg l.clock kept none + bytes ≤ cfg.maxFsSizeBytes)
    (grown : Table Nat Nat) :
    Fits cfg ⟨{ kept with reservations := kept.reservations.insert token ⟨bytes, expiresAt⟩ },
      l.clock, grown⟩ := by
  rw [persistedAndReservedPayloadBytes, Table.sumWith_erase (k := token)] at hcapacity
  rw [Fits]
  dsimp only
  rw [Table.sumWith_insert]
  have hothers : Table.sumWith (kept.reservations.erase token)
      (unused l.clock (grownUnder ⟨{ kept with
        reservations := kept.reservations.insert token ⟨bytes, expiresAt⟩ }, l.clock, grown⟩)) ≤
      Table.sumWith (kept.reservations.erase token) (Reservation.counted l.clock none) :=
    Table.sumWith_mono fun k r _ => unused_le_counted _ k r
  have hown : unused l.clock (grownUnder ⟨{ kept with
        reservations := kept.reservations.insert token ⟨bytes, expiresAt⟩ }, l.clock, grown⟩) token
      ⟨bytes, expiresAt⟩ ≤ bytes := by
    rw [unused]
    split
    · exact Nat.sub_le _ _
    · exact Nat.zero_le _
  omega

lemma Fits.commit (hquota : 0 < cfg.maxFsSizeBytes) (h : l.Fits cfg) {transaction : Transaction}
    (hrun : transaction.run cfg l.clock l.tables = .ok tables) :
    Fits cfg ⟨tables, l.clock, l.record cfg tables transaction⟩ := by
  cases transaction with
  | persistFileBlocks changes token =>
    cases token with
    | none =>
      rw [Transaction.run, Transaction.program, execStatements_unreserved hquota] at hrun
      exact fits_of_enforced hrun
    | some token =>
      rw [run_reserved hquota] at hrun
      split at hrun
      · cases hrun
      next r _ =>
        split at hrun
        · cases hrun
        next hrefresh =>
          rw [enforce] at hrun
          split at hrun
          · cases hrun
          next henforce =>
            cases hrun
            exact Fits.persistReserved (Nat.le_of_not_lt hrefresh) (Nat.le_of_not_lt henforce)
  | persistFileBlocksFromPath changes =>
    rw [Transaction.run, Transaction.program, execStatements_unreserved hquota] at hrun
    exact fits_of_enforced hrun
  | punchHoleKeepSize changes =>
    cases changes with
    | none =>
      cases hrun
      exact h
    | some changes =>
      rw [Transaction.run, Transaction.program, execStatements_unreserved hquota] at hrun
      exact fits_of_enforced hrun
  | reservePayloadCapacity token bytes =>
    by_cases hbytes : bytes = 0
    · rw [Transaction.run, Transaction.program, if_pos hbytes] at hrun
      cases hrun
      rw [record, if_pos hbytes]
      exact h
    · rw [run_reserve hquota token hbytes] at hrun
      dsimp only at hrun
      split at hrun
      · cases hrun
      next hcapacity =>
        cases hrun
        exact Fits.reserve (Nat.le_of_not_lt hcapacity) _
  | releasePayloadCapacityReservation token =>
    cases hrun
    rw [Fits, Table.sumWith_erase (k := token)] at h
    exact Nat.le_trans (Nat.add_le_add_left (Nat.le_add_left _ _) _) h

lemma Fits.step (hquota : 0 < cfg.maxFsSizeBytes) (h : l.Fits cfg) {event : Event} {l' : Ledger}
    (hs : Ledger.step cfg l event = some l') : l'.Fits cfg := by
  cases event with
  | commit transaction =>
    rw [Ledger.step] at hs
    split at hs
    · cases hs
    next tables hrun =>
      cases hs
      exact h.commit hquota hrun
  | tick seconds =>
    cases hs
    refine Nat.le_trans (Nat.add_le_add_left (Table.sumWith_mono fun k r _ => ?_) _) h
    rw [unused, unused]
    split
    next hlive =>
      dsimp only at hlive
      rw [if_pos (by omega)]
      exact Nat.le_refl _
    next => exact Nat.zero_le _

/-- No live reservation has blocks stored under it, and the one of the transaction, if
it has one, is live. -/
def Unused (l : Ledger) (transaction : Transaction) : Prop :=
  (∀ row ∈ l.tables.reservations.entries, l.clock < row.2.expiresAt → l.grownUnder row.1 = 0) ∧
    match transaction with
    | .persistFileBlocks _ (some token) =>
      ∀ r ∈ l.tables.reservations.lookup token, l.clock < r.expiresAt
    | _ => True

instance (l : Ledger) (transaction : Transaction) : Decidable (l.Unused transaction) :=
  match transaction with
  | .persistFileBlocks _ (some _) => inferInstanceAs (Decidable (_ ∧ ∀ r ∈ _, _))
  | .persistFileBlocks _ none => inferInstanceAs (Decidable (_ ∧ True))
  | .persistFileBlocksFromPath _ => inferInstanceAs (Decidable (_ ∧ True))
  | .punchHoleKeepSize _ => inferInstanceAs (Decidable (_ ∧ True))
  | .reservePayloadCapacity _ _ => inferInstanceAs (Decidable (_ ∧ True))
  | .releasePayloadCapacityReservation _ => inferInstanceAs (Decidable (_ ∧ True))

lemma Fits.counted (h : l.Fits cfg)
    (hunused : ∀ row ∈ l.tables.reservations.entries, l.clock < row.2.expiresAt → l.grownUnder row.1 = 0) :
    persistedAndReservedPayloadBytes cfg l.clock l.tables none ≤ cfg.maxFsSizeBytes := by
  refine Nat.le_trans (Nat.add_le_add_left (Table.sumWith_mono fun k r hlookup => ?_) _) h
  rw [Reservation.counted, unused]
  split
  next hlive =>
    rw [if_pos hlive.1, hunused ⟨k, r⟩ (Table.lookup_eq_some.mp hlookup) hlive.1, Nat.sub_zero]
  next => exact Nat.zero_le _

end Ledger

lemma enforce_ne_error {excluded : Option Nat}
    (h : persistedAndReservedPayloadBytes cfg now tables excluded ≤ cfg.maxFsSizeBytes) :
    enforce cfg now tables excluded ≠ .error .storageQuotaExceeded := by
  rw [enforce, if_neg (Nat.not_lt.mpr h)]
  exact fun hne => by cases hne

lemma persisted_mono {blocks : Finset BlockKey} (hcard : blocks.card ≤ tables.blocks.card)
    (excluded : Option Nat) :
    persistedAndReservedPayloadBytes cfg now { tables with blocks := blocks } excluded ≤
      persistedAndReservedPayloadBytes cfg now tables excluded :=
  Nat.add_le_add_right (Nat.mul_le_mul_right _ hcard) _

lemma persisted_excluded {token : Nat} {r : Reservation} (hr : tables.reservations.lookup token = some r)
    (hlive : now < r.expiresAt) :
    persistedAndReservedPayloadBytes cfg now tables (some token) + r.reservedBytes =
      persistedAndReservedPayloadBytes cfg now tables none := by
  have hown : r.counted now none token = r.reservedBytes := if_pos ⟨hlive, by simp⟩
  have hsplit : tables.reservations.sumWith (Reservation.counted now none) =
      r.reservedBytes + Table.sumWith (tables.reservations.erase token) (Reservation.counted now none) := by
    rw [Table.sumWith_erase (k := token), hr, Option.elim_some, hown]
  rw [persistedAndReservedPayloadBytes, persistedAndReservedPayloadBytes, sumWith_excluded, hsplit]
  omega

theorem freeing_is_not_refused (cfg : Config) (hquota : 0 < cfg.maxFsSizeBytes) (clock : Nat)
    {events : List Ledger.Event} {l : Ledger}
    (hrun : GuardedRun.run (Ledger.step cfg) (Ledger.empty clock) events = some l)
    (transaction : Transaction) (hpayload : ∀ token bytes, transaction ≠ .reservePayloadCapacity token bytes)
    (hfree : (applyChanges l.tables.blocks transaction.blockChanges).card ≤ l.tables.blocks.card)
    (hunused : l.Unused transaction) :
    transaction.run cfg l.clock l.tables ≠ .error .storageQuotaExceeded := by
  have hempty : (Ledger.empty clock).Fits cfg := by
    simp [Ledger.Fits, Ledger.empty, Table.sumWith]
  have hfits : l.Fits cfg :=
    GuardedRun.run_invariant_of_step (fun _ _ _ h hs => h.step hquota hs) hempty hrun
  have hsum := hfits.counted hunused.1
  have hunreserved : ∀ changes : List BlockChange,
      (applyChanges l.tables.blocks changes).card ≤ l.tables.blocks.card →
      execStatements cfg l.clock l.tables
        (changes.map .change ++ [.lockPayloadQuota, .enforcePayloadQuota none]) ≠
          .error .storageQuotaExceeded := by
    intro changes hcard
    rw [execStatements_unreserved hquota]
    exact enforce_ne_error (Nat.le_trans (persisted_mono hcard none) hsum)
  cases transaction with
  | persistFileBlocks changes token =>
    cases token with
    | none => exact hunreserved changes hfree
    | some token =>
      rw [run_reserved hquota]
      cases hr : l.tables.reservations.lookup token with
      | none => exact fun hne => by cases hne
      | some r =>
        have hwhole : persistedAndReservedPayloadBytes cfg l.clock l.tables (some token) +
            r.reservedBytes = persistedAndReservedPayloadBytes cfg l.clock l.tables none :=
          persisted_excluded hr (hunused.2 r hr)
        dsimp only
        rw [if_neg (by omega)]
        apply enforce_ne_error
        have hfewer : persistedAndReservedPayloadBytes cfg l.clock
            ⟨applyChanges l.tables.blocks changes, l.tables.reservations⟩ (some token) ≤ _ :=
          persisted_mono hfree (some token)
        rw [persistedAndReservedPayloadBytes, sumWith_insert_excluded]
        rw [persistedAndReservedPayloadBytes, sumWith_excluded] at hfewer
        dsimp only at hfewer ⊢
        omega
  | persistFileBlocksFromPath changes => exact hunreserved changes hfree
  | punchHoleKeepSize changes =>
    cases changes with
    | none => exact fun hne => by cases hne
    | some changes => exact hunreserved changes hfree
  | reservePayloadCapacity token bytes => exact absurd rfl (hpayload token bytes)
  | releasePayloadCapacityReservation token => exact fun hne => by cases hne

/-- A block, a reservation beside it, and then a hole over the block. -/
theorem freeing_is_not_refused_besideReservation :
    ∃ l, GuardedRun.run (Ledger.step ⟨16, 8⟩) (Ledger.empty 0)
        [.commit (.persistFileBlocks [.insert (1, 0)] none), .commit (.reservePayloadCapacity 7 8)] = some l ∧
      (Transaction.punchHoleKeepSize (some [.delete (1, 0)])).run ⟨16, 8⟩ l.clock l.tables ≠
        .error .storageQuotaExceeded := by
  have hrun : ∃ l, GuardedRun.run (Ledger.step ⟨16, 8⟩) (Ledger.empty 0)
      [.commit (.persistFileBlocks [.insert (1, 0)] none), .commit (.reservePayloadCapacity 7 8)] = some l ∧
      (applyChanges l.tables.blocks [.delete (1, 0)]).card ≤ l.tables.blocks.card ∧
      l.Unused (.punchHoleKeepSize (some [.delete (1, 0)])) := ⟨_, rfl, by decide, by decide⟩
  obtain ⟨l, hl, hcard, hunused⟩ := hrun
  exact ⟨l, hl, freeing_is_not_refused ⟨16, 8⟩ (by decide) 0 hl _ (fun _ _ h => by cases h) hcard hunused⟩

/-- What is stored and what live reservations have not used yet fit together. -/
theorem reservations_fit (cfg : Config) (hquota : 0 < cfg.maxFsSizeBytes) (clock : Nat)
    {events : List Ledger.Event} {l : Ledger}
    (hrun : GuardedRun.run (Ledger.step cfg) (Ledger.empty clock) events = some l) : l.Fits cfg := by
  refine GuardedRun.run_invariant_of_step (fun _ _ _ h hs => h.step hquota hs) ?_ hrun
  simp [Ledger.Fits, Ledger.empty, Table.sumWith]

theorem reservations_fit_besideBlock : ∃ l, GuardedRun.run (Ledger.step ⟨16, 8⟩) (Ledger.empty 0)
        [.commit (.persistFileBlocks [.insert (1, 0)] none), .commit (.reservePayloadCapacity 7 8)] = some l ∧
      l.Fits ⟨16, 8⟩ :=
  Exists.imp (fun _ hl => ⟨hl, reservations_fit ⟨16, 8⟩ (by decide) 0 hl⟩) ⟨_, rfl⟩

/-- A block stored under a reservation counts twice until the reservation is released:
writing the block again is refused, and so is a hole over half of it. -/
theorem rewriting_is_refused_under_reservation :
    ∃ l, GuardedRun.run (Ledger.step ⟨8, 8⟩) (Ledger.empty 0)
        [.commit (.reservePayloadCapacity 7 8), .commit (.persistFileBlocks [.insert (1, 0)] (some 7))] =
          some l ∧
      (applyChanges l.tables.blocks [.insert (1, 0)]).card = l.tables.blocks.card ∧
      (Transaction.persistFileBlocks [.insert (1, 0)] none).run ⟨8, 8⟩ l.clock l.tables =
        .error .storageQuotaExceeded ∧
      (Transaction.punchHoleKeepSize (some [.insert (1, 0)])).run ⟨8, 8⟩ l.clock l.tables =
        .error .storageQuotaExceeded := by
  refine ⟨_, rfl, ?_, ?_, ?_⟩
  all_goals decide

end Fod.Quota
