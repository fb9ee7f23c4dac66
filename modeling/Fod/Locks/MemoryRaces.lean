import Fod.Locks.Backends

/-!
# Concurrent requests to the memory backend

With the memory backend `setlk` copies the records of its file out of
`posix_locks`, tests and changes the copy, and stores it; `posix_locks` is locked
for the copy and for the store, but not in between.  A clean-up drops the records
of its owner and then copies and stores the records of each file it has changed.
-/

namespace Fod.Locks.Memory

open GuardedRun

inductive Phase where
  | idle
  | storing (key : List Char) (loaded : List PosixLockRecord) (req : SetlkRequest)
  | syncing (keys : List (List Char))
  | resyncing (key : List Char) (loaded : List PosixLockRecord) (rest : List (List Char))

def Phase.copy : Phase → Option (List Char × List PosixLockRecord)
  | .storing key loaded _ | .resyncing key loaded _ => some (key, loaded)
  | .idle | .syncing _ => none

/-- The table and the threads.  `ledger` says which lock on a byte was granted to an owner and
not given back by a later request or clean-up of the same owner. -/
structure Mount where
  table : LockMap
  phase : Nat → Phase
  ledger : List Char → Nat → Nat → Option LockType

inductive Action where
  | setlk (t : Nat) (key : List Char) (req : SetlkRequest)
  | persist (t : Nat)
  | clearOwner (t owner : Nat)
  | load (t : Nat)
  | sync (t : Nat)
  | finish (t : Nat)

def Action.thread : Action → Nat
  | .setlk t _ _ | .persist t | .clearOwner t _ | .load t | .sync t | .finish t => t

namespace Mount

def init : Mount := ⟨∅, fun _ => .idle, fun _ _ _ => none⟩

def setPhase (s : Mount) (t : Nat) (phase : Phase) : Mount :=
  { s with phase := Function.update s.phase t phase }

def grant (ledger : List Char → Nat → Nat → Option LockType) (key : List Char)
    (req : SetlkRequest) : List Char → Nat → Nat → Option LockType :=
  fun key' owner p =>
    if key' = key ∧ owner = req.owner ∧ req.start ≤ p ∧ p ≤ req.stop then
      if req.typ = .unlock then none else some req.typ
    else ledger key' owner p

def step (readOnly : Bool) (s : Mount) : Action → Option Mount
  | .setlk t key req =>
    match s.phase t with
    | .idle =>
      let loaded := s.table.recordsFor key
      if (Locks.setlk readOnly loaded req).2 = .ok then
        some (s.setPhase t (.storing key loaded req))
      else some s
    | _ => none
  | .persist t =>
    match s.phase t with
    | .storing key loaded req =>
      some { s.setPhase t .idle with
        table := s.table.storeRecords key (Locks.setlk readOnly loaded req).1
        ledger := grant s.ledger key req }
    | _ => none
  | .clearOwner t owner =>
    match s.phase t with
    | .idle =>
      some { s.setPhase t (.syncing (s.table.changedKeys owner)) with
        table := s.table.clearOwner owner
        ledger := fun key o p => if o = owner then none else s.ledger key o p }
    | _ => none
  | .load t =>
    match s.phase t with
    | .syncing (key :: rest) => some (s.setPhase t (.resyncing key (s.table.recordsFor key) rest))
    | _ => none
  | .sync t =>
    match s.phase t with
    | .resyncing key loaded rest =>
      some { s.setPhase t (.syncing rest) with table := s.table.storeRecords key loaded }
    | _ => none
  | .finish t =>
    match s.phase t with
    | .syncing [] => some (s.setPhase t .idle)
    | _ => none

def Exclusive (s : Mount) : Prop :=
  ∀ key, ∀ a ∈ s.table.recordsFor key, ∀ b ∈ s.table.recordsFor key, a.owner ≠ b.owner →
    ¬ Conflicting a b

/-- Every lock that was granted and not given back is recorded. -/
def Recorded (s : Mount) : Prop :=
  ∀ key owner p typ, s.ledger key owner p = some typ →
    lockTypeAt (s.table.recordsFor key) owner p = some typ

/-- The action does not change records of which another thread has a copy. -/
def Undisturbed (readOnly : Bool) (s : Mount) (a : Action) : Prop :=
  ∀ s', step readOnly s a = some s' → ∀ u, u ≠ a.thread → ∀ key loaded,
    (s.phase u).copy = some (key, loaded) → s'.table.recordsFor key = s.table.recordsFor key

structure Sound (readOnly : Bool) (s : Mount) : Prop where
  table : ∀ key, WellFormed (s.table.recordsFor key)
  copies : ∀ t key loaded, (s.phase t).copy = some (key, loaded) → WellFormed loaded
  granted : ∀ t key loaded req, s.phase t = .storing key loaded req →
    (Locks.setlk readOnly loaded req).2 = .ok

section Steps

variable {readOnly : Bool} {s s' : Mount} {t : Nat} {key : List Char} {owner : Nat}

@[simp] lemma phase_setPhase (u : Nat) (phase : Phase) :
    (s.setPhase t phase).phase u = if u = t then phase else s.phase u := by
  simp [setPhase, Function.update_apply]

lemma sound_init (readOnly : Bool) : Sound readOnly init where
  table key := by
    rw [show init.table.recordsFor key = [] from rfl]
    exact WellFormed.nil
  copies := by simp [init, Phase.copy]
  granted := by simp [init]

lemma Sound.setPhase (h : Sound readOnly s) {phase : Phase}
    (hcopy : ∀ key loaded, phase.copy = some (key, loaded) → WellFormed loaded)
    (hgranted : ∀ key loaded req, phase = .storing key loaded req →
      (Locks.setlk readOnly loaded req).2 = .ok) : Sound readOnly (s.setPhase t phase) where
  table := h.table
  copies u key loaded hu := by
    rw [phase_setPhase] at hu
    split at hu
    · exact hcopy key loaded hu
    · exact h.copies u key loaded hu
  granted u key loaded req hu := by
    rw [phase_setPhase] at hu
    split at hu
    · exact hgranted key loaded req hu
    · exact h.granted u key loaded req hu

lemma Sound.store (h : Sound readOnly s) {records : List PosixLockRecord}
    (hrecords : WellFormed records) (ledger : List Char → Nat → Nat → Option LockType) :
    Sound readOnly { s with table := s.table.storeRecords key records, ledger := ledger } where
  table key' := by
    change WellFormed ((s.table.storeRecords key records).recordsFor key')
    rw [LockMap.recordsFor_storeRecords]
    split
    · exact hrecords
    · exact h.table key'
  copies := h.copies
  granted := h.granted

lemma Sound.clearOwner (h : Sound readOnly s) (ledger : List Char → Nat → Nat → Option LockType) :
    Sound readOnly { s with table := s.table.clearOwner owner, ledger := ledger } where
  table key := by
    change WellFormed ((s.table.clearOwner owner).recordsFor key)
    rw [LockMap.recordsFor_clearOwner]
    exact (h.table key).clearLocksForOwner owner
  copies := h.copies
  granted := h.granted

variable {a : Action}

lemma Sound.step (h : Sound readOnly s) (hstep : step readOnly s a = some s') :
    Sound readOnly s' := by
  cases a with
  | setlk t key req =>
    simp only [Mount.step] at hstep
    split at hstep
    next =>
      split at hstep
      next hok =>
        cases hstep
        refine h.setPhase ?_ ?_
        · rintro _ _ ⟨⟩
          exact h.table key
        · rintro _ _ _ ⟨⟩
          exact hok
      next =>
        cases hstep
        exact h
    next => cases hstep
  | persist t =>
    simp only [Mount.step] at hstep
    split at hstep
    next key loaded req hphase =>
      cases hstep
      have hloaded := h.copies t key loaded (by rw [hphase]; rfl)
      exact (h.setPhase (by simp [Phase.copy]) (by simp)).store (hloaded.setlk req) _
    next => cases hstep
  | clearOwner t owner =>
    simp only [Mount.step] at hstep
    split at hstep
    next =>
      cases hstep
      exact (h.setPhase (by simp [Phase.copy]) (by simp)).clearOwner _
    next => cases hstep
  | load t =>
    simp only [Mount.step] at hstep
    split at hstep
    next key rest hphase =>
      cases hstep
      refine h.setPhase ?_ (by simp)
      rintro _ _ ⟨⟩
      exact h.table key
    next => cases hstep
  | sync t =>
    simp only [Mount.step] at hstep
    split at hstep
    next key loaded rest hphase =>
      cases hstep
      have hloaded := h.copies t key loaded (by rw [hphase]; rfl)
      exact (h.setPhase (by simp [Phase.copy]) (by simp)).store hloaded _
    next => cases hstep
  | finish t =>
    simp only [Mount.step] at hstep
    split at hstep
    next =>
      cases hstep
      exact h.setPhase (by simp [Phase.copy]) (by simp)
    next => cases hstep

lemma Sound.exclusive (h : Sound readOnly s) : s.Exclusive := by
  intro key a ha b hb howner
  have hne : a ≠ b := fun heq => howner (congrArg PosixLockRecord.owner heq)
  exact ((h.table key).apart ha hb hne).2 howner

/-! ## Copies that are still current -/

structure Current (s : Mount) : Prop where
  copies : ∀ t key loaded, (s.phase t).copy = some (key, loaded) → loaded = s.table.recordsFor key
  ledger : ∀ key owner p, s.ledger key owner p = lockTypeAt (s.table.recordsFor key) owner p

lemma current_init : Current init where
  copies := by simp [init, Phase.copy]
  ledger _ _ _ := rfl

lemma phase_step (hstep : step readOnly s a = some s') {u : Nat} (hu : u ≠ a.thread) :
    s'.phase u = s.phase u := by
  cases a with
  | setlk t key req =>
    simp only [Mount.step] at hstep
    split at hstep
    next =>
      split at hstep
      next =>
        cases hstep
        exact (phase_setPhase u _).trans (if_neg hu)
      next =>
        cases hstep
        rfl
    next => cases hstep
  | persist t | clearOwner t owner | load t | sync t | finish t =>
    simp only [Mount.step] at hstep
    split at hstep
    next =>
      cases hstep
      exact (phase_setPhase u _).trans (if_neg hu)
    next => cases hstep

lemma Current.of_step (h : Current s) (hstep : step readOnly s a = some s')
    (hguard : Undisturbed readOnly s a)
    (hown : ∀ key loaded, (s'.phase a.thread).copy = some (key, loaded) →
      loaded = s'.table.recordsFor key)
    (hledger : ∀ key owner p, s'.ledger key owner p = lockTypeAt (s'.table.recordsFor key) owner p) :
    Current s' := by
  refine ⟨fun u key loaded hcopy => ?_, hledger⟩
  by_cases hu : u = a.thread
  · exact hown key loaded (hu ▸ hcopy)
  · rw [phase_step hstep hu] at hcopy
    rw [hguard s' hstep u hu key loaded hcopy]
    exact h.copies u key loaded hcopy

lemma Current.ledger_grant (h : Current s) (hsound : Sound readOnly s) {loaded : List PosixLockRecord}
    {req : SetlkRequest} (hphase : s.phase t = .storing key loaded req) (key' : List Char)
    (owner p : Nat) : grant s.ledger key req key' owner p =
      lockTypeAt ((s.table.storeRecords key (Locks.setlk readOnly loaded req).1).recordsFor key')
        owner p := by
  obtain rfl := h.copies t key loaded (by rw [hphase]; rfl)
  have hgranted := setlk_granted (hsound.table key) (hsound.granted t key _ req hphase)
  rw [grant, LockMap.recordsFor_storeRecords]
  by_cases hkey : key' = key
  · rw [if_pos hkey, hgranted.typeAt, ← hkey, ← h.ledger]
    simp
  · rw [if_neg hkey, if_neg fun hin => hkey hin.1]
    exact h.ledger key' owner p

lemma Current.step (h : Current s) (hsound : Sound readOnly s)
    (hguard : Undisturbed readOnly s a) (hstep : step readOnly s a = some s') : Current s' := by
  have hkept := h.of_step hstep hguard
  cases a with
  | setlk t key req =>
    simp only [Mount.step] at hstep
    split at hstep
    next hphase =>
      split at hstep
      next =>
        cases hstep
        exact hkept (by simp [Action.thread, Phase.copy, Mount.setPhase]) h.ledger
      next =>
        cases hstep
        exact h
    next => cases hstep
  | persist t =>
    simp only [Mount.step] at hstep
    split at hstep
    next key loaded req hphase =>
      cases hstep
      refine hkept ?_ (h.ledger_grant hsound hphase)
      simp [Action.thread, Phase.copy, Mount.setPhase]
    next => cases hstep
  | clearOwner t owner =>
    simp only [Mount.step] at hstep
    split at hstep
    next =>
      cases hstep
      refine hkept (by simp [Action.thread, Phase.copy, Mount.setPhase]) fun key o p => ?_
      dsimp only
      rw [LockMap.recordsFor_clearOwner, lockTypeAt_clearLocksForOwner (hsound.table key), h.ledger]
    next => cases hstep
  | load t =>
    simp only [Mount.step] at hstep
    split at hstep
    next key rest hphase =>
      cases hstep
      exact hkept (by simp [Action.thread, Phase.copy, Mount.setPhase]) h.ledger
    next => cases hstep
  | sync t =>
    simp only [Mount.step] at hstep
    split at hstep
    next key loaded rest hphase =>
      cases hstep
      obtain rfl := h.copies t key loaded (by rw [hphase]; rfl)
      refine hkept (by simp [Action.thread, Phase.copy, Mount.setPhase]) fun key' owner p => ?_
      dsimp only
      rw [LockMap.recordsFor_storeRecords]
      split
      next hkey =>
        rw [← hkey]
        exact h.ledger key' owner p
      next => exact h.ledger key' owner p
    next => cases hstep
  | finish t =>
    simp only [Mount.step] at hstep
    split at hstep
    next =>
      cases hstep
      exact hkept (by simp [Action.thread, Phase.copy, Mount.setPhase]) h.ledger
    next => cases hstep

lemma undisturbed_of_alone (h : ∀ u, u ≠ a.thread → (s.phase u).copy = none) :
    Undisturbed readOnly s a := by
  intro s' _ u hu key loaded hcopy
  rw [h u hu] at hcopy
  cases hcopy

/-- The table never gives two owners conflicting locks.  If no thread changes records of which
another has a copy, it also keeps every lock that was granted. -/
theorem memory_locks_recorded {trace : List Action}
    (hrun : run (Mount.step readOnly) init trace = some s) :
    s.Exclusive ∧
      (Along (Mount.step readOnly) (Undisturbed readOnly) init trace → s.Recorded) := by
  have hsound : Sound readOnly s :=
    run_invariant_of_step (fun _ _ _ h hstep => h.step hstep) (sound_init readOnly) hrun
  refine ⟨hsound.exclusive, fun hguard key owner p typ htyp => ?_⟩
  have hcurrent : Sound readOnly s ∧ Current s :=
    run_invariant (I := fun s => Sound readOnly s ∧ Current s)
      (fun _ _ _ h hguard hstep => ⟨h.1.step hstep, h.2.step h.1 hguard hstep⟩)
      ⟨sound_init readOnly, current_init⟩ hguard hrun
  rw [← hcurrent.2.ledger, htyp]

end Steps

section Examples

lemma zero_le_nine : 0 ≤ 9 := by decide

lemma nine_le_u64Max : 9 ≤ u64Max := by decide

def whole (owner : Nat) : SetlkRequest := ⟨owner, 0, 9, .write, owner, zero_le_nine, nine_le_u64Max⟩

def fileKey : List Char := resourceKey 1

def inTurn : List Action :=
  [.setlk 1 fileKey (whole 1), .persist 1, .setlk 2 fileKey (whole 2)]

theorem memory_locks_recorded_inTurn :
    ∃ s, run (step false) init inTurn = some s ∧
      s.table.recordsFor fileKey = [(whole 1).record] ∧ s.Recorded := by
  refine ⟨_, rfl, rfl, (@memory_locks_recorded false _ inTurn rfl).2 ?_⟩
  refine ⟨undisturbed_of_alone fun u _ => rfl, undisturbed_of_alone fun u hu => ?_,
    undisturbed_of_alone fun u _ => ?_, trivial⟩
  · change (Function.update (fun _ => Phase.idle) 1 _ u).copy = none
    rw [Function.update_of_ne (show u ≠ 1 from hu)]
    rfl
  · change (Function.update (Function.update (fun _ => Phase.idle) 1 _) 1 .idle u).copy = none
    by_cases hu : u = 1 <;> simp [hu, Phase.copy]

def crossing : List Action :=
  [.setlk 1 fileKey (whole 1), .setlk 2 fileKey (whole 2), .persist 1, .persist 2]

/-- Both requests are granted, and one of the locks is gone. -/
theorem memory_lock_lost :
    ∃ s, run (step false) init crossing = some s ∧ s.phase 1 = .idle ∧ s.phase 2 = .idle ∧
      s.ledger fileKey 1 0 = some .write ∧ s.ledger fileKey 2 0 = some .write ∧
      s.table.recordsFor fileKey = [(whole 2).record] ∧ ¬ s.Recorded := by
  refine ⟨_, rfl, rfl, rfl, rfl, rfl, rfl, fun hrecorded => ?_⟩
  exact absurd (hrecorded fileKey 1 0 .write rfl) (by decide)

end Examples

end Mount

end Fod.Locks.Memory
