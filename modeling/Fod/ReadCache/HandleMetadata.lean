import Fod.Lib.GuardedRun

/-!
# Metadata cached in file handles

A read takes the metadata of its file from its handle, if the caching policy allows
it and the snapshot there is young enough.  Otherwise it reads the repository
without a lock and stores what it got into the handle afterwards.  A flush
invalidates the snapshots of a file in all handles.
-/

namespace Fod.HandleMetadata

open GuardedRun

inductive AtimePolicy where
  | default
  | noAtime
  | nodiratime
  | relatime
  | strictAtime
  deriving DecidableEq

structure Policy where
  readOnly : Bool
  fopenDirectIo : Bool
  atimePolicy : AtimePolicy

def oAccmode : BitVec 32 := 3

def oRdonly : BitVec 32 := 0

def shouldCacheFileReadMetadata (policy : Policy) (handleFlags : BitVec 32)
    (metadataCacheTtl : Nat) : Bool :=
  if !policy.fopenDirectIo then false
  else if policy.readOnly then true
  else
    policy.atimePolicy == .noAtime && handleFlags &&& oAccmode == oRdonly && metadataCacheTtl != 0

structure Snapshot (μ : Type*) where
  metadata : μ
  readAt : Nat

structure Handle (μ : Type*) where
  fileId : Option Nat
  flags : BitVec 32
  readMetadata : Option (Snapshot μ)
  readMetadataLoadedAt : Option Nat

section Handles

variable {μ : Type*}

def Handle.dropMetadata (h : Handle μ) : Handle μ :=
  { h with readMetadata := none, readMetadataLoadedAt := none }

def Handle.invalidate (file : Nat) (h : Handle μ) : Handle μ :=
  if h.fileId = some file then h.dropMetadata else h

def Handle.cached (policy : Policy) (clock ttl file : Nat) (h : Handle μ) :
    Option (Snapshot μ) × Handle μ :=
  if h.fileId ≠ some file then (none, h)
  else if !shouldCacheFileReadMetadata policy h.flags ttl then (none, h.dropMetadata)
  else
    let fresh :=
      policy.readOnly || h.readMetadataLoadedAt.any fun loadedAt => clock - loadedAt < ttl
    if !fresh then (none, h.dropMetadata) else (h.readMetadata, h)

def Handle.save (policy : Policy) (clock ttl file : Nat) (metadata : Option (Snapshot μ))
    (h : Handle μ) : Handle μ :=
  if h.fileId = some file then
    if shouldCacheFileReadMetadata policy h.flags ttl then
      match metadata with
      | some snapshot =>
        { h with readMetadata := some snapshot, readMetadataLoadedAt := some clock }
      | none => h.dropMetadata
    else h.dropMetadata
  else h

end Handles

/-- What a thread in `file_read_metadata_for_handle` knows.  `since` is the moment of the last
invalidation of the file that was complete when the read began. -/
inductive Reader (μ : Type*) where
  | idle
  | missed (fh file ttl since : Nat)
  | loaded (fh file ttl since readAt : Nat) (metadata : Option μ)

structure Answer (μ : Type*) where
  file : Nat
  since : Nat
  readAt : Nat
  metadata : Option μ

/-- `now` counts steps, and `clock` is what `Instant` measures. -/
structure Mount (μ : Type*) where
  repo : Nat → Option μ
  handles : Nat → Option (Handle μ)
  nextFh : Nat
  readers : Nat → Reader μ
  clock : Nat
  now : Nat
  invalidated : Nat → Nat
  answers : List (Answer μ)

/-- The time to live can be changed at any time, so every read comes with its own. -/
inductive Action (μ : Type*) where
  | openFile (file : Option Nat) (flags : BitVec 32)
  | release (fh : Nat)
  | wait (duration : Nat)
  | commit (file : Nat) (metadata : Option μ)
  | invalidate (file : Nat)
  | look (t fh file liveTtl : Nat)
  | load (t : Nat)
  | loadFailed (t : Nat)
  | save (t : Nat)

namespace Mount

variable {μ : Type*}

def init (repo : Nat → Option μ) : Mount μ :=
  ⟨repo, fun _ => none, 1, fun _ => .idle, 0, 0, fun _ => 0, []⟩

def setReader (s : Mount μ) (t : Nat) (reader : Reader μ) : Mount μ :=
  { s with readers := Function.update s.readers t reader }

def setHandle (s : Mount μ) (fh : Nat) (handle : Option (Handle μ)) : Mount μ :=
  { s with handles := Function.update s.handles fh handle }

def look (policy : Policy) (s : Mount μ) (t fh file ttl : Nat) : Mount μ :=
  match s.handles fh with
  | none => s.setReader t (.missed fh file ttl (s.invalidated file))
  | some handle =>
    let result := handle.cached policy s.clock ttl file
    let s := s.setHandle fh (some result.2)
    match result.1 with
    | some snapshot =>
      { s with
        answers := ⟨file, s.invalidated file, snapshot.readAt, some snapshot.metadata⟩ :: s.answers }
    | none => s.setReader t (.missed fh file ttl (s.invalidated file))

def act (policy : Policy) (s : Mount μ) : Action μ → Option (Mount μ)
  | .openFile file flags =>
    some { s.setHandle s.nextFh (some ⟨file, flags, none, none⟩) with nextFh := s.nextFh + 1 }
  | .release fh => some (s.setHandle fh none)
  | .wait duration => some { s with clock := s.clock + duration }
  | .commit file metadata => some { s with repo := Function.update s.repo file metadata }
  | .invalidate file =>
    some { s with
      handles := fun fh => (s.handles fh).map (Handle.invalidate file)
      invalidated := Function.update s.invalidated file s.now }
  | .look t fh file liveTtl =>
    if s.nextFh ≤ fh then none
    else
      match s.readers t with
      | .idle => some (s.look policy t fh file (if policy.readOnly then 0 else liveTtl))
      | _ => none
  | .load t =>
    match s.readers t with
    | .missed fh file ttl since =>
      some (s.setReader t (.loaded fh file ttl since s.now (s.repo file)))
    | _ => none
  | .loadFailed t =>
    match s.readers t with
    | .missed _ _ _ _ => some (s.setReader t .idle)
    | _ => none
  | .save t =>
    match s.readers t with
    | .loaded fh file ttl since readAt metadata =>
      let s := s.setReader t .idle
      let snapshot := metadata.map (Snapshot.mk · readAt)
      some { s.setHandle fh ((s.handles fh).map
          (Handle.save policy s.clock ttl file snapshot)) with
        answers := ⟨file, since, readAt, metadata⟩ :: s.answers }
    | _ => none

def step (policy : Policy) (s : Mount μ) (a : Action μ) : Option (Mount μ) :=
  (s.act policy a).map fun s' => { s' with now := s'.now + 1 }

/-- No read of the file stands between the repository and a handle that it will store its
metadata into. -/
def Undisturbed (policy : Policy) (s : Mount μ) : Action μ → Prop
  | .invalidate file =>
    ∀ t fh ttl since readAt metadata,
      s.readers t = .loaded fh file ttl since readAt (some metadata) →
      ∀ handle, s.handles fh = some handle → handle.fileId = some file →
        shouldCacheFileReadMetadata policy handle.flags ttl = false
  | _ => True

/-- Every reply was read from the repository after the last invalidation that was complete
when the read began. -/
def Fresh (s : Mount μ) : Prop := ∀ answer ∈ s.answers, answer.since ≤ answer.readAt

/-! ## The invariant -/

def SameFile (h' h : Handle μ) : Prop := h'.fileId = h.fileId ∧ h'.flags = h.flags

/-- What a read may rely on.  Metadata that it will store is younger than every
invalidation of the file. -/
def Reading (policy : Policy) (s : Mount μ) : Reader μ → Prop
  | .idle => True
  | .missed fh _ _ since => fh < s.nextFh ∧ since ≤ s.now
  | .loaded fh file ttl since readAt metadata =>
    fh < s.nextFh ∧ since ≤ readAt ∧
      (metadata.isSome → ∀ handle, s.handles fh = some handle → handle.fileId = some file →
        shouldCacheFileReadMetadata policy handle.flags ttl = true →
        s.invalidated file ≤ readAt)

structure Inv (policy : Policy) (s : Mount μ) : Prop where
  past : ∀ file, s.invalidated file ≤ s.now
  cached : ∀ fh handle file snapshot, s.handles fh = some handle → handle.fileId = some file →
    handle.readMetadata = some snapshot → s.invalidated file ≤ snapshot.readAt
  reading : ∀ t, Reading policy s (s.readers t)
  fresh : s.Fresh

lemma inv_init (policy : Policy) (repo : Nat → Option μ) : Inv policy (init repo) where
  past _ := Nat.le_refl 0
  cached := by simp [init]
  reading _ := trivial
  fresh := by simp [Fresh, init]

section Steps

variable {policy : Policy} {s s' : Mount μ} {handle : Handle μ} {clock ttl file : Nat}

lemma sameFile_invalidate (file : Nat) (h : Handle μ) : SameFile (h.invalidate file) h := by
  rw [Handle.invalidate]
  split <;> exact ⟨rfl, rfl⟩

lemma sameFile_cached : SameFile (handle.cached policy clock ttl file).2 handle := by
  rw [Handle.cached]
  split
  · exact ⟨rfl, rfl⟩
  split
  · exact ⟨rfl, rfl⟩
  dsimp only
  split <;> exact ⟨rfl, rfl⟩

lemma sameFile_save {metadata : Option (Snapshot μ)} :
    SameFile (handle.save policy clock ttl file metadata) handle := by
  unfold Handle.save
  split
  · split
    · split <;> exact ⟨rfl, rfl⟩
    · exact ⟨rfl, rfl⟩
  · exact ⟨rfl, rfl⟩

variable {snapshot : Snapshot μ}

lemma readMetadata_cached
    (h : (handle.cached policy clock ttl file).2.readMetadata = some snapshot) :
    handle.readMetadata = some snapshot := by
  rw [Handle.cached] at h
  split at h
  · exact h
  split at h
  · cases h
  dsimp only at h
  split at h
  · cases h
  · exact h

lemma cached_eq_some (h : (handle.cached policy clock ttl file).1 = some snapshot) :
    handle.fileId = some file ∧ handle.readMetadata = some snapshot := by
  rw [Handle.cached] at h
  split at h
  · cases h
  next hfile =>
  split at h
  · cases h
  dsimp only at h
  split at h
  · cases h
  · exact ⟨not_not.mp hfile, h⟩

lemma readMetadata_save {metadata : Option (Snapshot μ)}
    (h : (handle.save policy clock ttl file metadata).readMetadata = some snapshot) :
    (handle.fileId ≠ some file ∧ handle.readMetadata = some snapshot) ∨ (handle.fileId = some file ∧
        shouldCacheFileReadMetadata policy handle.flags ttl = true ∧ metadata = some snapshot) := by
  unfold Handle.save at h
  split at h
  next hfile =>
    split at h
    next hcache =>
      split at h
      · exact .inr ⟨hfile, hcache, h⟩
      · cases h
    · cases h
  next hfile => exact .inl ⟨hfile, h⟩

lemma Reading.mono {reader : Reader μ} (h : Reading policy s reader)
    (hnext : s.nextFh ≤ s'.nextFh) (hnow : s.now ≤ s'.now)
    (hinvalidated : s'.invalidated = s.invalidated)
    (hhandles : ∀ fh < s.nextFh, ∀ h', s'.handles fh = some h' →
      ∃ h, s.handles fh = some h ∧ SameFile h' h) : Reading policy s' reader := by
  cases reader with
  | idle => trivial
  | missed fh file ttl since => exact ⟨Nat.lt_of_lt_of_le h.1 hnext, Nat.le_trans h.2 hnow⟩
  | loaded fh file ttl since readAt metadata =>
    refine ⟨Nat.lt_of_lt_of_le h.1 hnext, h.2.1, fun hsome h' hh' hfile hcache => ?_⟩
    obtain ⟨handle, hhandle, hsame, hflags⟩ := hhandles fh h.1 h' hh'
    rw [hinvalidated]
    exact h.2.2 hsome handle hhandle (hsame ▸ hfile) (hflags ▸ hcache)

section

variable (h : Inv policy s)

include h

lemma Inv.tick : Inv policy { s with now := s.now + 1 } where
  past file := Nat.le_succ_of_le (h.past file)
  cached := h.cached
  reading t := (h.reading t).mono (Nat.le_refl _) (Nat.le_succ _) rfl fun _ _ h' hh' =>
    ⟨h', hh', rfl, rfl⟩
  fresh := h.fresh

lemma Inv.setReader {t : Nat} {reader : Reader μ}
    (hreader : Reading policy s reader) : Inv policy (s.setReader t reader) where
  past := h.past
  cached := h.cached
  reading u := by
    change Reading policy s (Function.update s.readers t reader u)
    rw [Function.update_apply]
    split
    · exact hreader
    · exact h.reading u
  fresh := h.fresh

lemma Inv.setHandle {fh : Nat} {new : Option (Handle μ)}
    (hsame : ∀ h' ∈ new, ∃ handle, s.handles fh = some handle ∧ SameFile h' handle)
    (hcached : ∀ h' ∈ new, ∀ file snapshot, h'.fileId = some file →
      h'.readMetadata = some snapshot → s.invalidated file ≤ snapshot.readAt) :
    Inv policy (s.setHandle fh new) where
  past := h.past
  cached fh' h' file snapshot hh' hfile hsnapshot := by
    simp only [Mount.setHandle, Function.update_apply] at hh'
    split at hh'
    · exact hcached h' hh' file snapshot hfile hsnapshot
    · exact h.cached fh' h' file snapshot hh' hfile hsnapshot
  reading t := by
    refine (h.reading t).mono (Nat.le_refl _) (Nat.le_refl _) rfl fun fh' _ h' hh' => ?_
    simp only [Mount.setHandle, Function.update_apply] at hh'
    split at hh'
    next heq => exact heq ▸ hsame h' hh'
    next => exact ⟨h', hh', rfl, rfl⟩
  fresh := h.fresh

lemma Inv.answer {answer : Answer μ} (hfresh : answer.since ≤ answer.readAt) :
    Inv policy { s with answers := answer :: s.answers } where
  past := h.past
  cached := h.cached
  reading := h.reading
  fresh := by
    rintro answer' (_ | ⟨_, hanswer⟩)
    · exact hfresh
    · exact h.fresh answer' hanswer

lemma Inv.openFile (file : Option Nat) (flags : BitVec 32) :
    Inv policy { s.setHandle s.nextFh (some ⟨file, flags, none, none⟩) with
      nextFh := s.nextFh + 1 } where
  past := h.past
  cached fh handle file snapshot hhandle hfile hsnapshot := by
    simp only [Mount.setHandle, Function.update_apply] at hhandle
    split at hhandle
    · cases hhandle
      cases hsnapshot
    · exact h.cached fh handle file snapshot hhandle hfile hsnapshot
  reading t := by
    refine (h.reading t).mono (Nat.le_succ _) (Nat.le_refl _) rfl fun fh hfh handle hhandle => ?_
    simp only [Mount.setHandle, Function.update_apply, if_neg (Nat.ne_of_lt hfh)] at hhandle
    exact ⟨handle, hhandle, rfl, rfl⟩
  fresh := h.fresh

lemma Inv.invalidate {file : Nat}
    (hguard : Undisturbed policy s (.invalidate file)) :
    Inv policy { s with
      handles := fun fh => (s.handles fh).map (Handle.invalidate file)
      invalidated := Function.update s.invalidated file s.now } where
  past file' := by
    simp only [Function.update_apply]
    split
    · exact Nat.le_refl _
    · exact h.past file'
  cached fh h' file' snapshot hh' hfile hsnapshot := by
    obtain ⟨handle, hhandle, rfl⟩ := Option.map_eq_some_iff.mp hh'
    rw [Handle.invalidate] at hsnapshot hfile
    split at hsnapshot
    · cases hsnapshot
    next hother =>
      rw [if_neg hother] at hfile
      have hne : file' ≠ file := fun heq => hother (heq ▸ hfile)
      simp only [Function.update_apply, if_neg hne]
      exact h.cached fh handle file' snapshot hhandle hfile hsnapshot
  reading t := by
    have hreading := h.reading t
    change Reading policy _ (s.readers t)
    generalize hreader : s.readers t = reader at hreading ⊢
    cases reader with
    | idle => trivial
    | missed fh file' ttl since => exact hreading
    | loaded fh file' ttl since readAt metadata =>
      refine ⟨hreading.1, hreading.2.1, fun hsome h' hh' hfile hcache => ?_⟩
      obtain ⟨handle, hhandle, rfl⟩ := Option.map_eq_some_iff.mp hh'
      obtain ⟨hsame, hflags⟩ := sameFile_invalidate file handle
      rw [hsame] at hfile
      rw [hflags] at hcache
      simp only [Function.update_apply]
      split
      next heq =>
        obtain ⟨value, rfl⟩ := Option.isSome_iff_exists.mp hsome
        subst heq
        rw [hguard t fh ttl since readAt value hreader handle hhandle hfile] at hcache
        cases hcache
      next => exact hreading.2.2 hsome handle hhandle hfile hcache
  fresh := h.fresh

lemma Inv.look (t : Nat) {fh file ttl : Nat} (hfh : fh < s.nextFh) :
    Inv policy (s.look policy t fh file ttl) := by
  rw [Mount.look]
  split
  · exact h.setReader ⟨hfh, h.past file⟩
  next handle hhandle =>
    have hset : Inv policy (s.setHandle fh (some (handle.cached policy s.clock ttl file).2)) := by
      refine h.setHandle ?_ ?_
      · rintro h' ⟨⟩
        exact ⟨handle, hhandle, sameFile_cached⟩
      · rintro h' ⟨⟩ file' snapshot hfile hsnapshot
        exact h.cached fh handle file' snapshot hhandle (sameFile_cached.1 ▸ hfile)
          (readMetadata_cached hsnapshot)
    dsimp only
    split
    next snapshot hsnapshot =>
      obtain ⟨hfile, hmetadata⟩ := cached_eq_some hsnapshot
      exact hset.answer (h.cached fh handle file snapshot hhandle hfile hmetadata)
    next => exact hset.setReader ⟨hfh, h.past file⟩

lemma Inv.save {t fh file ttl since readAt : Nat} {metadata : Option μ}
    (hreader : s.readers t = .loaded fh file ttl since readAt metadata) :
    Inv policy { (s.setReader t .idle).setHandle fh ((s.handles fh).map
        (Handle.save policy s.clock ttl file (metadata.map (Snapshot.mk · readAt)))) with
      answers := ⟨file, since, readAt, metadata⟩ :: s.answers } := by
  have hreading := h.reading t
  rw [hreader] at hreading
  obtain ⟨-, hsince, hyoung⟩ := hreading
  have hidle : Inv policy (s.setReader t .idle) := h.setReader trivial
  refine (hidle.setHandle ?_ ?_).answer hsince
  · intro h' hh'
    obtain ⟨handle, hhandle, rfl⟩ := Option.map_eq_some_iff.mp hh'
    exact ⟨handle, hhandle, sameFile_save⟩
  · intro h' hh' file' snapshot hfile hsnapshot
    obtain ⟨handle, hhandle, rfl⟩ := Option.map_eq_some_iff.mp hh'
    rw [sameFile_save.1] at hfile
    rcases readMetadata_save hsnapshot with ⟨-, hold⟩ | ⟨hsame, hcache, hnew⟩
    · exact h.cached fh handle file' snapshot hhandle hfile hold
    · obtain ⟨value, rfl, rfl⟩ := Option.map_eq_some_iff.mp hnew
      obtain rfl := Option.some.inj (hfile.symm.trans hsame)
      exact hyoung rfl handle hhandle hfile hcache

lemma Inv.act {a : Action μ} (hguard : Undisturbed policy s a)
    (hact : s.act policy a = some s') : Inv policy s' := by
  cases a with
  | openFile file flags =>
    cases hact
    exact h.openFile file flags
  | release fh =>
    cases hact
    exact h.setHandle (by simp) (by simp)
  | wait duration =>
    cases hact
    exact ⟨h.past, h.cached, h.reading, h.fresh⟩
  | commit file metadata =>
    cases hact
    exact ⟨h.past, h.cached, h.reading, h.fresh⟩
  | invalidate file =>
    cases hact
    exact h.invalidate hguard
  | look t fh file liveTtl =>
    simp only [Mount.act] at hact
    split at hact
    · cases hact
    next hfh =>
    split at hact
    · cases hact
      exact h.look t (Nat.lt_of_not_le hfh)
    · cases hact
  | load t =>
    simp only [Mount.act] at hact
    split at hact
    next fh file ttl since hreader =>
      cases hact
      have hreading := h.reading t
      rw [hreader] at hreading
      exact h.setReader ⟨hreading.1, hreading.2, fun _ _ _ _ _ => h.past file⟩
    · cases hact
  | loadFailed t =>
    simp only [Mount.act] at hact
    split at hact
    · cases hact
      exact h.setReader trivial
    · cases hact
  | save t =>
    simp only [Mount.act] at hact
    split at hact
    next hreader =>
      cases hact
      exact h.save hreader
    · cases hact

lemma Inv.step {a : Action μ} (hguard : Undisturbed policy s a)
    (hstep : step policy s a = some s') : Inv policy s' := by
  obtain ⟨mid, hact, rfl⟩ := Option.map_eq_some_iff.mp hstep
  exact (h.act hguard hact).tick

end

/-- If no invalidation falls between a read of the repository and the store into a handle,
no reply is older than the last invalidation before its read. -/
theorem handle_metadata_fresh (policy : Policy) (repo : Nat → Option μ) (trace : List (Action μ))
    (hguard : Along (Mount.step policy) (Undisturbed policy) (init repo) trace)
    (hrun : run (Mount.step policy) (init repo) trace = some s) : s.Fresh :=
  (run_invariant (fun _ _ _ h hguard hstep => h.step hguard hstep) (inv_init policy repo) hguard
    hrun).fresh

end Steps

section Examples

def cachingPolicy : Policy := ⟨false, true, .noAtime⟩

def smallFile : Nat → Option Bool := fun _ => some false

def readTwice : List (Action Bool) :=
  [.openFile (some 5) 0, .look 1 1 5 10, .load 1, .save 1, .commit 5 (some true), .invalidate 5,
    .look 1 1 5 10, .load 1, .save 1]

theorem handle_metadata_fresh_readTwice :
    ∃ s, run (step cachingPolicy) (init smallFile) readTwice = some s ∧
      s.answers = [⟨5, 5, 7, some true⟩, ⟨5, 0, 2, some false⟩] ∧ s.Fresh := by
  refine ⟨_, rfl, rfl, handle_metadata_fresh cachingPolicy smallFile readTwice ?_ rfl⟩
  refine ⟨trivial, trivial, trivial, trivial, trivial, ?_, trivial, trivial, trivial, trivial⟩
  intro t fh ttl since readAt metadata hreader
  change Function.update (Function.update (Function.update (fun _ => Reader.idle) 1 _) 1 _) 1
    Reader.idle t = _ at hreader
  by_cases ht : t = 1 <;> simp [ht] at hreader

/-- The file changes and is invalidated while a read is on its way from the repository to the
handle. -/
def slowReader : List (Action Bool) :=
  [.openFile (some 5) 0, .look 1 1 5 10, .load 1, .commit 5 (some true), .invalidate 5, .save 1,
    .look 1 1 5 10]

/-- The next read is answered with what the file was before. -/
theorem handle_metadata_stale :
    ∃ s, run (step cachingPolicy) (init smallFile) slowReader = some s ∧
      s.answers = [⟨5, 4, 2, some false⟩, ⟨5, 0, 2, some false⟩] ∧ s.repo 5 = some true ∧
      ¬ s.Fresh := by
  refine ⟨_, rfl, rfl, rfl, fun hfresh => ?_⟩
  exact absurd (hfresh _ List.mem_cons_self) (by decide)

end Examples

end Mount

end Fod.HandleMetadata
