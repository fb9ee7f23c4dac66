import Fod.Rename.Paths

/-!
# The frontend and the transaction

The reply of the frontend is compared with what the transaction would do with the
entries that have the two names.
-/

namespace Fod.Rename

open Fod.Replay SeparatedPath

def Mount.transaction (m : Mount) (t : Tables) (c : Call) (source : Entry) :
    Except TransactionError (Tables × RenameOutcome) :=
  m.renameNamespace t ⟨source, c.old, c.new, entryAt t c.new, c.noReplace, c.subject.uid⟩ c.subject

/-- The transaction would return `Applied` or `NoOpSameFile`. -/
def Mount.RepositoryDoes (m : Mount) (t : Tables) (c : Call) (source : Entry) : Prop :=
  ∃ t' outcome, m.transaction t c source = .ok (t', outcome) ∧ outcomeErrno outcome = none

inductive Mount.FailsWith (m : Mount) (t : Tables) (c : Call) (source : Entry) : Errno → Prop
  | readOnly (h : m.readOnly = true) : FailsWith m t c source .erofs
  | nameTooLong (h : (tooLong c.name || tooLong c.newName) = true) :
      FailsWith m t c source .enametoolong
  | cycle (h : t.makesCycle source c.newParent = true) : FailsWith m t c source .einval
  | notDirectory {target : Entry} (htarget : entryAt t c.new = some target)
      (hsource : isDirectory source = true) (hkind : isDirectory target = false) :
      FailsWith m t c source .enotdir
  | isDirectory {target : Entry} (htarget : entryAt t c.new = some target)
      (hsource : isDirectory source = false) (hkind : isDirectory target = true) :
      FailsWith m t c source .eisdir
  | targetExists {target : Entry} (htarget : entryAt t c.new = some target)
      (hno : c.noReplace = true) : FailsWith m t c source .eexist
  | refused {t' : Tables} {outcome : RenameOutcome} {errno : Errno}
      (h : m.transaction t c source = .ok (t', outcome)) (herrno : outcomeErrno outcome = some errno) :
      FailsWith m t c source errno
  | failed {error : TransactionError} (h : m.transaction t c source = .error error)
      (herrno : error.errno ≠ .eio) : FailsWith m t c source error.errno

/-- The frontend refuses nothing that the transaction does, and says why it refuses. -/
def Mount.Follows (m : Mount) (t : Tables) (c : Call) (source : Entry) : Prop :=
  ((∃ t', m.rename t c = .ok t') ↔ m.RepositoryDoes t c source) ∧
    ∀ errno, m.rename t c = .error errno → m.FailsWith t c source errno

def Mount.Refines (m : Mount) (t : Tables) (c : Call) : Prop :=
  match entryAt t c.old with
  | none => m.rename t c = .error .enoent
  | some source => m.Follows t c source

/-- One of the two entries is a directory and the other one would be replaced by it or
replace it. -/
def Call.kindsConflict (c : Call) (t : Tables) (source : Entry) : Bool :=
  !c.noReplace && (entryAt t c.new).any fun target => isDirectory source != isDirectory target

def Mount.Serves (m : Mount) (t : Tables) (c : Call) : Prop :=
  ∃ source, entryAt t c.old = some source ∧
    if m.readOnly || tooLong c.name || tooLong c.newName then ¬ m.RepositoryDoes t c source
    else if c.old = c.new then c.noReplace = true ∨ m.RepositoryDoes t c source
    else if c.kindsConflict t source then ¬ m.RepositoryDoes t c source
    else protectedKind source = true ∧ (∀ target ∈ entryAt t c.new, protectedKind target = true) ∧
      ∀ error, m.transaction t c source = .error error → error.errno ≠ .eio

variable {m : Mount} {t : Tables} {c : Call} {source : Entry} {errno : Errno}

lemma outcomeErrno_ne_eio (outcome : RenameOutcome) : outcomeErrno outcome ≠ some .eio := by
  cases outcome <;> decide

lemma Mount.FailsWith.ne_eio (h : m.FailsWith t c source errno) : errno ≠ .eio := by
  intro heq
  cases h with
  | refused _ herrno => exact outcomeErrno_ne_eio _ (heq ▸ herrno)
  | failed _ herrno => exact herrno heq
  | readOnly | nameTooLong | cycle | notDirectory | isDirectory | targetExists => cases heq

variable {r : RenameRequest}

lemma renameStopped_refuses {outcome : RenameOutcome}
    (h : t.renameStopped r = some outcome) : outcomeErrno outcome ≠ none := by
  unfold Tables.renameStopped at h
  repeat' split at h
  all_goals
    cases h
    try decide

lemma not_does_of_stopped
    (h : t.renameStopped ⟨source, c.old, c.new, entryAt t c.new, c.noReplace, c.subject.uid⟩ ≠ none) :
    ¬ m.RepositoryDoes t c source := by
  obtain ⟨outcome, hstopped⟩ := Option.ne_none_iff_exists'.mp h
  rintro ⟨t', outcome', hdone, hok⟩
  rw [Mount.transaction, Mount.renameNamespace, hstopped] at hdone
  cases hdone
  exact renameStopped_refuses hstopped hok

lemma stopped_of_cycle (h : t.makesCycle r.source r.new.1 = true) : t.renameStopped r ≠ none := by
  intro hnone
  unfold Tables.renameStopped at hnone
  repeat' split at hnone
  all_goals cases hnone

lemma stopped_of_exists {target : Entry} (htarget : entryAt t r.new = some target)
    (hno : r.noReplace = true) : t.renameStopped r ≠ none := by
  intro hnone
  have hvacant := (renameStopped_cases hnone).2
  rw [Tables.TargetReady, RenameRequest.target, if_pos hno] at hvacant
  exact hvacant target (located_of_entryAt htarget)

def TextCycle (oldPath newParentPath : Text) : Prop :=
  newParentPath = oldPath ∨ trimEnd '/' oldPath ++ ['/'] <+: newParentPath

lemma Mount.rename_resolved (hspace : OnePerName t) (hparent : m.KnowsPath t c.parent)
    (hnew : m.KnowsPath t c.newParent) (hwritable : m.readOnly = false)
    (hnames : (tooLong c.name || tooLong c.newName) = false) :
    ∃ oldPath newParentPath,
      (∀ d, entryAt t c.old = some (.directory d) → TextCycle oldPath newParentPath →
        t.makesCycle (.directory d) c.newParent = true) ∧
      m.rename t c =
        if c.old = c.new then if c.noReplace then .error .eexist else .ok t
        else (do
          checkKinds c.noReplace (entryAt t c.old) (entryAt t c.new) oldPath newParentPath
          m.protectedRename t c c.newParent (entryAt t c.old) (entryAt t c.new)) := by
  obtain ⟨cs, hcs, hcsCached⟩ := hparent
  obtain ⟨ds, hds, hdsCached⟩ := hnew
  refine ⟨render '/' (cs ++ [c.name]), render '/' ds, fun d hd htext => ?_, ?_⟩
  · have hsource : PathTo t (cs ++ [c.name]) d :=
      .child hcs (located_of_entryAt hd) c.nameComponent
    exact hsource.makesCycle hspace (by simp) hds htext
  have hpaths : render '/' (cs ++ [c.name]) = render '/' (ds ++ [c.newName]) ↔ c.old = c.new := by
    constructor
    · intro htext
      have hsame := render_injective (hcs.components.concat c.nameComponent)
        (hds.components.concat c.newNameComponent) htext
      obtain ⟨rfl, hname⟩ := List.append_inj' hsame rfl
      exact Prod.ext (hcs.functional hspace hds) (List.singleton_inj.mp hname)
    · intro hsame
      have hparent : c.parent = c.newParent := congrArg Prod.fst hsame
      have hname : c.name = c.newName := congrArg Prod.snd hsame
      have hcs' : PathTo t cs c.newParent := hparent ▸ hcs
      rw [hcs'.unique hspace hds, hname]
  have hresolve : resolvePath t (render '/' (cs ++ [c.name])) = .ok (entryAt t c.old) :=
    hcs.resolvePath hspace c.nameComponent
  have hresolve' : resolvePath t (render '/' (ds ++ [c.newName])) = .ok (entryAt t c.new) :=
    hds.resolvePath hspace c.newNameComponent
  have hid := Mount.KnowsPath.parentEntryIdForInode hspace ⟨ds, hds, hdsCached⟩
  rw [Mount.rename, hwritable, hnames, Mount.KnowsPath.entryPathForIno hspace hcs hcsCached,
    Mount.KnowsPath.entryPathForIno hspace hds hdsCached]
  simp only [bind, Except.bind, Bool.false_eq_true, if_false, join_render hcs.components,
    join_render hds.components, hresolve, hid, Mount.renamePaths, hpaths, hresolve']

lemma Mount.protectedRename_eq (hspace : OnePerName t) (hparent : m.KnowsPath t c.parent)
    (hsource : protectedKind source = true)
    (htarget : ∀ target ∈ entryAt t c.new, protectedKind target = true) :
    m.protectedRename t c c.newParent (some source) (entryAt t c.new) =
      match m.transaction t c source with
      | .error error => .error error.errno
      | .ok (t', outcome) =>
        match outcomeErrno outcome with
        | none => .ok t'
        | some errno => .error errno := by
  have hkinds : (!protectedKind source || (entryAt t c.new).any fun e => !protectedKind e) = false := by
    rw [hsource]
    cases hentry : entryAt t c.new with
    | none => rfl
    | some target => simp [htarget target hentry]
  rw [Mount.protectedRename, hkinds, Mount.KnowsPath.parentEntryIdForInode hspace hparent]
  rfl

lemma follows_of_error (h : m.rename t c = .error errno) (hfails : m.FailsWith t c source errno) :
    m.Follows t c source ↔ ¬ m.RepositoryDoes t c source := by
  rw [Mount.Follows, h]
  constructor
  · rintro ⟨hdoes, -⟩ hdone
    obtain ⟨t', ht'⟩ := hdoes.mpr hdone
    cases ht'
  · intro hnot
    constructor
    · refine iff_of_false ?_ hnot
      rintro ⟨t', ⟨⟩⟩
    · rintro errno' ⟨⟩
      exact hfails

lemma not_follows_of_eio (h : m.rename t c = .error .eio) : ¬ m.Follows t c source :=
  fun hfollows => (hfollows.2 .eio h).ne_eio rfl

lemma follows_of_transaction (h : m.rename t c =
      match m.transaction t c source with
      | .error error => .error error.errno
      | .ok (t', outcome) =>
        match outcomeErrno outcome with
        | none => .ok t'
        | some errno => .error errno) :
    m.Follows t c source ↔
      ∀ error, m.transaction t c source = .error error → error.errno ≠ .eio := by
  cases htransaction : m.transaction t c source with
  | error error =>
    rw [htransaction] at h
    have hnot : ¬ m.RepositoryDoes t c source := by
      rintro ⟨t', outcome, hdone, -⟩
      rw [htransaction] at hdone
      cases hdone
    constructor
    · rintro hfollows _ ⟨⟩ heio
      exact not_follows_of_eio (heio ▸ h) hfollows
    · intro hknown
      exact (follows_of_error h (.failed htransaction (hknown error rfl))).mpr hnot
  | ok result =>
    obtain ⟨t', outcome⟩ := result
    rw [htransaction] at h
    refine iff_of_true ?_ fun error herror => by cases herror
    cases herrno : outcomeErrno outcome with
    | none =>
      simp only [herrno] at h
      refine ⟨iff_of_true ⟨t', h⟩ ⟨t', outcome, htransaction, herrno⟩, fun errno herror => ?_⟩
      rw [h] at herror
      cases herror
    | some errno =>
      simp only [herrno] at h
      refine (follows_of_error h (.refused htransaction herrno)).mpr ?_
      rintro ⟨t'', outcome', hdone, hok⟩
      rw [htransaction] at hdone
      cases hdone
      rw [hok] at herrno
      cases herrno

lemma rename_unbound (hspace : OnePerName t) (hparent : m.KnowsPath t c.parent)
    (hnew : m.KnowsPath t c.newParent) (hold : entryAt t c.old = none) :
    m.rename t c ≠ .error .enoent := by
  cases hwritable : m.readOnly with
  | true => simp [Mount.rename, hwritable]
  | false =>
    cases hnames : tooLong c.name || tooLong c.newName with
    | true => simp [Mount.rename, hwritable, hnames]
    | false =>
      obtain ⟨oldPath, newParentPath, -, hrename⟩ :=
        Mount.rename_resolved hspace hparent hnew hwritable hnames
      rw [hrename, hold]
      by_cases hsame : c.old = c.new
      · rw [if_pos hsame]
        split <;> simp
      · rw [if_neg hsame]
        simp only [checkKinds, Option.any_none, Bool.false_eq_true, if_false, Mount.protectedRename,
          bind, Except.bind]
        grind

lemma follows_of_same (hold : entryAt t c.old = some source) (hsame : c.old = c.new)
    (h : m.rename t c = if c.noReplace then .error .eexist else .ok t) :
    m.Follows t c source ↔ c.noReplace = true ∨ m.RepositoryDoes t c source := by
  cases hno : c.noReplace with
  | true =>
    rw [hno, if_pos rfl] at h
    have htarget : entryAt t c.new = some source := hsame ▸ hold
    refine iff_of_true ?_ (.inl rfl)
    exact (follows_of_error h (.targetExists htarget hno)).mpr
      (not_does_of_stopped (stopped_of_exists htarget hno))
  | false =>
    rw [hno, if_neg Bool.false_ne_true] at h
    simp only [Mount.Follows, h, Except.ok.injEq, exists_eq', true_iff, reduceCtorEq, false_imp_iff,
      implies_true, and_true, Bool.false_eq_true, false_or]

section Kinds

variable {oldPath newParentPath : Text}
  (hcycle : ∀ d, source = .directory d → TextCycle oldPath newParentPath →
    t.makesCycle (.directory d) c.newParent = true)

lemma kindsConflict_of_ok
    (h : checkKinds c.noReplace (some source) (entryAt t c.new) oldPath newParentPath = .ok ()) :
    c.kindsConflict t source = false := by
  unfold checkKinds at h
  unfold Call.kindsConflict
  cases htarget : entryAt t c.new with
  | none => simp
  | some target => grind

lemma isDirectory_iff {e : Entry} : isDirectory e = true ↔ ∃ d, e = .directory d := by
  cases e <;> simp [isDirectory]

lemma protectedKind_of_isDirectory {e : Entry} (h : isDirectory e = true) :
    protectedKind e = true := by
  obtain ⟨d, rfl⟩ := isDirectory_iff.mp h
  rfl

include hcycle in
lemma failsWith_of_checkKinds
    (h : checkKinds c.noReplace (some source) (entryAt t c.new) oldPath newParentPath =
      .error errno) : m.FailsWith t c source errno := by
  unfold checkKinds at h
  split at h
  case isFalse => cases h
  split at h
  case isTrue hdirectory =>
    obtain ⟨d, rfl⟩ := isDirectory_iff.mp hdirectory
    split at h
    case isTrue htext =>
      cases h
      exact .cycle (hcycle d rfl htext)
    split at h
    case isFalse => cases h
    case isTrue hkind =>
      cases h
      cases htarget : entryAt t c.new with
      | none => simp [htarget] at hkind
      | some target => exact .notDirectory htarget hdirectory (by simpa [htarget] using hkind)
  case isFalse hplain =>
    split at h
    case isFalse => cases h
    case isTrue hkind =>
      cases h
      cases htarget : entryAt t c.new with
      | none => simp [htarget] at hkind
      | some target =>
        exact .isDirectory htarget (by simpa using hplain) (by simpa [htarget] using hkind)

include hcycle in
lemma cycle_of_checkKinds (hkinds : c.kindsConflict t source = false)
    (h : checkKinds c.noReplace (some source) (entryAt t c.new) oldPath newParentPath =
      .error errno) : t.makesCycle source c.newParent = true ∧ protectedKind source = true ∧
      ∀ target ∈ entryAt t c.new, protectedKind target = true := by
  have hdirectory : isDirectory source = true ∧ TextCycle oldPath newParentPath ∧
      ∀ target ∈ entryAt t c.new, isDirectory target = true := by
    unfold checkKinds at h
    unfold Call.kindsConflict at hkinds
    unfold TextCycle
    cases htarget : entryAt t c.new with
    | none => grind
    | some target => grind
  obtain ⟨hsource, htext, htarget⟩ := hdirectory
  refine ⟨?_, protectedKind_of_isDirectory hsource, fun target hmem =>
    protectedKind_of_isDirectory (htarget target hmem)⟩
  obtain ⟨d, rfl⟩ := isDirectory_iff.mp hsource
  exact hcycle d rfl htext

end Kinds

lemma follows_of_early (h : (m.readOnly || tooLong c.name || tooLong c.newName) = true) :
    m.Follows t c source ↔ ¬ m.RepositoryDoes t c source := by
  cases hwritable : m.readOnly with
  | true =>
    have hreply : m.rename t c = .error .erofs := by rw [Mount.rename, hwritable, if_pos rfl]
    exact follows_of_error hreply (.readOnly hwritable)
  | false =>
    have hnames : (tooLong c.name || tooLong c.newName) = true := by
      simpa [hwritable] using h
    have hreply : m.rename t c = .error .enametoolong := by
      rw [Mount.rename, hwritable, if_neg Bool.false_ne_true, if_pos hnames]
    exact follows_of_error hreply (.nameTooLong hnames)

lemma follows_of_distinct (hspace : OnePerName t) (hparent : m.KnowsPath t c.parent)
    {oldPath newParentPath : Text}
    (hcycle : ∀ d, source = .directory d → TextCycle oldPath newParentPath →
      t.makesCycle (.directory d) c.newParent = true) (hreply : m.rename t c = (do
      checkKinds c.noReplace (some source) (entryAt t c.new) oldPath newParentPath
      m.protectedRename t c c.newParent (some source) (entryAt t c.new)))
    (hkinds : c.kindsConflict t source = false) : m.Follows t c source ↔
      protectedKind source = true ∧ (∀ target ∈ entryAt t c.new, protectedKind target = true) ∧
        ∀ error, m.transaction t c source = .error error → error.errno ≠ .eio := by
  cases hcheck : checkKinds c.noReplace (some source) (entryAt t c.new) oldPath newParentPath with
  | error errno =>
    rw [hcheck] at hreply
    obtain ⟨hmakes, hsource, htarget⟩ := cycle_of_checkKinds hcycle hkinds hcheck
    have hstopped := stopped_of_cycle (t := t)
      (r := ⟨source, c.old, c.new, entryAt t c.new, c.noReplace, c.subject.uid⟩) hmakes
    refine iff_of_true ?_ ⟨hsource, htarget, fun error herror => ?_⟩
    · exact (follows_of_error hreply (failsWith_of_checkKinds hcycle hcheck)).mpr
        (not_does_of_stopped hstopped)
    · obtain ⟨outcome, houtcome⟩ := Option.ne_none_iff_exists'.mp hstopped
      rw [Mount.transaction, Mount.renameNamespace, houtcome] at herror
      cases herror
  | ok =>
    rw [hcheck] at hreply
    have hprotected : m.rename t c =
        m.protectedRename t c c.newParent (some source) (entryAt t c.new) := hreply
    by_cases hall : protectedKind source = true ∧
        ∀ target ∈ entryAt t c.new, protectedKind target = true
    · rw [Mount.protectedRename_eq hspace hparent hall.1 hall.2] at hprotected
      rw [follows_of_transaction hprotected]
      exact ⟨fun herrors => ⟨hall.1, hall.2, herrors⟩, fun hserved => hserved.2.2⟩
    · refine iff_of_false (not_follows_of_eio ?_) fun hserved => hall ⟨hserved.1, hserved.2.1⟩
      rw [hprotected, Mount.protectedRename, if_pos]
      cases htarget : entryAt t c.new with
      | none => simpa [htarget] using hall
      | some target => grind

/-- A rename by the frontend agrees with the transaction if and only if the call is one of
those that are served. -/
theorem rename_refines_iff (m : Mount) (t : Tables) (c : Call) (hspace : OnePerName t)
    (hparent : m.KnowsPath t c.parent) (hnew : m.KnowsPath t c.newParent) :
    m.Refines t c ↔ m.Serves t c := by
  unfold Mount.Refines Mount.Serves
  cases hold : entryAt t c.old with
  | none =>
    refine iff_of_false (rename_unbound hspace hparent hnew hold) ?_
    rintro ⟨source, ⟨⟩, -⟩
  | some source =>
    simp only [Option.some.injEq, exists_eq_left']
    cases hearly : m.readOnly || tooLong c.name || tooLong c.newName with
    | true => simpa using follows_of_early hearly
    | false =>
      rw [if_neg Bool.false_ne_true]
      rw [Bool.or_assoc, Bool.or_eq_false_iff] at hearly
      obtain ⟨oldPath, newParentPath, hcycle, hreply⟩ :=
        Mount.rename_resolved hspace hparent hnew hearly.1 hearly.2
      rw [hold] at hcycle hreply
      have hsourceCycle : ∀ d, source = .directory d → TextCycle oldPath newParentPath →
          t.makesCycle (.directory d) c.newParent = true :=
        fun d hd => hcycle d (congrArg some hd)
      by_cases hsame : c.old = c.new
      · rw [if_pos hsame] at hreply ⊢
        exact follows_of_same hold hsame hreply
      · rw [if_neg hsame] at hreply ⊢
        cases hkinds : c.kindsConflict t source with
        | false => exact follows_of_distinct hspace hparent hsourceCycle hreply hkinds
        | true =>
          cases hcheck : checkKinds c.noReplace (some source) (entryAt t c.new) oldPath
              newParentPath with
          | ok => rw [kindsConflict_of_ok hcheck] at hkinds; cases hkinds
          | error errno =>
            rw [hcheck] at hreply
            exact follows_of_error hreply (failsWith_of_checkKinds hsourceCycle hcheck)

def aliasedSymlink : Tables where
  directories := ∅
  files := ∅
  hardlinks := ∅
  symlinks := (∅ : Table Nat Symlink).insert 2 ⟨(0, ['a']), ['x'], 0, 0, []⟩
  symlinkHardlinks := (∅ : Table Nat SymlinkHardlink).insert 3 ⟨2, (0, ['b'])⟩
  nextEntry := 4
  data := { files := ∅, objects := ∅, nextObject := 0 }
  hashes := ∅
  dataObjectTokens := ∅
  promotionTokens := ∅
  lockTokens := ∅
  flocks := ∅
  reservations := ∅
  writeLeases := ∅
  destinationLeases := []
  opened := []

lemma OnePerName.of_entries (hids : t.directories.lookup 0 = none)
    (h : (t.entries.map Prod.snd).Nodup) : OnePerName t where
  ids := hids
  one location e e' he he' := by
    have hmem {e : Entry} (hthere : t.Located location e) : (e, location) ∈ t.entries := by
      simpa [Tables.entriesAt] using Tables.mem_entriesAt.mpr hthere
    exact congrArg Prod.fst (List.inj_on_of_nodup_map h (hmem he) (hmem he') rfl)

lemma aliasedSymlink_onePerName : OnePerName aliasedSymlink :=
  .of_entries rfl (by decide)

def plainMount : Mount := ⟨false, false, fun _ => none, fun _ => none⟩

lemma knowsPath_root : m.KnowsPath t 0 := ⟨[], .root, fun h => absurd rfl h⟩

def moveToC (name : Text) (h : Component '/' name) : Call :=
  ⟨0, name, 0, ['c'], false, ⟨0, 0, []⟩, h, by decide⟩

theorem rename_refines_symlink : plainMount.Refines aliasedSymlink (moveToC ['a'] (by decide)) :=
  (rename_refines_iff plainMount aliasedSymlink (moveToC ['a'] (by decide)) aliasedSymlink_onePerName
    knowsPath_root knowsPath_root).mpr
    ⟨.symlink 2, by decide, by
      rw [if_neg (by decide), if_neg (by decide), if_neg (by decide)]
      exact ⟨rfl, by decide, fun error herror => by cases herror⟩⟩

/-- The transaction moves the alias and the frontend does not, and a name without an entry
is answered with the same error. -/
theorem rename_alias_eio :
    OnePerName aliasedSymlink ∧ plainMount.KnowsPath aliasedSymlink 0 ∧
      entryAt aliasedSymlink (0, ['b']) = some (.symlinkHardlink 3 2) ∧
      (∃ t', plainMount.transaction aliasedSymlink (moveToC ['b'] (by decide)) (.symlinkHardlink 3 2) =
        .ok (t', .applied)) ∧
      plainMount.rename aliasedSymlink (moveToC ['b'] (by decide)) = .error .eio ∧
      entryAt aliasedSymlink (0, ['x']) = none ∧
      plainMount.rename aliasedSymlink (moveToC ['x'] (by decide)) = .error .eio :=
  ⟨aliasedSymlink_onePerName, knowsPath_root, rfl, ⟨_, rfl⟩, rfl, rfl, rfl⟩

end Fod.Rename
