import Fod.Namespace.Discipline

/-!
# The transactions keep to the lock discipline

One lemma for each block of statements that the programs share, then one for
each program.
-/

namespace Fod.Namespace

section Blocks

variable {F : Facts} {rest : List Stmt}

lemma safe_lockRows (entries : List Entry) (mode : RowLock) (h : Safe F rest) :
    Safe F (entries.map (.lockRow · mode) ++ rest) := by
  induction entries with
  | nil => exact h
  | cons e entries ih => exact .lockRow (ih.hold _)

lemma safe_requireParentWriteSearch (actor : Actor) (parent : Option Nat) (h : Safe F rest) :
    Safe F (requireParentWriteSearch actor parent ++ rest) := by
  unfold requireParentWriteSearch
  split
  · exact h
  · split
    · exact .lockRow (h.hold _)
    · split
      · exact .lockRoot h
      · exact h

lemma safe_requireStickyRemoval (actor : Actor) (parent : Option Nat) (victim : Entry)
    (h : Safe F rest) : Safe F (requireStickyRemoval actor parent victim ++ rest) := by
  unfold requireStickyRemoval
  split
  · exact h
  · split
    · refine .lockRow (Safe.hold ?_ _)
      split
      · exact .lockRow (h.hold _)
      · exact h
    · exact h

lemma safe_requireNamespaceVacant {p : Place} (hkey : .key (.destination p) ∈ F.locks)
    (h : Safe (F.see p none) rest) : Safe F (requireNamespaceVacant p ++ rest) := by
  unfold requireNamespaceVacant
  rw [List.append_assoc]
  exact safe_lockRows _ _ (.requireVacant hkey h)

lemma safe_inheritParentSetgid (p : Place) (h : Safe F rest) :
    Safe F (inheritParentSetgid p ++ rest) := by
  unfold inheritParentSetgid
  split
  · exact .lockRow (h.hold _)
  · exact .lockRoot h

lemma claims_of_vacant {p : Place} (hwrites : F.writes = []) : (F.see p none).Claims p none where
  seen := List.mem_cons_self
  removed e he := by cases he
  validated e he := by cases he
  first w hw := by simp [Facts.see, hwrites] at hw
  kept e link q hw := by simp [Facts.see, hwrites] at hw

lemma safe_insert {p : Place} {new : NewEntry} {between after : List Stmt}
    (hwrites : F.writes = []) (hkey : .key (.destination p) ∈ F.locks)
    (hbetween : ∀ G tail, Safe G tail → Safe G (between ++ tail)) (hafter : ∀ G, Safe G after) :
    Safe F (requireNamespaceVacant p ++ (between ++ .write (.insert new p) :: after)) :=
  safe_requireNamespaceVacant hkey
    (hbetween _ _ (.write ⟨none, claims_of_vacant hwrites⟩ (hafter _)))

lemma safe_touchParent (G : Facts) (p : Place) : Safe G (touchParent p) := by
  have h : Safe G (touchParent p ++ []) := safe_lockRows _ _ .done
  rwa [List.append_nil] at h

lemma safe_removePrimaryFile {f : Nat} (hfirst : ∀ w ∈ F.writes, w.claim = none)
    (hpromote : ∀ row, row.entry.isHardlinkOf f = true →
      Safe ((F.pin row).write (.promote (.file f) row.entry row.place)) rest)
    (hhide : ∀ name, Safe (F.write (.hide f name)) rest)
    (hdelete : Safe (F.write (.delete (.file f))) rest) : Safe F (removePrimaryFile f ++ rest) := by
  have hguard : ((F.hold [.key (.openFile f)]).hold [.row (.file f) .update]).Guards (.file f) := by
    intro l hl
    obtain rfl : Lock.key (.openFile f) = l := Option.some.inj hl
    simp [Facts.hold]
  refine .lock (.lockRow (.removeFile hguard ?_ ?_ ?_))
  · intro row hlink
    refine .write ⟨hguard, hlink, hfirst, row, List.mem_cons_self, rfl, rfl⟩ ?_
    exact (hpromote row hlink).mono (List.subset_append_right (_ :: [_]) _)
  · intro name
    exact .write hguard ((hhide name).mono (List.subset_append_right (_ :: [_]) _))
  · exact .write hguard (hdelete.mono (List.subset_append_right (_ :: [_]) _))

end Blocks

lemma createFile_safe (seed : String) (p : Place) (actor : Actor) :
    Safe {} (createFile seed p actor) := by
  simp only [createFile, List.append_assoc, List.cons_append, List.nil_append]
  refine .lock (.lock (safe_requireParentWriteSearch _ _ ?_))
  exact safe_insert rfl List.mem_cons_self (fun G tail h => safe_inheritParentSetgid p h)
    (safe_touchParent · p)

lemma createNode_safe (new : NewEntry) (p : Place) (actor : Actor) :
    Safe {} (createNode new p actor) := by
  simp only [createNode, List.append_assoc, List.cons_append, List.nil_append]
  refine .lock (safe_requireParentWriteSearch _ _ ?_)
  exact safe_insert rfl List.mem_cons_self (fun G tail h => safe_inheritParentSetgid p h)
    (safe_touchParent · p)

variable {F : Facts} {rest : List Stmt}

lemma insertHardlink_safe (hwrites : F.writes = []) (f : Nat) {p : Place}
    (hkey : .key (.destination p) ∈ F.locks) (actor : Actor) :
    Safe F (insertHardlink f p actor) := by
  have hinsert : Safe F (requireNamespaceVacant p ++
      ([] ++ .write (.insert (.hardlink f) p) :: touchParent p)) :=
    safe_insert hwrites hkey (fun G tail h => h) (safe_touchParent · p)
  simp only [insertHardlink, List.append_assoc, List.cons_append, List.nil_append]
  exact safe_requireParentWriteSearch _ _ hinsert

lemma createHardlink_safe (f : Nat) (source : Option SourceBinding) (p : Place)
    (actor : Actor) : Safe {} (createHardlink f source p actor) := by
  cases source with
  | none =>
    exact .lock (.lockRow (.requireVisible
      (.lock (insertHardlink_safe rfl f List.mem_cons_self actor))))
  | some b =>
    refine .lock (.lock (.lock (.lockRow ?_)))
    split
    · exact .requireBound (.requireVisible
        (insertHardlink_safe rfl f (by simp [Facts.hold]) actor))
    · exact .done

lemma insertSymlinkHardlink_safe (hwrites : F.writes = []) (sl : Nat) {p : Place}
    (hkey : .key (.destination p) ∈ F.locks) (actor : Actor) :
    Safe F (insertSymlinkHardlink sl p actor) := by
  have hinsert : Safe F (requireNamespaceVacant p ++
      ([] ++ [.write (.insert (.symlinkHardlink sl) p)])) :=
    safe_insert hwrites hkey (fun G tail h => h) (fun G => .done)
  simp only [insertSymlinkHardlink, List.append_assoc]
  exact safe_requireParentWriteSearch _ _ hinsert

lemma createSymlinkHardlink_safe (sl : Nat) (source : Option SourceBinding) (p : Place)
    (actor : Actor) : Safe {} (createSymlinkHardlink sl source p actor) := by
  cases source with
  | none =>
    exact .lock (.lockRow (insertSymlinkHardlink_safe rfl sl (by simp [Facts.hold]) actor))
  | some b =>
    refine .lock (.lock (.lockRow ?_))
    split
    · exact .requireBound (insertSymlinkHardlink_safe rfl sl (by simp [Facts.hold]) actor)
    · exact .done

lemma removePrimaryFile_safe (F : Facts) (f : Nat) (hfirst : ∀ w ∈ F.writes, w.claim = none) :
    Safe F (removePrimaryFile f) := by
  have h : Safe F (removePrimaryFile f ++ []) :=
    safe_removePrimaryFile hfirst (fun row _ => .done) (fun name => .done) .done
  rwa [List.append_nil] at h

lemma purgePrimaryFile_safe (F : Facts) (f : Nat) (hfirst : ∀ w ∈ F.writes, w.claim = none) :
    Safe F (purgePrimaryFile f) :=
  .lock (.lockRow (.requireNoHardlinks (removePrimaryFile_safe _ f hfirst)))

lemma unlinkName_safe {f : Nat} (hwrites : F.writes = [])
    (hguard : F.Guards (.file f)) (hidden : String) (p : Place) (actor : Actor) :
    Safe F [.unlinkName f hidden p actor] := by
  have hfirst : ∀ w ∈ F.writes, w.claim = none := by simp [hwrites]
  have hhidden : ∀ w ∈ (F.write (.hide f hidden)).writes, w.claim = none := by
    simp [Facts.write, hwrites, Write.claim]
  refine .unlinkName ?_ ?_
  · rw [List.append_assoc]
    refine safe_requireParentWriteSearch _ _ (safe_requireStickyRemoval _ _ _ ?_)
    refine .unlinkPrimary (.write hguard .done) (.write hguard ?_) ?_
    · rw [List.append_nil]
      exact purgePrimaryFile_safe _ f hhidden
    · rw [List.append_nil]
      exact removePrimaryFile_safe F f hfirst
  · rw [List.append_assoc]
    exact safe_requireParentWriteSearch _ _ (safe_requireStickyRemoval _ _ _
      (.deleteHardlinkAt hguard fun id => .done))

lemma unlinkFile_safe (f : Nat) (seed hidden : String) (p : Place) (actor : Actor) :
    Safe {} (unlinkFile f seed hidden p actor) := by
  unfold unlinkFile
  split
  · exact .done
  · refine .lock (.lock (.lock (.lock (.lockRow (unlinkName_safe rfl ?_ hidden p actor)))))
    intro l hl
    obtain rfl : Lock.key (.openFile f) = l := Option.some.inj hl
    simp [Facts.hold]

lemma removeSymlink_safe {sl : Nat}
    (hfirst : ∀ w ∈ F.writes, w.claim = none) (hguard : F.Guards (.symlink sl))
    (hpromote : ∀ row, row.entry.isAliasOf sl = true →
      Safe ((F.pin row).write (.promote (.symlink sl) row.entry row.place)) rest)
    (hdelete : Safe (F.write (.delete (.symlink sl))) rest) :
    Safe F (.removeSymlink sl :: rest) := by
  refine .removeSymlink hguard ?_ (.write hguard hdelete)
  intro row hlink
  exact .write ⟨hguard, hlink, hfirst, row, List.mem_cons_self, rfl, rfl⟩ (hpromote row hlink)

lemma unlinkSymlink_safe (sl : Nat) (p : Place) (actor : Actor) :
    Safe {} (unlinkSymlink sl p actor) := by
  simp only [unlinkSymlink, List.append_assoc, List.cons_append, List.nil_append]
  refine .lock (.requireBound (safe_requireParentWriteSearch _ _
    (safe_requireStickyRemoval _ _ _ (removeSymlink_safe ?_ ?_ (fun row _ => .done) .done))))
  · intro w hw
    cases hw
  · intro l hl
    obtain rfl : Lock.row (.symlink sl) .update = l := Option.some.inj hl
    exact List.mem_cons_self

lemma unlinkSymlinkHardlink_safe (id : Nat) (p : Place) (actor : Actor) :
    Safe {} (unlinkSymlinkHardlink id p actor) := by
  refine .lock (.unlinkAlias fun sl => ?_)
  simp only [List.cons_append, List.append_assoc]
  refine .lockRow (.requireBound (safe_requireParentWriteSearch _ _
    (safe_requireStickyRemoval _ _ _ (.write ?_ .done))))
  intro l hl
  obtain rfl : Lock.row (.symlink sl) .update = l := Option.some.inj hl
  simp [Facts.hold]

lemma unlinkDirectory_safe (d : Nat) (p : Place) (actor : Actor) :
    Safe {} (unlinkDirectory d p actor) := by
  have hguard : ∀ F : Facts, F.Guards (.directory d) := by
    intro F l hl
    cases hl
  unfold unlinkDirectory
  split
  · exact .done
  · simp only [List.append_assoc, List.cons_append, List.nil_append]
    exact .lock (.requireBound (safe_requireParentWriteSearch _ _
      (safe_requireStickyRemoval _ _ _ (.requireEmpty (.write trivial
        (.requireBound (.requireEmpty (.write (hguard _) .done))))))))

lemma promoteHardlinkToPrimary_safe (f : Nat) : Safe {} (promoteHardlinkToPrimary f) := by
  have hguard : ((({} : Facts).hold [.key (.openFile f)]).hold [.row (.file f) .update]).Guards
      (.file f) := by
    intro l hl
    obtain rfl : Lock.key (.openFile f) = l := Option.some.inj hl
    simp [Facts.hold]
  refine .lock (.lockRow (.promoteHardlink hguard ?_ .done))
  intro row hlink
  refine .write ⟨hguard, hlink, ?_, row, List.mem_cons_self, rfl, rfl⟩ .done
  intro w hw
  cases hw

/-! ## Rename -/

lemma safe_tryLocks (keys : List Key)
    (h : Safe (F.hold (keys.map .key)) rest) : Safe F (keys.map .tryLock ++ rest) := by
  induction keys generalizing F with
  | nil => exact h
  | cons k keys ih =>
    refine .tryLock (ih (h.mono ?_))
    intro l hl
    simp only [Facts.hold, List.map_cons, List.cons_append, List.mem_cons, List.mem_append,
      List.nil_append] at hl ⊢
    tauto

lemma safe_validates (entries : List Entry)
    (hguard : ∀ e ∈ entries, F.Guards e)
    (h : Safe { F with validated := entries.reverse ++ F.validated } rest) :
    Safe F (entries.map .validate ++ rest) := by
  induction entries generalizing F with
  | nil => exact h
  | cons e entries ih =>
    refine .validate (hguard e List.mem_cons_self) (ih (fun e' he' =>
      hguard e' (List.mem_cons_of_mem _ he')) ?_)
    simpa [Facts.trust] using h

lemma safe_lockSymlinks (symlinks : List Nat)
    (h : Safe (F.hold (symlinks.map fun sl => .row (.symlink sl) .update)) rest) :
    Safe F (symlinks.map (fun sl => .lockRow (.symlink sl) .update) ++ rest) := by
  induction symlinks generalizing F with
  | nil => exact h
  | cons sl symlinks ih =>
    refine .lockRow (ih (h.mono ?_))
    intro l hl
    simp only [Facts.hold, List.map_cons, List.cons_append, List.mem_cons, List.mem_append,
      List.nil_append] at hl ⊢
    tauto

structure RenameReady (F : Facts) (source : Entry) (new : Place) (expected : Option Entry) :
    Prop where
  writes : F.writes = []
  target : (new, expected) ∈ F.seen
  source_seen : ∃ old, (old, some source) ∈ F.seen
  guards : ∀ e ∈ source :: expected.toList, F.Guards e
  validated : ∀ e ∈ expected, e.isAlias = true → e ∈ F.validated
  outside : ∀ d ∈ new.parent, ∀ b, source = .directory b → F.outside = some (b, d)

section Rename

variable {F : Facts} {source : Entry} {new : Place} {expected : Option Entry}

lemma RenameReady.guards_target (h : RenameReady F source new expected) {e : Entry}
    (he : expected = some e) : F.Guards e :=
  h.guards e (by simp [he])

variable {target : Entry}

section

variable (h : RenameReady F source new (some target))

include h

lemma RenameReady.rebind_after {G : Facts} {w : Write} (hG : G = { F with pins := G.pins, writes := [w] })
    (htouch : w.touches target = true) (hclaim : w.claim = none)
    (hkept : ∀ e link q, w = .promote e link q → target ≠ link) :
    Safe G [.write (.rebind source new)] := by
  have hclaims : G.Claims new (some target) := by
    rw [hG]
    refine ⟨h.target, ?_, h.validated, ?_, ?_⟩
    · intro e he
      obtain rfl : target = e := Option.some.inj he
      exact ⟨w, List.mem_singleton_self w, htouch⟩
    · intro w' hw'
      rw [List.mem_singleton.mp hw']
      exact hclaim
    · intro e link q hw' heq
      exact hkept e link q (List.mem_singleton.mp hw').symm (Option.some.inj heq)
  refine .write ⟨?_, ⟨_, hclaims⟩, fun _ => ?_, ?_⟩ .done
  · rw [hG]
    exact h.guards source List.mem_cons_self
  · rw [hG]
    exact h.source_seen
  · rw [hG]
    exact h.outside

lemma RenameReady.rebind_after_promote {row : Row} (hlink : row.entry.isLinkOf target = true) :
    Safe ((F.pin row).write (.promote target row.entry row.place))
      [.write (.rebind source new)] := by
  refine h.rebind_after (w := .promote target row.entry row.place) ?_ ?_ rfl ?_
  · simp [Facts.write, Facts.pin, h.writes]
  · simp [Write.touches]
  · intro e link q hw heq
    cases hw
    rw [← heq] at hlink
    cases target <;> cases hlink

lemma RenameReady.rebind_after_removal {w : Write}
    (htouch : w.touches target = true) (hfill : ∀ id, w.fill id = none) :
    Safe (F.write w) [.write (.rebind source new)] := by
  refine h.rebind_after (w := w) ?_ htouch ?_ ?_
  · simp [Facts.write, h.writes]
  · cases w <;> first | rfl | cases hfill 0
  · intro e link q hw
    rw [hw] at hfill
    cases hfill 0

lemma removeTarget_safe : Safe F (removeTarget target ++ [.write (.rebind source new)]) := by
  have hguard : F.Guards target := h.guards_target rfl
  have hfirst : ∀ w ∈ F.writes, w.claim = none := by simp [h.writes]
  have hdelete : Safe (F.write (.delete target)) [.write (.rebind source new)] :=
    h.rebind_after_removal (by cases target <;> simp [Write.touches]) (fun id => rfl)
  cases target with
  | file f =>
    refine safe_removePrimaryFile hfirst ?_ ?_ hdelete
    · intro row hlink
      exact h.rebind_after_promote hlink
    · intro name
      exact h.rebind_after_removal (by simp [Write.touches]) (fun id => rfl)
  | symlink sl =>
    refine removeSymlink_safe hfirst hguard ?_ hdelete
    intro row hlink
    exact h.rebind_after_promote hlink
  | directory d => exact .requireEmpty (.write hguard hdelete)
  | hardlink id f => exact .write hguard hdelete
  | symlinkHardlink id sl => exact .write hguard hdelete

end

lemma applyRename_safe (h : RenameReady F source new expected) :
    Safe F (applyRename source new expected) := by
  cases expected with
  | none =>
    have hclaims : F.Claims new none := by
      refine ⟨h.target, ?_, ?_, ?_, ?_⟩
      · intro e he
        cases he
      · intro e he
        cases he
      · simp [h.writes]
      · simp [h.writes]
    exact .write ⟨h.guards source List.mem_cons_self, ⟨_, hclaims⟩,
      fun _ => h.source_seen, h.outside⟩ .done
  | some target =>
    simp only [applyRename]
    split
    · exact .done
    · exact removeTarget_safe h

lemma safe_stickyChecks {rest : List Stmt} (actor : Actor) (parent : Option Nat) (h : Safe F rest) :
    Safe F ((expected.toList.flatMap fun target =>
      requireStickyRemoval actor parent target.owned) ++ rest) := by
  cases expected with
  | none => exact h
  | some target =>
    simp only [Option.toList_some, List.flatMap_cons, List.flatMap_nil, List.append_nil]
    exact safe_requireStickyRemoval _ _ _ h

lemma safe_requireNoCycle {rest : List Stmt} (hwrites : F.writes = [])
    (hseen : ∃ old, (old, some source) ∈ F.seen) (h : ∀ G : Facts, G = { F with outside := G.outside } →
      (∀ d ∈ new.parent, ∀ b, source = .directory b → G.outside = some (b, d)) → Safe G rest) :
    Safe F (requireNoCycle source new ++ rest) := by
  unfold requireNoCycle
  split
  · rename_i b d hparent
    refine .requireOutside hwrites hseen (h _ rfl ?_)
    intro d' hd' b' hb'
    rw [hparent] at hd'
    cases hd'
    cases hb'
    rfl
  · rename_i hnone
    refine h F rfl ?_
    intro d hd b hb
    exact absurd hd (hnone b d hb)

end Rename

lemma openFile_mem_renameKeys {source e : Entry} {old new : Place} {expected : Option Entry}
    {f : Nat} (he : e ∈ source :: expected.toList) (hf : e.fileId = some f) :
    .openFile f ∈ renameKeys source old new expected := by
  simp only [renameKeys, List.mem_append, List.mem_map]
  refine .inl (.inl (.inr ⟨f, ?_, rfl⟩))
  simp only [Option.mem_toList, Option.bind_eq_some_iff]
  obtain rfl | htarget := List.mem_cons.mp he
  · exact .inl hf
  · exact .inr ⟨e, Option.mem_toList.mp htarget, hf⟩

lemma guards_of_renameKeys {source : Entry} {old new : Place} {expected : Option Entry}
    (hkeys : ∀ k ∈ renameKeys source old new expected, .key k ∈ F.locks)
    (hrows : ∀ sl ∈ (source :: expected.toList).filterMap Entry.symlinkId,
      .row (.symlink sl) .update ∈ F.locks) : ∀ e ∈ source :: expected.toList, F.Guards e := by
  intro e he l hl
  have hfile : ∀ f, e.fileId = some f → .key (.openFile f) ∈ F.locks :=
    fun f hf => hkeys _ (openFile_mem_renameKeys he hf)
  have hsymlink : ∀ sl, e.symlinkId = some sl → .row (.symlink sl) .update ∈ F.locks :=
    fun sl hsl => hrows sl (List.mem_filterMap.mpr ⟨e, he, hsl⟩)
  cases e with
  | file f => exact Option.some.inj hl ▸ hfile f rfl
  | hardlink id f => exact Option.some.inj hl ▸ hfile f rfl
  | symlink sl => exact Option.some.inj hl ▸ hsymlink sl rfl
  | symlinkHardlink id sl => exact Option.some.inj hl ▸ hsymlink sl rfl
  | directory d => cases hl

lemma rename_safe (source : Entry) (old new : Place) (expected : Option Entry)
    (noReplace : Bool) (actor : Actor) :
    Safe {} (rename source old new expected noReplace actor) := by
  unfold rename
  split
  · exact .done
  generalize (if noReplace then none else expected) = expected
  simp only [List.append_assoc, List.cons_append, List.nil_append, lockSymlinkRows]
  have hopen : ∀ (F : Facts), (∀ k ∈ renameKeys source old new expected, .key k ∈ F.locks) →
      ∀ e ∈ source :: expected.toList, ∀ id f, e = .hardlink id f → F.Guards (.file f) := by
    intro F hkeys e he id f hlink l hl
    obtain rfl : Lock.key (.openFile f) = l := Option.some.inj hl
    exact hkeys _ (openFile_mem_renameKeys he (by rw [hlink]; rfl))
  refine safe_tryLocks _ ?_
  have hkeys : ∀ k ∈ renameKeys source old new expected,
      .key k ∈ (({} : Facts).hold ((renameKeys source old new expected).map .key)).locks := by
    simp [Facts.hold]
  refine .requireEntry (hkeys _ (by simp [renameKeys])) ?_
    (.requireEntry (hkeys _ (by simp [renameKeys])) ?_ (safe_lockSymlinks _ ?_))
  · intro id f he
    exact hopen _ hkeys source List.mem_cons_self id f (Option.some.inj he)
  · intro id f he
    exact hopen _ hkeys (.hardlink id f) (by simp [he]) id f rfl
  have hguards := guards_of_renameKeys (F := ((({} : Facts).hold
      ((renameKeys source old new expected).map .key)).see old (some source)).see new expected
      |>.hold (((source :: expected.toList).filterMap Entry.symlinkId).map
        fun sl => .row (.symlink sl) .update))
    (fun k hk => List.mem_append_right _ (hkeys k hk))
    (fun sl hsl => List.mem_append_left _ (List.mem_map_of_mem hsl))
  refine safe_validates _ (fun e he => hguards e (List.mem_of_mem_filter he)) ?_
  refine safe_requireNoCycle rfl ⟨old, List.mem_cons_of_mem _ List.mem_cons_self⟩
    fun G hG hout => safe_requireParentWriteSearch _ _ ?_
  have hready : RenameReady G source new expected := by
    refine ⟨?_, ?_, ⟨old, ?_⟩, ?_, ?_, hout⟩ <;> rw [hG]
    · rfl
    · exact List.mem_cons_self
    · exact List.mem_cons_of_mem _ List.mem_cons_self
    · exact hguards
    · intro e he halias
      refine List.mem_append_left _ (List.mem_reverse.mpr (List.mem_filter.mpr ⟨?_, halias⟩))
      exact List.mem_cons_of_mem _ (Option.mem_toList.mpr he)
  have hrest : Safe G (requireStickyRemoval actor old.parent source.owned ++
      ((expected.toList.flatMap fun target =>
        requireStickyRemoval actor new.parent target.owned) ++
        applyRename source new expected)) :=
    safe_requireStickyRemoval _ _ _ (safe_stickyChecks _ _ (applyRename_safe hready))
  split
  · exact hrest
  · exact safe_requireParentWriteSearch _ _ hrest

lemma program_safe (request : Request) : Safe {} request.program := by
  cases request with
  | createFile seed p actor => exact createFile_safe seed p actor
  | createSpecialFile seed p actor => exact createFile_safe seed p actor
  | createDirectory p actor => exact createNode_safe .directory p actor
  | createSymlink p actor => exact createNode_safe .symlink p actor
  | createHardlink f source p actor => exact createHardlink_safe f source p actor
  | createSymlinkHardlink sl source p actor => exact createSymlinkHardlink_safe sl source p actor
  | unlinkFile f seed hidden p actor => exact unlinkFile_safe f seed hidden p actor
  | unlinkSymlink sl p actor => exact unlinkSymlink_safe sl p actor
  | unlinkSymlinkHardlink id p actor => exact unlinkSymlinkHardlink_safe id p actor
  | unlinkDirectory d p actor => exact unlinkDirectory_safe d p actor
  | promoteHardlinkToPrimary f => exact promoteHardlinkToPrimary_safe f
  | purgePrimaryFile f => exact purgePrimaryFile_safe {} f (by simp)
  | rename source old new expected noReplace actor =>
    exact rename_safe source old new expected noReplace actor

end Fod.Namespace
