import Fod.Namespace.Programs

/-!
# The lock discipline of the namespace transactions

Every transaction keeps to one discipline: it changes the name of an inode only
under the inode's guard, binds a name only after it has resolved that name under
the destination key, and promotes a link only from a row it has read under the
guard.  `Safe` states the discipline for the statements that a transaction still
has to run, and each program of the repository satisfies it.
-/

namespace Fod.Namespace

/-! ## What a write does to names -/

def Write.touches : Write → Entry → Bool
  | .insert _ _, _ => false
  | .rebind e _, x => x == e
  | .promote e link _, x => x == e || x == link
  | .hide f _, x => x == .file f
  | .detach _, _ => false
  | .delete (.file f), x => x == .file f || x.isHardlinkOf f
  | .delete e, x => x == e

def Write.claim : Write → Option Place
  | .insert _ p | .rebind _ p => some p
  | _ => none

def Write.fill (id : Nat) : Write → Option (Entry × Place)
  | .insert new p => some (new.entry id, p)
  | .rebind e p | .promote e _ p => some (e, p)
  | _ => none

def Entry.isLinkOf (link : Entry) : Entry → Bool
  | .file f => link.isHardlinkOf f
  | .symlink sl => link.isAliasOf sl
  | _ => false

def Entry.guard : Entry → Option Lock
  | .file f | .hardlink _ f => some (.key (.openFile f))
  | .symlink sl | .symlinkHardlink _ sl => some (.row (.symlink sl) .update)
  | .directory _ => none

lemma isLinkOf_cases {link e : Entry} (h : link.isLinkOf e = true) :
    (∃ id f, link = .hardlink id f ∧ e = .file f) ∨
      ∃ id sl, link = .symlinkHardlink id sl ∧ e = .symlink sl := by
  cases e <;> cases link <;>
    simp_all [Entry.isLinkOf, Entry.isHardlinkOf, Entry.isAliasOf]

lemma guard_of_isLinkOf {link e : Entry} (h : link.isLinkOf e = true) : link.guard = e.guard := by
  obtain ⟨id, f, rfl, rfl⟩ | ⟨id, sl, rfl, rfl⟩ := isLinkOf_cases h <;> rfl

lemma eq_of_isLinkOf {link e e' : Entry} (h : link.isLinkOf e = true)
    (h' : link.isLinkOf e' = true) : e = e' := by
  obtain ⟨id, f, rfl, rfl⟩ | ⟨id, sl, rfl, rfl⟩ := isLinkOf_cases h <;>
    obtain ⟨_, _, hlink, rfl⟩ | ⟨_, _, hlink, rfl⟩ := isLinkOf_cases h' <;>
    cases hlink <;> rfl

lemma isHardlinkOf_iff {f : Nat} {e : Entry} :
    e.isHardlinkOf f = true ↔ ∃ id, e = .hardlink id f := by
  cases e <;> simp [Entry.isHardlinkOf]

namespace Facts

def Guards (F : Facts) (e : Entry) : Prop := ∀ l ∈ e.guard, l ∈ F.locks

def Removes (F : Facts) (e : Entry) : Prop := ∃ w ∈ F.writes, w.touches e = true

structure Claims (F : Facts) (p : Place) (found : Option Entry) : Prop where
  seen : (p, found) ∈ F.seen
  removed : ∀ e ∈ found, F.Removes e
  validated : ∀ e ∈ found, e.isAlias = true → e ∈ F.validated
  first : ∀ w ∈ F.writes, w.claim = none
  kept : ∀ e link q, .promote e link q ∈ F.writes → found ≠ some link

def MayWrite (F : Facts) : Write → Prop
  | .insert _ p => ∃ found, F.Claims p found
  | .rebind e p =>
    F.Guards e ∧ (∃ found, F.Claims p found) ∧
      (e.isAlias = true → ∃ q, (q, some e) ∈ F.seen) ∧
      ∀ d ∈ p.parent, ∀ b, e = .directory b → F.outside = some (b, d)
  | .promote e link p =>
    F.Guards e ∧ link.isLinkOf e = true ∧ (∀ w ∈ F.writes, w.claim = none) ∧
      ∃ row ∈ F.pins, row.entry = link ∧ row.place = p
  | .hide f _ => F.Guards (.file f)
  | .detach _ => True
  | .delete e => F.Guards e

variable {F : Facts} {locks : List Lock}

lemma hold_subset (taken : List Lock)
    (hsub : F.locks ⊆ locks) : (F.hold taken).locks ⊆ taken ++ locks :=
  List.append_subset_of_subset_of_subset (List.subset_append_left _ _)
    (List.subset_append_of_subset_right _ hsub)

lemma Guards.mono {e : Entry} (h : F.Guards e)
    (hsub : F.locks ⊆ locks) : Guards { F with locks } e :=
  fun l hl => hsub (h l hl)

lemma Claims.mono {p : Place} {found : Option Entry} (h : F.Claims p found)
    (locks : List Lock) : Claims { F with locks } p found :=
  ⟨h.seen, h.removed, h.validated, h.first, h.kept⟩

lemma MayWrite.mono {w : Write} (h : F.MayWrite w)
    (hsub : F.locks ⊆ locks) : MayWrite { F with locks } w := by
  cases w with
  | insert new p =>
    obtain ⟨found, hclaims⟩ := h
    exact ⟨found, hclaims.mono locks⟩
  | rebind e p =>
    obtain ⟨hguard, ⟨found, hclaims⟩, hrest⟩ := h
    exact ⟨hguard.mono hsub, ⟨found, hclaims.mono locks⟩, hrest⟩
  | promote e link p => exact ⟨h.1.mono hsub, h.2⟩
  | hide f name => exact Guards.mono h hsub
  | detach d => trivial
  | delete e => exact Guards.mono h hsub

lemma MayWrite.claims {w : Write} (h : F.MayWrite w) {p : Place}
    (hclaim : w.claim = some p) : ∃ found, F.Claims p found := by
  cases w with
  | insert new q => exact Option.some.inj hclaim ▸ h
  | rebind e q => exact Option.some.inj hclaim ▸ h.2.1
  | promote e link q => cases hclaim
  | hide f name => cases hclaim
  | detach d => cases hclaim
  | delete e => cases hclaim

lemma mem_write {w w' : Write} : w' ∈ (F.write w).writes ↔ w' ∈ F.writes ∨ w' = w := by
  simp [write]

def ClaimsOnce (F : Facts) : Prop :=
  ∀ w ∈ F.writes, ∀ w' ∈ F.writes, w.claim.isSome → w'.claim.isSome → w = w'

lemma ClaimsOnce.write (h : F.ClaimsOnce) {w : Write} (hmay : F.MayWrite w) :
    (F.write w).ClaimsOnce := by
  have hfirst : w.claim.isSome → ∀ w' ∈ F.writes, w'.claim = none := by
    intro hsome
    obtain ⟨p, hp⟩ := Option.isSome_iff_exists.mp hsome
    obtain ⟨found, hclaims⟩ := hmay.claims hp
    exact hclaims.first
  intro w₁ hw₁ w₂ hw₂ h₁ h₂
  obtain hold₁ | rfl := mem_write.mp hw₁
  · obtain hold₂ | rfl := mem_write.mp hw₂
    · exact h w₁ hold₁ w₂ hold₂ h₁ h₂
    · simp [hfirst h₂ w₁ hold₁] at h₁
  · obtain hold₂ | rfl := mem_write.mp hw₂
    · simp [hfirst h₁ w₂ hold₂] at h₂
    · rfl

end Facts

/-- The statements that are left keep to the discipline, given what the
transaction has gathered.  A statement whose continuation depends on the rows
has a premise for each continuation. -/
inductive Safe : Facts → List Stmt → Prop where
  | done {F} : Safe F []
  | lock {F k rest} : Safe (F.hold [.key k]) rest → Safe F (.lock k :: rest)
  | tryLock {F k rest} : Safe (F.hold [.key k]) rest → Safe F (.tryLock k :: rest)
  | lockRow {F e mode rest} :
      Safe (F.hold [.row e mode]) rest → Safe F (.lockRow e mode :: rest)
  | lockRoot {F rest} : Safe F rest → Safe F (.lockRoot :: rest)
  | requireBound {F e p mode rest} :
      Safe (F.hold (mode.toList.map (.row e))) rest → Safe F (.requireBound e p mode :: rest)
  | requireEntry {F p expected rest} :
      .key (.destination p) ∈ F.locks →
      (∀ id f, expected = some (.hardlink id f) → F.Guards (.file f)) →
      Safe (F.see p expected) rest → Safe F (.requireEntry p expected :: rest)
  | requireVacant {F p rest} :
      .key (.destination p) ∈ F.locks →
      Safe (F.see p none) rest → Safe F (.requireVacant p :: rest)
  | validate {F e rest} : F.Guards e → Safe (F.trust e) rest → Safe F (.validate e :: rest)
  | requireOutside {F d q rest} :
      F.writes = [] → (∃ p, (p, some (.directory d)) ∈ F.seen) →
      Safe { F with outside := some (d, q) } rest → Safe F (.requireOutside d q :: rest)
  | requireEmpty {F d rest} : Safe F rest → Safe F (.requireEmpty d :: rest)
  | requireVisible {F f rest} : Safe F rest → Safe F (.requireVisible f :: rest)
  | requireNoHardlinks {F f rest} : Safe F rest → Safe F (.requireNoHardlinks f :: rest)
  | removeFile {F f rest} :
      F.Guards (.file f) →
      (∀ row, row.entry.isHardlinkOf f = true →
        Safe (F.pin row) (.write (.promote (.file f) row.entry row.place) :: rest)) →
      (∀ name, Safe F (.write (.hide f name) :: rest)) →
      Safe F (.write (.delete (.file f)) :: rest) → Safe F (.removeFile f :: rest)
  | removeSymlink {F sl rest} :
      F.Guards (.symlink sl) →
      (∀ row, row.entry.isAliasOf sl = true →
        Safe (F.pin row) (.write (.promote (.symlink sl) row.entry row.place) :: rest)) →
      Safe F (.write (.delete (.symlink sl)) :: rest) → Safe F (.removeSymlink sl :: rest)
  | promoteHardlink {F f rest} :
      F.Guards (.file f) →
      (∀ row, row.entry.isHardlinkOf f = true →
        Safe (F.pin row) (.write (.promote (.file f) row.entry row.place) :: rest)) →
      Safe F rest → Safe F (.promoteHardlink f :: rest)
  | unlinkName {F f hidden p actor rest} :
      Safe F (requireParentWriteSearch actor p.parent ++
        requireStickyRemoval actor p.parent (.file f) ++ .unlinkPrimary f hidden :: rest) →
      Safe F (requireParentWriteSearch actor p.parent ++
        requireStickyRemoval actor p.parent (.file f) ++ .deleteHardlinkAt f p :: rest) →
      Safe F (.unlinkName f hidden p actor :: rest)
  | unlinkPrimary {F f hidden rest} :
      Safe F (.write (.hide f hidden) :: rest) →
      Safe F (.write (.hide f hidden) :: (purgePrimaryFile f ++ rest)) →
      Safe F (removePrimaryFile f ++ rest) → Safe F (.unlinkPrimary f hidden :: rest)
  | deleteHardlinkAt {F f p rest} :
      F.Guards (.file f) → (∀ id, Safe (F.write (.delete (.hardlink id f))) rest) →
      Safe F (.deleteHardlinkAt f p :: rest)
  | unlinkAlias {F id p actor rest} :
      (∀ sl, Safe F (.lockRow (.symlink sl) .update ::
        .requireBound (.symlinkHardlink id sl) p (some .update) ::
        requireParentWriteSearch actor p.parent ++
        requireStickyRemoval actor p.parent (.symlink sl) ++
        .write (.delete (.symlinkHardlink id sl)) :: rest)) →
      Safe F (.unlinkAlias id p actor :: rest)
  | write {F w rest} : F.MayWrite w → Safe (F.write w) rest → Safe F (.write w :: rest)

variable {F : Facts} {locks : List Lock} {rest : List Stmt} {s : State} {t : Nat} {tx : Tx}

lemma Safe.mono {stmts : List Stmt} (h : Safe F stmts)
    (hsub : F.locks ⊆ locks) : Safe { F with locks } stmts := by
  induction h generalizing locks with
  | done => exact .done
  | lock _ ih => exact .lock (ih (Facts.hold_subset _ hsub))
  | tryLock _ ih => exact .tryLock (ih (Facts.hold_subset _ hsub))
  | lockRow _ ih => exact .lockRow (ih (Facts.hold_subset _ hsub))
  | lockRoot _ ih => exact .lockRoot (ih hsub)
  | requireBound _ ih => exact .requireBound (ih (Facts.hold_subset _ hsub))
  | requireEntry hkey hguard _ ih =>
    exact .requireEntry (hsub hkey) (fun id f he => (hguard id f he).mono hsub) (ih hsub)
  | requireVacant hkey _ ih => exact .requireVacant (hsub hkey) (ih hsub)
  | validate hguard _ ih => exact .validate (hguard.mono hsub) (ih hsub)
  | requireOutside hwrites hseen _ ih => exact .requireOutside hwrites hseen (ih hsub)
  | requireEmpty _ ih => exact .requireEmpty (ih hsub)
  | requireVisible _ ih => exact .requireVisible (ih hsub)
  | requireNoHardlinks _ ih => exact .requireNoHardlinks (ih hsub)
  | removeFile hguard _ _ _ ihpromote ihhide ihdelete =>
    exact .removeFile (hguard.mono hsub) (fun row hlink => ihpromote row hlink hsub)
      (fun name => ihhide name hsub) (ihdelete hsub)
  | removeSymlink hguard _ _ ihpromote ihdelete =>
    exact .removeSymlink (hguard.mono hsub) (fun row hlink => ihpromote row hlink hsub)
      (ihdelete hsub)
  | promoteHardlink hguard _ _ ihpromote ih =>
    exact .promoteHardlink (hguard.mono hsub) (fun row hlink => ihpromote row hlink hsub)
      (ih hsub)
  | unlinkName _ _ ihprimary ihlink => exact .unlinkName (ihprimary hsub) (ihlink hsub)
  | unlinkPrimary _ _ _ ihdefer ihpurge ihpromote =>
    exact .unlinkPrimary (ihdefer hsub) (ihpurge hsub) (ihpromote hsub)
  | deleteHardlinkAt hguard _ ih =>
    exact .deleteHardlinkAt (hguard.mono hsub) (fun id => ih id hsub)
  | unlinkAlias _ ih => exact .unlinkAlias fun sl => ih sl hsub
  | write hmay _ ih => exact .write (hmay.mono hsub) (ih hsub)

lemma Safe.hold {stmts : List Stmt} (h : Safe F stmts) (locks : List Lock) :
    Safe (F.hold locks) stmts :=
  h.mono (List.subset_append_right _ _)

/-! ## What one statement adds -/

inductive Gain (rows : List Row) (F : Facts) : Facts → Prop where
  | same : Gain rows F F
  | see {p found} : .key (.destination p) ∈ F.locks →
      (∀ id f, found = some (.hardlink id f) → F.Guards (.file f)) →
      (visibleAt rows p).map Row.entry = found.toList → Gain rows F (F.see p found)
  | trust {e} : F.Guards e → hasEntry rows e = true → Gain rows F (F.trust e)
  | outside {d q} : F.writes = [] → (∃ p, (p, some (.directory d)) ∈ F.seen) →
      (hasEntry rows (.directory d) && inSubtree rows rows.length d q) = false →
      Gain rows F { F with outside := some (d, q) }
  | pin {row e} : row ∈ rows → row.entry.isLinkOf e = true → F.Guards e → Gain rows F (F.pin row)
  | write {w} : F.MayWrite w → (∀ e ∈ w.references, hasEntry rows e = true) →
      Gain rows F (F.write w)

def Tx.Disciplined (tx : Tx) : Prop := Safe tx.facts tx.todo

def Advances (s : State) (t : Nat) (F : Facts) (tx : Tx) : Prop :=
  tx = .ended ∨ tx.Disciplined ∧
    ∃ F' locks, Gain s.rows F F' ∧ s.free t locks = true ∧ tx.facts = F'.hold locks

lemma take_eq_some (h : s.take t locks F rest = some tx) :
    s.free t locks = true ∧ tx = ⟨F.hold locks, rest⟩ := by
  unfold State.take at h
  split at h
  · exact ⟨‹_›, (Option.some.inj h).symm⟩
  · cases h

lemma require_eq_some {condition : Bool} {next : Option Tx}
    (h : State.require condition next = some tx) :
    tx = .ended ∨ condition = true ∧ next = some tx := by
  unfold State.require at h
  split at h
  · exact .inr ⟨‹_›, h⟩
  · exact .inl (Option.some.inj h).symm

lemma free_nil (s : State) (t : Nat) : s.free t [] = true := by
  simp [State.free, LockPool.free]

lemma Advances.of_read {F F' : Facts}
    (hgain : Gain s.rows F F') (hsafe : Safe F' rest) : Advances s t F ⟨F', rest⟩ :=
  .inr ⟨hsafe, F', [], hgain, free_nil s t, rfl⟩

lemma Advances.of_take {F F' : Facts} (hgain : Gain s.rows F F')
    (hsafe : Safe (F'.hold locks) rest) (h : s.take t locks F' rest = some tx) :
    Advances s t F tx := by
  obtain ⟨hfree, rfl⟩ := take_eq_some h
  exact .inr ⟨hsafe, F', locks, hgain, hfree, rfl⟩

lemma mem_of_lowest {rows : List Row} {row : Row} (h : lowest rows = some row) : row ∈ rows := by
  induction rows generalizing row with
  | nil => cases h
  | cons first rest ih =>
    simp only [lowest] at h
    split at h
    · rw [← Option.some.inj h]
      exact List.mem_cons_self
    · rename_i best hbest
      rw [← Option.some.inj h]
      split
      · exact List.mem_cons_self
      · exact List.mem_cons_of_mem _ (ih hbest)

lemma exec_advances {choice : Bool} {stmt : Stmt} (hsafe : Safe F (stmt :: rest))
    (h : s.exec t choice F rest stmt = some tx) : Advances s t F tx := by
  cases hsafe with
  | lock hrest => exact .of_take .same hrest h
  | @tryLock _ k _ hrest =>
    have h := Option.some.inj h
    cases htake : s.take t [.key k] F rest with
    | none => exact .inl (by rw [← h, htake]; rfl)
    | some tx' =>
      rw [htake] at h
      obtain rfl : tx' = tx := h
      exact .of_take .same hrest htake
  | lockRow hrest =>
    obtain hend | ⟨-, h⟩ := require_eq_some h
    · exact .inl hend
    · exact .of_take .same hrest h
  | lockRoot hrest =>
    simp only [State.exec] at h
    split at h
    · exact .of_take .same (hrest.hold _) h
    · exact .inl (Option.some.inj h).symm
  | requireBound hrest =>
    obtain hend | ⟨-, h⟩ := require_eq_some h
    · exact .inl hend
    · exact .of_take .same hrest h
  | requireEntry hkey hguard hrest =>
    obtain hend | ⟨hread, h⟩ := require_eq_some h
    · exact .inl hend
    · cases h
      exact .of_read (.see hkey hguard (eq_of_beq hread)) hrest
  | requireVacant hkey hrest =>
    obtain hend | ⟨hread, h⟩ := require_eq_some h
    · exact .inl hend
    · cases h
      have hnone := List.isEmpty_iff.mp hread
      exact .of_read (.see hkey (fun id f he => by cases he) (by rw [hnone]; rfl)) hrest
  | validate hguard hrest =>
    obtain hend | ⟨hrow, h⟩ := require_eq_some h
    · exact .inl hend
    · exact .of_take (.trust hguard hrow) (hrest.hold _) h
  | requireOutside hwrites hseen hrest =>
    obtain hend | ⟨hread, h⟩ := require_eq_some h
    · exact .inl hend
    · cases h
      exact .of_read (.outside hwrites hseen (Bool.not_eq_true' _ ▸ hread)) hrest
  | requireEmpty hrest | requireVisible hrest | requireNoHardlinks hrest =>
    obtain hend | ⟨-, h⟩ := require_eq_some h
    · exact .inl hend
    · cases h
      exact .of_read .same hrest
  | @removeFile _ f _ hguard hpromote hhide hdelete =>
    simp only [State.exec] at h
    split at h
    · rename_i row hrow
      cases h
      obtain ⟨hmem, hlink⟩ := List.mem_filter.mp (mem_of_lowest hrow)
      exact .of_read (.pin (e := .file f) hmem hlink hguard) (hpromote row hlink)
    · split at h
      · cases h
        exact .of_read .same (hhide _)
      · cases h
        exact .of_read .same hdelete
  | @removeSymlink _ sl _ hguard hpromote hdelete =>
    simp only [State.exec] at h
    split at h
    · rename_i row hrow
      obtain ⟨hmem, hlink⟩ := List.mem_filter.mp (mem_of_lowest hrow)
      exact .of_take (.pin (e := .symlink sl) hmem hlink hguard)
        ((hpromote row hlink).hold _) h
    · cases h
      exact .of_read .same hdelete
  | @promoteHardlink _ f _ hguard hpromote hrest =>
    simp only [State.exec] at h
    split at h
    · rename_i row hrow
      cases h
      obtain ⟨hmem, hlink⟩ := List.mem_filter.mp (mem_of_lowest hrow)
      exact .of_read (.pin (e := .file f) hmem hlink hguard) (hpromote row hlink)
    · cases h
      exact .of_read .same hrest
  | unlinkName hprimary hlink =>
    cases h
    refine .of_read .same ?_
    split
    · exact hprimary
    · exact hlink
  | unlinkPrimary hdefer hpurge hpromote =>
    simp only [State.exec] at h
    split at h
    · cases h
      refine .of_read .same ?_
      split
      · exact hdefer
      · exact hpurge
    · cases h
      exact .of_read .same hpromote
  | @deleteHardlinkAt _ f p _ hguard hrest =>
    simp only [State.exec] at h
    split at h
    · rename_i row others hrow
      have hmem : row ∈ (hardlinksOf s.rows f).filter fun row => row.place == p := by
        rw [hrow]
        exact List.mem_cons_self
      obtain ⟨id, hentry⟩ := isHardlinkOf_iff.mp
        (List.mem_filter.mp (List.mem_filter.mp hmem).1).2
      rw [hentry] at h
      have hmay : F.MayWrite (.delete (.hardlink id f)) := hguard
      exact .of_take (.write hmay (by simp [Write.references])) ((hrest id).hold _) h
    · exact .inl (Option.some.inj h).symm
  | unlinkAlias hrest =>
    simp only [State.exec] at h
    split at h
    · rename_i sl others _
      cases h
      exact .of_read .same (hrest sl)
    · exact .inl (Option.some.inj h).symm
  | write hmay hrest =>
    obtain hend | ⟨hreferences, h⟩ := require_eq_some h
    · exact .inl hend
    · exact .of_take (.write hmay (List.all_eq_true.mp hreferences)) (hrest.hold _) h

end Fod.Namespace
