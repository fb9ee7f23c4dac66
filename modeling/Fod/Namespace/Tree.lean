import Fod.Lib.ParentChain
import Fod.Namespace.Commit
import Fod.Namespace.ProgramsSafe

/-!
# The directory graph

A directory rename looks for its new parent in the subtree of the directory, in a
recursive query over rows that nobody locks.  Two renames that cross, each moving
its directory below the other's, can both make the query before either commits.
-/

namespace Fod.Namespace

open ParentChain Relation

def climb (rows : List Row) : Nat → Nat → Bool
  | 0, _ => false
  | n + 1, d =>
    match rows.find? fun row => row.entry == .directory d with
    | some row =>
      match row.place.parent with
      | some q => climb rows n q
      | none => true
    | none => false

def Tree (rows : List Row) : Prop :=
  ∀ row ∈ rows, ∀ d, row.entry = .directory d → ∃ n, climb rows n d = true

def Parent (rows : List Row) (c d : Nat) : Prop :=
  ∃ row ∈ rows, row.entry = .directory c ∧ row.place.parent = some d

def directoryIds (rows : List Row) : List Nat :=
  rows.filterMap fun row =>
    match row.entry with
    | .directory id => some id
    | _ => none

variable {rows : List Row} {issued : List Entry}

lemma Parent.mem_directoryIds {c d : Nat} (h : Parent rows c d) : c ∈ directoryIds rows := by
  obtain ⟨row, hrow, hentry, -⟩ := h
  exact List.mem_filterMap.mpr ⟨row, hrow, by rw [hentry]⟩

lemma mem_childDirectories {c d : Nat} : c ∈ childDirectories rows d ↔ Parent rows c d := by
  simp only [childDirectories, List.mem_filterMap, Parent]
  refine exists_congr fun row => and_congr_right fun _ => ?_
  cases row.entry <;> simp [and_comm]

lemma inSubtree_of_steps {n rounds c d : Nat}
    (h : Steps (Parent rows) c n d) (hn : n ≤ rounds) : inSubtree rows rounds d c = true := by
  induction n generalizing d rounds with
  | zero =>
    obtain rfl : c = d := h
    cases rounds <;> simp [inSubtree]
  | succ n ih =>
    obtain ⟨y, hsteps, hup⟩ := h
    obtain ⟨rounds, rfl⟩ : ∃ k, rounds = k + 1 := ⟨rounds - 1, by omega⟩
    have hbelow := ih hsteps (Nat.le_of_succ_le_succ hn)
    simp only [inSubtree, Bool.or_eq_true, List.any_eq_true]
    exact .inr ⟨y, mem_childDirectories.mpr hup, hbelow⟩

lemma inSubtree_of_reach (h : Grounded (Parent rows)) {c d : Nat}
    (hreach : ReflTransGen (Parent rows) c d) : inSubtree rows rows.length d c = true := by
  obtain ⟨n, hn, hsteps⟩ :=
    h.exists_steps (fun x y hup => Parent.mem_directoryIds hup) hreach
  exact inSubtree_of_steps hsteps (Nat.le_trans hn (List.length_filterMap_le _ _))

lemma of_find_directory {row : Row} {d : Nat}
    (h : (rows.find? fun row => row.entry == .directory d) = some row) :
    row ∈ rows ∧ row.entry = .directory d := by
  have hentry := List.find?_some h
  exact ⟨List.mem_of_find?_eq_some h, by simpa using hentry⟩

lemma find_directory (hkeys : (rows.map Row.entry).Nodup) {row : Row}
    {d : Nat} (hrow : row ∈ rows) (hentry : row.entry = .directory d) :
    (rows.find? fun row => row.entry == .directory d) = some row := by
  have hsome : (rows.find? fun row => row.entry == .directory d).isSome := by
    rw [List.find?_isSome]
    exact ⟨row, hrow, by simp [hentry]⟩
  obtain ⟨found, hfound⟩ := Option.isSome_iff_exists.mp hsome
  obtain ⟨hmem, hfound_entry⟩ := of_find_directory hfound
  rw [hfound, List.inj_on_of_nodup_map hkeys hmem hrow (hfound_entry.trans hentry.symm)]

lemma Tree.grounded (hkeys : (rows.map Row.entry).Nodup)
    (h : Tree rows) : Grounded (Parent rows) := by
  have hclimb : ∀ n d, climb rows n d = true → Acc (fun y x => Parent rows x y) d := by
    intro n
    induction n with
    | zero =>
      intro d hd
      cases hd
    | succ n ih =>
      intro d hd
      refine ⟨d, ?_⟩
      rintro y ⟨row, hrow, hentry, hparent⟩
      simp only [climb, find_directory hkeys hrow hentry, hparent] at hd
      exact ih y hd
  refine ⟨fun d => ⟨d, ?_⟩⟩
  rintro y ⟨row, hrow, hentry, hparent⟩
  obtain ⟨n, hn⟩ := h row hrow d hentry
  have hacc := hclimb n d hn
  exact hacc.inv ⟨row, hrow, hentry, hparent⟩

def ParentsExist (rows : List Row) : Prop :=
  ∀ c d, Parent rows c d → ∃ row ∈ rows, row.entry = .directory d

lemma Tree.parentsExist (hkeys : (rows.map Row.entry).Nodup)
    (h : Tree rows) : ParentsExist rows := by
  rintro c d ⟨row, hrow, hentry, hparent⟩
  obtain ⟨n, hn⟩ := h row hrow c hentry
  cases n with
  | zero => cases hn
  | succ n =>
    simp only [climb, find_directory hkeys hrow hentry, hparent] at hn
    cases n with
    | zero => cases hn
    | succ n =>
      simp only [climb] at hn
      split at hn
      · rename_i parent hfind
        exact ⟨parent, of_find_directory hfind⟩
      · cases hn

lemma tree_of_grounded (hkeys : (rows.map Row.entry).Nodup)
    (hparents : ParentsExist rows) (h : Grounded (Parent rows)) : Tree rows := by
  have hall : ∀ d, ∀ row ∈ rows, row.entry = .directory d → ∃ n, climb rows n d = true := by
    intro d
    induction d using h.induction with
    | _ d ih =>
      intro row hrow hentry
      cases hparent : row.place.parent with
      | none => exact ⟨1, by simp [climb, find_directory hkeys hrow hentry, hparent]⟩
      | some q =>
        have hup : Parent rows d q := ⟨row, hrow, hentry, hparent⟩
        obtain ⟨parent, hparent_row, hparent_entry⟩ := hparents d q hup
        obtain ⟨n, hn⟩ := ih q hup parent hparent_row hparent_entry
        exact ⟨n + 1, by simpa [climb, find_directory hkeys hrow hentry, hparent] using hn⟩
  exact fun row hrow d hentry => hall d row hrow hentry

def Write.moves (id : Nat) : Write → Option (Nat × Nat)
  | .insert .directory p => p.parent.map fun q => (id, q)
  | .rebind (.directory b) p => p.parent.map fun q => (b, q)
  | _ => none

structure MoveOk (rows : List Row) (issued : List Entry) (F : Facts) : Prop where
  seen : ∀ x ∈ F.seen, ∀ e ∈ x.2, e ∈ issued
  outside : ∀ d q, F.outside = some (d, q) → .directory d ∈ issued ∧
    ((∃ row ∈ rows, row.entry = .directory d) → ¬ ReflTransGen (Parent rows) q d)
  rebound : ∀ b p q, .rebind (.directory b) p ∈ F.writes → p.parent = some q →
    F.outside = some (b, q)
  promoted : ∀ e link p, .promote e link p ∈ F.writes → link.isLinkOf e = true
  references : ∀ w ∈ F.writes, ∀ e ∈ w.references, e ∈ issued
  once : F.ClaimsOnce

lemma MoveOk.empty (rows : List Row) (issued : List Entry) : MoveOk rows issued {} := by
  constructor <;> simp [Facts.ClaimsOnce]

lemma MoveOk.hold {F : Facts}
    (h : MoveOk rows issued F) (locks : List Lock) : MoveOk rows issued (F.hold locks) :=
  ⟨h.seen, h.outside, h.rebound, h.promoted, h.references, h.once⟩

lemma MoveOk.gain {F F' : Facts} (h : MoveOk rows issued F) (hgrounded : Grounded (Parent rows))
    (hissued : ∀ row ∈ rows, row.entry ∈ issued) (hgain : Gain rows F F') :
    MoveOk rows issued F' := by
  have hstored : ∀ e, hasEntry rows e = true → e ∈ issued := by
    intro e he
    obtain ⟨row, hrow, hentry⟩ := List.any_eq_true.mp he
    exact eq_of_beq hentry ▸ hissued row hrow
  cases hgain with
  | same => exact h
  | @see p found hkey hguard hread =>
    refine ⟨?_, h.outside, h.rebound, h.promoted, h.references, h.once⟩
    intro x hx e he
    obtain rfl | hold := List.mem_cons.mp hx
    · have hmem : e ∈ (visibleAt rows p).map Row.entry := hread ▸ Option.mem_toList.mpr he
      obtain ⟨row, hrow, rfl⟩ := List.mem_map.mp hmem
      exact hissued row (List.mem_of_mem_filter hrow)
    · exact h.seen x hold e he
  | trust _ _ => exact ⟨h.seen, h.outside, h.rebound, h.promoted, h.references, h.once⟩
  | @outside d q hwrites hseen hread =>
    refine ⟨h.seen, ?_, ?_, h.promoted, h.references, h.once⟩
    · intro d' q' heq
      obtain ⟨rfl, rfl⟩ := Prod.mk.inj (Option.some.inj heq)
      obtain ⟨p, hp⟩ := hseen
      refine ⟨h.seen _ hp _ rfl, ?_⟩
      rintro ⟨row, hrow, hentry⟩ hreach
      have hstored : hasEntry rows (.directory d) = true :=
        List.any_eq_true.mpr ⟨row, hrow, by simp [hentry]⟩
      simp [hstored, inSubtree_of_reach hgrounded hreach] at hread
    · intro b p q' hw
      simp [hwrites] at hw
  | pin _ _ _ => exact ⟨h.seen, h.outside, h.rebound, h.promoted, h.references, h.once⟩
  | @write w hmay hreferences =>
    refine ⟨h.seen, h.outside, ?_, ?_, ?_, h.once.write hmay⟩
    · intro b p q hw hparent
      obtain hold | rfl := Facts.mem_write.mp hw
      · exact h.rebound b p q hold hparent
      · exact hmay.2.2.2 q hparent b rfl
    · intro e link p hw
      obtain hold | rfl := Facts.mem_write.mp hw
      · exact h.promoted e link p hold
      · exact hmay.2.1
    · intro w' hw' e he
      obtain hold | rfl := Facts.mem_write.mp hw'
      · exact h.references w' hold e he
      · exact hstored e (hreferences e he)

/-! ## One commit -/

lemma Write.claim_of_moves {id : Nat} {w : Write} {m : Nat × Nat} (h : w.moves id = some m) :
    w.claim.isSome := by
  unfold Write.moves at h
  split at h
  · rfl
  · rfl
  · cases h

section Commit

variable {rows : List Row} {issued : List Entry} {F : Facts} {id : Nat}

lemma MoveOk.parent_cases (h : MoveOk rows issued F) {c d : Nat}
    (hparent : Parent (applyWrites id rows F.writes) c d) :
    Parent rows c d ∨ (∃ w ∈ F.writes, w.moves id = some (c, d)) ∧
      ((∃ row ∈ rows, row.entry = .directory c) ∨ .directory c ∈ inserted id F.writes) := by
  obtain ⟨row, hrow, hentry, hd⟩ := hparent
  have hvisible : row.visible = true := by
    refine visible_of_not_file fun f hf => ?_
    rw [hentry] at hf
    cases hf
  have hexists := entry_of_mem_applyWrites hrow
  rw [hentry] at hexists
  obtain ⟨hold, -⟩ | ⟨w, hw, hfill⟩ := mem_applyWrites hrow hvisible
  · exact .inl ⟨row, hold, hentry, hd⟩
  · refine .inr ⟨⟨w, hw, ?_⟩, hexists⟩
    rw [hentry] at hfill
    cases w with
    | insert new p =>
      obtain ⟨hnew, rfl⟩ := Prod.mk.inj (Option.some.inj hfill)
      cases new <;> cases hnew
      simp [Write.moves, hd]
    | rebind e p =>
      obtain ⟨rfl, rfl⟩ := Prod.mk.inj (Option.some.inj hfill)
      simp [Write.moves, hd]
    | promote e link p =>
      obtain ⟨rfl, rfl⟩ := Prod.mk.inj (Option.some.inj hfill)
      obtain ⟨_, _, -, he⟩ | ⟨_, _, -, he⟩ := isLinkOf_cases (h.promoted _ _ _ hw) <;> cases he
    | hide f name => cases hfill
    | detach x => cases hfill
    | delete e => cases hfill

lemma MoveOk.not_above (h : MoveOk rows issued F) (hparents : ParentsExist rows)
    (hissued : ∀ row ∈ rows, row.entry ∈ issued)
    (hfresh : ∀ e ∈ inserted id F.writes, e ∉ issued) {w : Write} {b q : Nat}
    (hw : w ∈ F.writes) (hmoves : w.moves id = some (b, q))
    (hexists : (∃ row ∈ rows, row.entry = .directory b) ∨
      .directory b ∈ inserted id F.writes) : ¬ ReflTransGen (Parent rows) q b := by
  unfold Write.moves at hmoves
  split at hmoves
  · obtain ⟨q', hparent, heq⟩ := Option.map_eq_some_iff.mp hmoves
    obtain ⟨rfl, rfl⟩ := Prod.mk.inj heq
    have hnew : Entry.directory id ∉ issued := hfresh _ (List.mem_filterMap.mpr ⟨_, hw, rfl⟩)
    have hq : Entry.directory q' ∈ issued :=
      h.references _ hw _ (by simp [Write.references, Place.parentRow, hparent])
    intro hreach
    obtain heq | ⟨y, -, hup⟩ := ReflTransGen.cases_tail hreach
    · exact hnew (heq ▸ hq)
    · obtain ⟨row, hrow, hentry⟩ := hparents y id hup
      exact hnew (hentry ▸ hissued row hrow)
  · obtain ⟨q', hparent, heq⟩ := Option.map_eq_some_iff.mp hmoves
    obtain ⟨rfl, rfl⟩ := Prod.mk.inj heq
    obtain ⟨hold, hclear⟩ := h.outside _ q' (h.rebound _ _ q' hw hparent)
    obtain hrow | hnew := hexists
    · exact hclear hrow
    · exact absurd hold (hfresh _ hnew)
  · cases hmoves

lemma MoveOk.reparents (h : MoveOk rows issued F) (hparents : ParentsExist rows)
    (hissued : ∀ row ∈ rows, row.entry ∈ issued) (hfresh : ∀ e ∈ inserted id F.writes, e ∉ issued) :
    (∀ x y, Parent (applyWrites id rows F.writes) x y → Parent rows x y) ∨
      ∃ b q, (∃ w ∈ F.writes, w.moves id = some (b, q)) ∧ ¬ ReflTransGen (Parent rows) q b ∧
        Reparents (Parent rows) (Parent (applyWrites id rows F.writes)) b q := by
  by_cases hold : ∀ x y, Parent (applyWrites id rows F.writes) x y → Parent rows x y
  · exact .inl hold
  · simp only [not_forall] at hold
    obtain ⟨b, q, hup, hnew⟩ := hold
    obtain hold | ⟨⟨w, hw, hmoves⟩, hexists⟩ := h.parent_cases hup
    · exact absurd hold hnew
    · refine .inr ⟨b, q, ⟨w, hw, hmoves⟩, h.not_above hparents hissued hfresh hw hmoves hexists,
        fun x y hxy => ?_⟩
      obtain hold | ⟨⟨w', hw', hmoves'⟩, -⟩ := h.parent_cases hxy
      · exact .inl hold
      · have hsame := h.once w hw w' hw' (Write.claim_of_moves hmoves)
          (Write.claim_of_moves hmoves')
        rw [← hsame, hmoves] at hmoves'
        obtain ⟨rfl, rfl⟩ := Prod.mk.inj (Option.some.inj hmoves')
        exact .inr ⟨rfl, rfl⟩

end Commit

/-- The move `(b, q)` and the checked move `(d, q')` cross: the new parent of each
lies in the subtree of the other's directory. -/
def crossing (rows : List Row) (move checked : Nat × Nat) : Bool :=
  inSubtree rows rows.length move.1 checked.2 && inSubtree rows rows.length checked.1 move.2

/-- A commit that moves a directory crosses no move that another transaction in
progress has already checked. -/
def NotCrossing (s : State) : Action → Prop
  | .commit t id =>
    ∀ tx ∈ s.txs[t]?, ∀ w ∈ tx.facts.writes, ∀ move ∈ w.moves id,
      ∀ other ∈ s.txs.set t .ended, ∀ checked ∈ other.facts.outside,
        crossing s.rows move checked = false
  | _ => True

instance (s : State) (a : Action) : Decidable (NotCrossing s a) :=
  match a with
  | .start _ | .exec _ _ | .rollback _ => isTrue trivial
  | .commit t id =>
    inferInstanceAs (Decidable (∀ tx ∈ s.txs[t]?, ∀ w ∈ tx.facts.writes,
      ∀ move ∈ w.moves id, ∀ other ∈ s.txs.set t .ended, ∀ checked ∈ other.facts.outside, _))

lemma MoveOk.commit {F G : Facts} {id : Nat}
    (hF : MoveOk rows issued F) (hG : MoveOk rows issued G) (hgrounded : Grounded (Parent rows))
    (hparents : ParentsExist rows) (hissued : ∀ row ∈ rows, row.entry ∈ issued)
    (hfresh : ∀ e ∈ inserted id G.writes, e ∉ issued)
    (hcross : ∀ w ∈ G.writes, ∀ move ∈ w.moves id, ∀ checked ∈ F.outside,
      crossing rows move checked = false) :
    MoveOk (applyWrites id rows G.writes) (inserted id G.writes ++ issued) F := by
  refine ⟨fun x hx e he => List.mem_append_right _ (hF.seen x hx e he), ?_, hF.rebound,
    hF.promoted, fun w hw e he => List.mem_append_right _ (hF.references w hw e he), hF.once⟩
  intro d q houtside
  obtain ⟨hd, hclear⟩ := hF.outside d q houtside
  refine ⟨List.mem_append_right _ hd, ?_⟩
  rintro ⟨row, hrow, hentry⟩ hreach
  have hold : ∃ row ∈ rows, row.entry = .directory d := by
    obtain ⟨old, hold, hold_entry⟩ | hnew := entry_of_mem_applyWrites hrow
    · exact ⟨old, hold, hold_entry.trans hentry⟩
    · exact absurd (hentry ▸ hd) (hfresh _ hnew)
  obtain hsub | ⟨b, q', ⟨w, hw, hmoves⟩, -, hup⟩ := hG.reparents hparents hissued hfresh
  · exact hclear hold (ReflTransGen.mono hsub _ _ hreach)
  · obtain hreach | ⟨hbelow, hbelow'⟩ := reach_of_reparents hup hreach
    · exact hclear hold hreach
    · have hcrossing := hcross w hw _ hmoves _ houtside
      simp [crossing, inSubtree_of_reach hgrounded hbelow,
        inSubtree_of_reach hgrounded hbelow'] at hcrossing

structure TreeInv (s : State) : Prop where
  keys : (s.rows.map Row.entry).Nodup
  issued : ∀ row ∈ s.rows, row.entry ∈ s.issued
  parents : ParentsExist s.rows
  grounded : Grounded (Parent s.rows)
  txs : ∀ tx ∈ s.txs, tx.Disciplined ∧ MoveOk s.rows s.issued tx.facts

lemma TreeInv.setTx {s : State} (h : TreeInv s) {t : Nat} {tx : Tx}
    (htx : tx.Disciplined ∧ MoveOk s.rows s.issued tx.facts) :
    TreeInv { s with txs := s.txs.set t tx } := by
  refine ⟨h.keys, h.issued, h.parents, h.grounded, fun other hother => ?_⟩
  obtain hold | rfl := List.mem_or_eq_of_mem_set hother
  · exact h.txs other hold
  · exact htx

lemma TreeInv.exec {s : State} (h : TreeInv s) {t : Nat} {choice : Bool} {F : Facts}
    {stmt : Stmt} {rest : List Stmt} {tx : Tx} (ht : s.txs[t]? = some ⟨F, stmt :: rest⟩)
    (hexec : s.exec t choice F rest stmt = some tx) :
    TreeInv { s with txs := s.txs.set t tx } := by
  obtain ⟨hsafe, hmove⟩ := h.txs _ (List.mem_of_getElem? ht)
  obtain rfl | ⟨hdisciplined, F', locks, hgain, -, hfacts⟩ := exec_advances hsafe hexec
  · exact h.setTx ⟨.done, .empty _ _⟩
  · refine h.setTx ⟨hdisciplined, ?_⟩
    rw [hfacts]
    exact (hmove.gain h.grounded h.issued hgain).hold locks

lemma TreeInv.commit {s s' : State} (h : TreeInv s) {t id : Nat} {tx : Tx}
    (hcross : NotCrossing s (.commit t id)) (ht : s.txs[t]? = some tx)
    (hcommit : s.commit t id tx = some s') : TreeInv s' := by
  obtain ⟨⟨hnew, hfresh, hreferences⟩, rfl⟩ := commit_eq_some hcommit
  obtain ⟨-, hmove⟩ := h.txs tx (List.mem_of_getElem? ht)
  refine ⟨nodup_entries_applyWrites h.keys h.issued hnew hfresh, issued_applyWrites h.issued,
    ?_, ?_, ?_⟩
  · rintro c d ⟨row, hrow, -, hparent⟩
    obtain ⟨parent, hparent_row, hentry⟩ :=
      List.any_eq_true.mp ((hreferences row hrow).1 d hparent)
    exact ⟨parent, hparent_row, eq_of_beq hentry⟩
  · obtain hsub | ⟨b, q, -, habove, hup⟩ := hmove.reparents h.parents h.issued hfresh
    · exact h.grounded.mono hsub
    · exact h.grounded.reparent hup habove
  · intro other hother
    obtain ⟨i, hi⟩ := List.mem_iff_getElem?.mp hother
    obtain ⟨-, rfl⟩ | ⟨-, hi⟩ := LockPool.getElem?_set_cases hi
    · exact ⟨.done, .empty _ _⟩
    · obtain ⟨hdisciplined, hother_move⟩ := h.txs other (List.mem_of_getElem? hi)
      exact ⟨hdisciplined, hother_move.commit hmove h.grounded h.parents h.issued hfresh
        fun w hw move hmoves checked hchecked =>
          hcross tx ht w hw move hmoves other hother checked hchecked⟩

lemma TreeInv.step {s s' : State} {a : Action} (h : TreeInv s) (hcross : NotCrossing s a)
    (hstep : step s a = some s') : TreeInv s' := by
  obtain ⟨request, rfl⟩ | ⟨t, choice, F, stmt, rest, tx, ht, hexec, rfl⟩ |
    ⟨t, id, tx, rfl, ht, hcommit⟩ | ⟨t, -, rfl⟩ := step_cases hstep
  · refine ⟨h.keys, h.issued, h.parents, h.grounded, fun tx htx => ?_⟩
    obtain hold | hnew := List.mem_append.mp htx
    · exact h.txs tx hold
    · rw [List.mem_singleton.mp hnew]
      exact ⟨program_safe request, .empty _ _⟩
  · exact h.exec ht hexec
  · exact h.commit hcross ht hcommit
  · exact h.setTx ⟨.done, .empty _ _⟩

def twoDirectories : List Row :=
  [⟨.directory 1, ⟨none, "a"⟩, false⟩, ⟨.directory 2, ⟨none, "b"⟩, false⟩]

lemma twoDirectories_tree : Tree twoDirectories := by
  intro row hrow d hentry
  refine ⟨1, ?_⟩
  simp only [twoDirectories, List.mem_cons, List.not_mem_nil, or_false] at hrow
  obtain rfl | rfl := hrow <;> cases hentry <;> rfl

def moveFirst : Action :=
  .start (.rename (.directory 1) ⟨none, "a"⟩ ⟨some 2, "x"⟩ none false superuser)

def moveSecond : Action :=
  .start (.rename (.directory 2) ⟨none, "b"⟩ ⟨some 1, "y"⟩ none false superuser)

def renamesInTurn : List Action :=
  [moveFirst] ++ List.replicate 6 (.exec 0 false) ++ [.commit 0 3, moveSecond] ++
    List.replicate 5 (.exec 1 false)

def crossingRenames : List Action :=
  [moveFirst, moveSecond] ++ List.replicate 6 (.exec 0 false) ++
    List.replicate 6 (.exec 1 false) ++ [.commit 0 3, .commit 1 4]

def twoCycle : List Row :=
  [⟨.directory 1, ⟨some 2, "x"⟩, false⟩, ⟨.directory 2, ⟨some 1, "y"⟩, false⟩]

lemma climb_twoCycle (n : Nat) : climb twoCycle n 1 = false ∧ climb twoCycle n 2 = false := by
  induction n with
  | zero => exact ⟨rfl, rfl⟩
  | succ n ih => exact ⟨ih.2, ih.1⟩

end Fod.Namespace
