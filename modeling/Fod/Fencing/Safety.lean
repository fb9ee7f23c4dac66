import Fod.Fencing.Discipline

/-!
# A committed persist was fenced

A lease row that has been removed never comes back, because tokens are not
reused, and a file has one row.  So a row that is there at the validation has
been there since its grant, and the advisory key of the file keeps new grants out
from the validation to the commit.
-/

namespace Fod.Fencing

def Lease.Same (x y : Lease) : Prop :=
  x.resource = y.resource ∧ x.token = y.token ∧ x.owner = y.owner

lemma Lease.Same.serial {x y : Lease} (h : x.Same y) : x.serial = y.serial := by
  simp [Lease.serial, h.1, h.2.1]

lemma Lease.Same.trans {x y z : Lease} (h : x.Same y) (h' : y.Same z) : x.Same z :=
  ⟨h.1.trans h'.1, h.2.1.trans h'.2.1, h.2.2.trans h'.2.2⟩

lemma same_ite (lease : Lease) (r : Resource) (k expires : Nat) :
    lease.Same (if lease.resource = r ∧ lease.token = k then { lease with expires } else lease) := by
  split <;> exact ⟨rfl, rfl, rfl⟩

variable {lease : Lease} {leases : List Lease} {token : Nat} {writes : List Write}

lemma Write.mem_apply {w : Write} (h : lease ∈ w.apply token leases) :
    (∃ old ∈ leases, old.Same lease ∧ w ≠ .delete old.resource old.token) ∨
      w.inserted token = some lease := by
  cases w with
  | insert r o expires =>
    obtain hold | hnew := List.mem_append.mp h
    · exact .inl ⟨lease, hold, ⟨rfl, rfl, rfl⟩, by simp⟩
    · rw [List.mem_singleton.mp hnew]
      exact .inr rfl
  | regrant r k o expires =>
    obtain ⟨old, hold, rfl⟩ := List.mem_map.mp h
    exact .inl ⟨old, hold, same_ite old r k expires, by simp⟩
  | renew r k expires =>
    obtain ⟨old, hold, rfl⟩ := List.mem_map.mp h
    exact .inl ⟨old, hold, same_ite old r k expires, by simp⟩
  | delete r k =>
    obtain ⟨hold, hkept⟩ := List.mem_filter.mp h
    refine .inl ⟨lease, hold, ⟨rfl, rfl, rfl⟩, fun heq => ?_⟩
    obtain ⟨rfl, rfl⟩ := Write.delete.inj heq
    simp at hkept

lemma mem_applyWrites (h : lease ∈ writes.foldl (Write.apply token) leases) :
    (∃ old ∈ leases, old.Same lease ∧ .delete old.resource old.token ∉ writes) ∨
      ∃ w ∈ writes, ∃ new, w.inserted token = some new ∧ new.Same lease := by
  induction writes using List.reverseRecOn generalizing lease with
  | nil => exact .inl ⟨lease, h, ⟨rfl, rfl, rfl⟩, by simp⟩
  | append_singleton writes w ih =>
    rw [List.foldl_concat] at h
    obtain ⟨mid, hmid, hsame, hw⟩ | hnew := Write.mem_apply h
    · obtain ⟨old, hold, hsame', hkept⟩ | ⟨w', hw', new, hnew, hsame'⟩ := ih hmid
      · refine .inl ⟨old, hold, hsame'.trans hsame, ?_⟩
        rw [← hsame'.1, ← hsame'.2.1] at hw
        simp [hkept, Ne.symm hw]
      · exact .inr ⟨w', List.mem_append_left _ hw', new, hnew, hsame'.trans hsame⟩
    · exact .inr ⟨w, List.mem_append_right _ (List.mem_singleton_self w), lease, hnew,
        ⟨rfl, rfl, rfl⟩⟩

lemma exists_mem_applyWrites
    {old : Lease} (h : old ∈ leases) (hkept : .delete old.resource old.token ∉ writes) :
    ∃ lease ∈ writes.foldl (Write.apply token) leases, old.Same lease := by
  induction writes generalizing leases old with
  | nil => exact ⟨old, h, rfl, rfl, rfl⟩
  | cons w writes ih =>
    have hone : ∃ lease ∈ w.apply token leases, old.Same lease := by
      cases w with
      | insert r o expires => exact ⟨old, List.mem_append_left _ h, rfl, rfl, rfl⟩
      | regrant r k o expires =>
        exact ⟨_, List.mem_map_of_mem h, same_ite old r k expires⟩
      | renew r k expires => exact ⟨_, List.mem_map_of_mem h, same_ite old r k expires⟩
      | delete r k =>
        refine ⟨old, List.mem_filter.mpr ⟨h, ?_⟩, rfl, rfl, rfl⟩
        by_contra hdeleted
        refine hkept (List.mem_cons.mpr (.inl ?_))
        simpa using hdeleted
    obtain ⟨mid, hmid, hsame⟩ := hone
    rw [hsame.1, hsame.2.1] at hkept
    obtain ⟨lease, hlease, hsame'⟩ := ih hmid fun hmem => hkept (List.mem_cons_of_mem _ hmem)
    exact ⟨lease, hlease, hsame.trans hsame'⟩

def tokens (token : Nat) (writes : List Write) : List (Bool × Nat) :=
  (writes.filterMap (Write.inserted token)).map Lease.serial

lemma serials_applyWrites_sublist (token : Nat) (leases : List Lease) (writes : List Write) :
    ((writes.foldl (Write.apply token) leases).map Lease.serial).Sublist
      (leases.map Lease.serial ++ tokens token writes) := by
  have hmap : ∀ (rows : List Lease) (r : Resource) (k expires : Nat),
      (rows.map fun lease => if lease.resource = r ∧ lease.token = k
        then { lease with expires } else lease).map Lease.serial = rows.map Lease.serial := by
    intro rows r k expires
    rw [List.map_map]
    exact List.map_congr_left fun lease _ => (same_ite lease r k expires).serial.symm
  induction writes generalizing leases with
  | nil => simp [tokens]
  | cons w writes ih =>
    refine (ih (w.apply token leases)).trans ?_
    cases w with
    | insert r o expires => simp [Write.apply, tokens, Write.inserted]
    | regrant r k o expires =>
      simp only [Write.apply, tokens, Write.inserted, hmap]
      exact List.Sublist.refl _
    | renew r k expires =>
      simp only [Write.apply, tokens, Write.inserted, hmap]
      exact List.Sublist.refl _
    | delete r k =>
      simp only [Write.apply, tokens, Write.inserted]
      exact (List.filter_sublist.map _).append_right _

lemma mem_granted {token order : Nat} {g : Grant}
    (h : g ∈ writes.filterMap (Write.grant token order)) : g.order = order ∧
      ((∃ e, .insert (.file g.file) g.owner e ∈ writes ∧ g.token = token) ∨
        ∃ e, .regrant (.file g.file) g.token g.owner e ∈ writes) := by
  obtain ⟨w, hw, hgrant⟩ := List.mem_filterMap.mp h
  unfold Write.grant at hgrant
  split at hgrant
  · cases hgrant
    exact ⟨rfl, .inl ⟨_, hw, rfl⟩⟩
  · cases hgrant
    exact ⟨rfl, .inr ⟨_, hw⟩⟩
  · cases hgrant

lemma key_of_granted {grants : List Grant} {F : Facts} {token order : Nat}
    {g : Grant} (hok : TxOk leases grants F)
    (h : g ∈ F.writes.filterMap (Write.grant token order)) : .key (.file g.file) ∈ F.locks := by
  obtain ⟨-, ⟨e, hw, -⟩ | ⟨e, hw⟩⟩ := mem_granted h
  · exact (hok.writes _ hw).1
  · exact (hok.writes _ hw).1

lemma owner_of_granted {tx : Tx} {token order : Nat} (h : tx.Disciplined) :
    ∃ o, ∀ g ∈ tx.facts.writes.filterMap (Write.grant token order), g.owner = o := by
  obtain ⟨o, -, -, -, howner⟩ := h
  refine ⟨o, fun g hg => ?_⟩
  obtain ⟨-, ⟨e, hw, -⟩ | ⟨e, hw⟩⟩ := mem_granted hg
  · exact howner _ hw _ rfl
  · exact howner _ hw _ rfl

lemma mem_inserted {w : Write} (h : w.inserted token = some lease) :
    w = .insert lease.resource lease.owner lease.expires ∧ lease.token = token := by
  cases w with
  | insert r o e =>
    cases h
    exact ⟨rfl, rfl⟩
  | regrant r k o e => cases h
  | renew r k e => cases h
  | delete r k => cases h

/-! ## The invariant -/

structure Inv (s : State) : Prop where
  exclusive : LockPool.Exclusive Tx.locks Lock.conflicts s.txs
  orders : ∀ g ∈ s.grants, g.order ≤ s.commits
  persistOrders : ∀ p ∈ s.persists, p.order ≤ s.commits
  resources : (s.leases.map Lease.resource).Nodup
  serials : (s.leases.map Lease.serial).Nodup
  issued : ∀ lease ∈ s.leases, lease.serial ∈ s.issued
  issuedGrants : ∀ g ∈ s.grants, (true, g.token) ∈ s.issued
  current : Current s
  txs : ∀ tx ∈ s.txs, tx.Disciplined ∧ TxOk s.leases s.grants tx.facts
  fenced : ∀ p ∈ s.persists, Fenced s.grants p

lemma Held.append {grants new : List Grant} {f : Nat} {o : Owner} {k : Nat}
    (h : Held grants f o k) (hnew : ∀ g ∈ new, g.file ≠ f) : Held (new ++ grants) f o k := by
  obtain ⟨⟨g, hg, hgrant⟩, hsince⟩ := h
  have hold : ∀ g ∈ new ++ grants, g.file = f → g ∈ grants := by
    intro g hg hf
    rcases List.mem_append.mp hg with hg | hg
    · exact absurd hf (hnew g hg)
    · exact hg
  refine ⟨⟨g, List.mem_append_right _ hg, hgrant⟩, ?_⟩
  intro g hg hf hk g' hg' hf' horder
  exact hsince g (hold g hg hf) hf hk g' (hold g' hg' hf') hf' horder

lemma TxOk.commit {grants : List Grant} {F G : Facts} {token order : Nat}
    (hF : TxOk leases grants F) (hG : TxOk leases grants G) (hapart : ∀ l ∈ G.locks, l ∉ F.locks) :
    TxOk (G.writes.foldl (Write.apply token) leases)
      (G.writes.filterMap (Write.grant token order) ++ grants) F := by
  have hnew : ∀ f, .key (.file f) ∈ F.locks →
      ∀ g ∈ G.writes.filterMap (Write.grant token order), g.file ≠ f := by
    intro f hkey g hg hf
    exact hapart _ (key_of_granted hG hg) (hf ▸ hkey)
  refine ⟨?_, ?_, ?_⟩
  · intro w hw
    have hwrite := hF.writes w hw
    cases w with
    | insert r o e =>
      refine ⟨hwrite.1, fun lease hlease hr => ?_⟩
      rcases mem_applyWrites hlease with ⟨old, hold, hsame, -⟩ | ⟨w', hw', new, hins, hsame⟩
      · have hdeleted := hwrite.2 old hold (hsame.1.trans hr)
        rw [Facts.deletes, hsame.1, hsame.2.1] at hdeleted
        exact hdeleted
      · -- an insertion by the other transaction would need the same key
        obtain ⟨rfl, -⟩ := mem_inserted hins
        have hkey := (hG.writes _ hw').1
        rw [hsame.1, hr] at hkey
        exact absurd hwrite.1 (hapart _ hkey)
    | regrant r k o e =>
      obtain ⟨hkey, hrow, lease, hlease, rfl, rfl, rfl⟩ := hwrite
      obtain ⟨lease', hlease', hsame⟩ : ∃ lease' ∈ G.writes.foldl (Write.apply token) leases,
          lease.Same lease' := by
        refine exists_mem_applyWrites hlease fun hdelete => ?_
        exact hapart _ (hG.writes _ hdelete) hrow
      exact ⟨hkey, hrow, lease', hlease', hsame.1.symm, hsame.2.1.symm, hsame.2.2.symm⟩
    | renew r k e => trivial
    | delete r k => exact hwrite
  · intro f o k hfence
    obtain ⟨hkey, hheld⟩ := hF.fence f o k hfence
    exact ⟨hkey, hheld.append (hnew f hkey)⟩
  · intro f checked hclear
    obtain ⟨hkey, hbefore⟩ := hF.clear f checked hclear
    refine ⟨hkey, fun g hg hf => ?_⟩
    rcases List.mem_append.mp hg with hg | hg
    · exact absurd hf (hnew f hkey g hg)
    · exact hbefore g hg hf

section Commit

variable {s : State} {tx : Tx} {token : Nat}

lemma owner_of_survivor (hinv : Inv s) (hok : TxOk s.leases s.grants tx.facts) {g : Grant}
    (hg : g ∈ tx.facts.writes.filterMap (Write.grant token (s.commits + 1))) {old : Lease}
    (hold : old ∈ s.leases) (hkept : .delete old.resource old.token ∉ tx.facts.writes)
    (hresource : old.resource = .file g.file) : g.owner = old.owner := by
  obtain ⟨-, ⟨e, hw, -⟩ | ⟨e, hw⟩⟩ := mem_granted hg
  · have hdeleted := (hok.writes _ hw).2 old hold hresource
    rw [Facts.deletes, List.contains_iff_mem] at hdeleted
    exact absurd hdeleted hkept
  · obtain ⟨-, -, lease, hlease, hr, -, howner⟩ := hok.writes _ hw
    have hsame : lease = old :=
      List.inj_on_of_nodup_map hinv.resources hlease hold (hr.trans hresource.symm)
    rw [← hsame, howner]

lemma lease_of_granted (hinv : Inv s) (hok : TxOk s.leases s.grants tx.facts)
    (hnodup : (tokens token tx.facts.writes).Nodup)
    (hfresh : ∀ x ∈ tokens token tx.facts.writes, x ∉ s.issued) {g : Grant}
    (hg : g ∈ tx.facts.writes.filterMap (Write.grant token (s.commits + 1))) {lease : Lease}
    (hlease : lease ∈ tx.facts.writes.foldl (Write.apply token) s.leases)
    (hserial : lease.serial = (true, g.token)) :
    lease.resource = .file g.file ∧ lease.owner = g.owner := by
  have hins : ∀ {w new}, w ∈ tx.facts.writes → w.inserted token = some new →
      new ∈ tx.facts.writes.filterMap (Write.inserted token) := by
    intro w new hw hnew
    exact List.mem_filterMap.mpr ⟨w, hw, hnew⟩
  obtain ⟨-, ⟨e, hw, htoken⟩ | ⟨e, hw⟩⟩ := mem_granted hg
  · have hmem := hins hw rfl
    have hgrant : (true, g.token) ∈ tokens token tx.facts.writes := by
      rw [htoken]
      exact List.mem_map_of_mem (f := Lease.serial) hmem
    rcases mem_applyWrites hlease with ⟨old, hold, hsame, -⟩ | ⟨w', hw', new, hnew, hsame⟩
    · have hissued := hinv.issued old hold
      rw [hsame.serial, hserial] at hissued
      exact absurd hissued (hfresh _ hgrant)
    · have heq := List.inj_on_of_nodup_map hnodup (hins hw' hnew) hmem
        (by rw [hsame.serial, hserial, htoken]; rfl)
      rw [← hsame.1, ← hsame.2.2, heq]
      exact ⟨rfl, rfl⟩
  · obtain ⟨-, -, granted, hgranted, hr, hk, ho⟩ := hok.writes _ hw
    have hgranted_serial : granted.serial = (true, g.token) := by
      rw [Lease.serial, hr, hk]
      rfl
    rcases mem_applyWrites hlease with ⟨old, hold, hsame, -⟩ | ⟨w', hw', new, hnew, hsame⟩
    · have heq : old = granted := List.inj_on_of_nodup_map hinv.serials hold hgranted
        (by rw [hsame.serial, hserial, hgranted_serial])
      rw [← hsame.1, ← hsame.2.2, heq]
      exact ⟨hr, ho⟩
    · have hissued := hinv.issued granted hgranted
      rw [hgranted_serial, ← hserial, ← hsame.serial] at hissued
      exact absurd hissued (hfresh _ (List.mem_map_of_mem (hins hw' hnew)))

lemma Current.commit (hinv : Inv s) (hdisciplined : tx.Disciplined)
    (hok : TxOk s.leases s.grants tx.facts) (hnodup : (tokens token tx.facts.writes).Nodup)
    (hfresh : ∀ x ∈ tokens token tx.facts.writes, x ∉ s.issued) {s' : State}
    (hleases : s'.leases = tx.facts.writes.foldl (Write.apply token) s.leases)
    (hgrants : s'.grants =
      tx.facts.writes.filterMap (Write.grant token (s.commits + 1)) ++ s.grants) : Current s' := by
  constructor
  · intro g hg lease hlease hserial
    rw [hgrants] at hg ⊢
    rw [hleases] at hlease
    rcases List.mem_append.mp hg with hg | hg
    · obtain ⟨hresource, howner⟩ :=
        lease_of_granted hinv hok hnodup hfresh hg hlease hserial
      refine ⟨hresource, howner, fun g' hg' hf horder => ?_⟩
      rcases List.mem_append.mp hg' with hg' | hg'
      · obtain ⟨o, ho⟩ : ∃ o, ∀ g ∈ tx.facts.writes.filterMap
            (Write.grant token (s.commits + 1)), g.owner = o := owner_of_granted hdisciplined
        rw [ho g hg, ho g' hg']
      · have hbefore := hinv.orders g' hg'
        have hnow := (mem_granted hg).1
        omega
    · rcases mem_applyWrites hlease with ⟨old, hold, hsame, hkept⟩ | ⟨w, hw, new, hnew, hsame⟩
      · obtain ⟨hresource, howner, hsince⟩ :=
          hinv.current.held g hg old hold (hsame.serial.trans hserial)
        refine ⟨hsame.1 ▸ hresource, hsame.2.2 ▸ howner, fun g' hg' hf horder => ?_⟩
        rcases List.mem_append.mp hg' with hg' | hg'
        · rw [owner_of_survivor hinv hok hg' hold hkept (hresource.trans (by rw [hf])), howner]
        · exact hsince g' hg' hf horder
      · have hissued := hinv.issuedGrants g hg
        rw [← hserial, ← hsame.serial] at hissued
        have hmem := List.mem_filterMap.mpr ⟨w, hw, hnew⟩
        exact absurd hissued (hfresh _ (List.mem_map_of_mem hmem))
  · intro lease hlease f hf
    rw [hgrants]
    rw [hleases] at hlease
    rcases mem_applyWrites hlease with ⟨old, hold, hsame, -⟩ | ⟨w, hw, new, hnew, hsame⟩
    · obtain ⟨g, hg, hg_file, hg_owner, hg_token⟩ :=
        hinv.current.granted old hold f (hsame.1.trans hf)
      exact ⟨g, List.mem_append_right _ hg, hg_file, hg_owner.trans hsame.2.2,
        hg_token.trans hsame.2.1⟩
    · obtain ⟨rfl, htoken⟩ := mem_inserted hnew
      rw [hsame.1, hf] at hw
      refine ⟨⟨f, new.owner, token, s.commits + 1⟩, List.mem_append_left _ ?_, rfl, hsame.2.2,
        htoken.symm.trans hsame.2.1⟩
      exact List.mem_filterMap.mpr ⟨_, hw, rfl⟩

end Commit

lemma filter_order_append {new grants : List Grant} {order : Nat}
    (hnew : ∀ g ∈ new, order ≤ g.order) : (new ++ grants).filter (fun g => g.order < order) =
      grants.filter fun g => g.order < order := by
  have hnone : new.filter (fun g => g.order < order) = [] := by
    rw [List.filter_eq_nil_iff]
    intro g hg
    simpa using hnew g hg
  rw [List.filter_append, hnone, List.nil_append]

lemma Fenced.append {new grants : List Grant} {p : Persist} (h : Fenced grants p)
    (hnew : ∀ g ∈ new, p.order ≤ g.order) : Fenced (new ++ grants) p := by
  obtain ⟨f, check, order⟩ := p
  cases check with
  | inl fence =>
    simp only [Fenced] at h ⊢
    rw [filter_order_append hnew]
    exact h
  | inr checked =>
    intro g hg hf hbetween
    rcases List.mem_append.mp hg with hg | hg
    · exact absurd hbetween.2 (Nat.not_lt.mpr (hnew g hg))
    · exact h g hg hf hbetween

lemma Inv.fenced_of_persists {s : State} (hinv : Inv s) {F : Facts}
    (hok : TxOk s.leases s.grants F) : ∀ p ∈ F.persists (s.commits + 1), Fenced s.grants p := by
  intro p hp
  rcases List.mem_append.mp hp with hp | hp
  · obtain ⟨⟨f, o, k⟩, hfence, rfl⟩ := List.mem_map.mp hp
    obtain ⟨-, hheld⟩ := hok.fence f o k (Option.mem_toList.mp hfence)
    have hall : s.grants.filter (fun g => g.order < s.commits + 1) = s.grants := by
      rw [List.filter_eq_self]
      intro g hg
      have horder := hinv.orders g hg
      simp only [decide_eq_true_eq]
      omega
    simp only [Fenced, hall]
    exact hheld
  · obtain ⟨⟨f, checked⟩, hclear, rfl⟩ := List.mem_map.mp hp
    obtain ⟨-, hbefore⟩ := hok.clear f checked (Option.mem_toList.mp hclear)
    intro g hg hf hbetween
    exact absurd (hbefore g hg hf) (Nat.not_le.mpr hbetween.1)

lemma order_of_mem_persists {F : Facts} {order : Nat} {p : Persist} (h : p ∈ F.persists order) :
    p.order = order := by
  rcases List.mem_append.mp h with h | h <;> obtain ⟨x, -, rfl⟩ := List.mem_map.mp h <;> rfl

lemma Inv.commit {s s' : State} {t token : Nat} {tx : Tx} (hinv : Inv s)
    (htx : s.txs[t]? = some tx) (h : s.commit t token tx = some s') : Inv s' := by
  obtain ⟨hdisciplined, hok⟩ := hinv.txs tx (List.mem_of_getElem? htx)
  simp only [State.commit] at h
  split at h
  · rename_i hcond
    obtain ⟨-, hnodup, hfresh, hconstraints⟩ := hcond
    have hgranted : ∀ g ∈ tx.facts.writes.filterMap (Write.grant token (s.commits + 1)),
        g.order = s.commits + 1 := fun g hg => (mem_granted hg).1
    have hserials := serials_applyWrites_sublist token s.leases tx.facts.writes
    cases h
    refine ⟨?_, ?_, ?_, hconstraints.1, ?_, ?_, ?_, ?_, ?_, ?_⟩
    · exact hinv.exclusive.set_of_subset Lock.conflicts_comm htx (by simp [Tx.ended, Tx.locks])
    · intro g hg
      rcases List.mem_append.mp hg with hg | hg
      · exact Nat.le_of_eq (hgranted g hg)
      · exact Nat.le_succ_of_le (hinv.orders g hg)
    · intro p hp
      rcases List.mem_append.mp hp with hp | hp
      · exact Nat.le_of_eq (order_of_mem_persists hp)
      · exact Nat.le_succ_of_le (hinv.persistOrders p hp)
    · refine hserials.nodup (List.nodup_append.mpr ⟨hinv.serials, hnodup, ?_⟩)
      intro x hx y hy hxy
      obtain ⟨lease, hlease, rfl⟩ := List.mem_map.mp hx
      exact hfresh y hy (hxy ▸ hinv.issued lease hlease)
    · intro lease hlease
      rcases List.mem_append.mp (hserials.subset (List.mem_map_of_mem hlease)) with hold | hnew
      · obtain ⟨old, hmem, heq⟩ := List.mem_map.mp hold
        exact List.mem_append_right _ (heq ▸ hinv.issued old hmem)
      · exact List.mem_append_left _ hnew
    · intro g hg
      rcases List.mem_append.mp hg with hg | hg
      · obtain ⟨-, ⟨e, hw, htoken⟩ | ⟨e, hw⟩⟩ := mem_granted hg
        · have hmem := List.mem_filterMap.mpr ⟨_, hw, (rfl : Write.inserted token _ = some _)⟩
          rw [htoken]
          exact List.mem_append_left _ (List.mem_map_of_mem (f := Lease.serial) hmem)
        · obtain ⟨-, -, lease, hlease, hr, hk, -⟩ := hok.writes _ hw
          have hissued := hinv.issued lease hlease
          rw [Lease.serial, hr, hk] at hissued
          exact List.mem_append_right _ hissued
      · exact List.mem_append_right _ (hinv.issuedGrants g hg)
    · exact Current.commit hinv hdisciplined hok hnodup hfresh rfl rfl
    · intro tx' htx'
      obtain ⟨i, hi⟩ := List.mem_iff_getElem?.mp htx'
      rcases LockPool.getElem?_set_cases hi with ⟨-, rfl⟩ | ⟨hne, hold⟩
      · obtain ⟨-, hended, -⟩ := Advances.ended s t tx.facts
        exact ⟨hended, .empty _ _⟩
      · obtain ⟨hdisciplined', hok'⟩ := hinv.txs tx' (List.mem_of_getElem? hold)
        refine ⟨hdisciplined', hok'.commit hok fun l hl hl' => ?_⟩
        have hapart := hinv.exclusive t i tx tx' hne.symm htx hold l hl l hl'
        simp [Lock.conflicts] at hapart
    · intro p hp
      rcases List.mem_append.mp hp with hp | hp
      · refine (hinv.fenced_of_persists hok p hp).append fun g hg => ?_
        exact Nat.le_of_eq ((order_of_mem_persists hp).trans (hgranted g hg).symm)
      · refine (hinv.fenced p hp).append fun g hg => ?_
        have horder := hinv.persistOrders p hp
        have hnew := hgranted g hg
        omega
  · cases h

lemma Inv.of_same {s : State} (hinv : Inv s) {txs : List Tx} (now : Nat)
    (sessions : List Session) (hexclusive : LockPool.Exclusive Tx.locks Lock.conflicts txs)
    (htxs : ∀ tx ∈ txs, tx.Disciplined ∧ TxOk s.leases s.grants tx.facts) :
    Inv { s with now, sessions, txs } :=
  ⟨hexclusive, hinv.orders, hinv.persistOrders, hinv.resources, hinv.serials, hinv.issued,
    hinv.issuedGrants, ⟨hinv.current.held, hinv.current.granted⟩, htxs, hinv.fenced⟩

lemma Inv.setTx {s : State} {t : Nat} {old tx : Tx} (hinv : Inv s) (hold : s.txs[t]? = some old)
    (h : Advances s t old.facts tx) : Inv { s with txs := s.txs.set t tx } := by
  obtain ⟨⟨locks, hfree, hlocks⟩, htx⟩ := h
  refine hinv.of_same s.now s.sessions ?_ ?_
  · exact hinv.exclusive.set Lock.conflicts_comm hold hfree hlocks
  · intro tx' htx'
    rcases List.mem_or_eq_of_mem_set htx' with hmem | rfl
    · exact hinv.txs tx' hmem
    · exact htx

lemma Inv.step {s s' : State} {a : Action} (hinv : Inv s) (h : Fencing.step s a = some s') :
    Inv s' := by
  cases a with
  | start request =>
    cases h
    refine hinv.of_same s.now s.sessions ?_ ?_
    · exact hinv.exclusive.append Lock.conflicts_comm rfl
    · intro tx htx
      rcases List.mem_append.mp htx with hmem | hnew
      · exact hinv.txs tx hmem
      · obtain ⟨o, hsafe⟩ := program_safe request
        rw [List.mem_singleton.mp hnew]
        exact ⟨⟨o, [], by simp, hsafe, by simp⟩, .empty _ _⟩
  | exec t choice =>
    simp only [Fencing.step] at h
    split at h
    · rename_i F stmt rest htx
      obtain ⟨tx, hexec, rfl⟩ := Option.map_eq_some_iff.mp h
      obtain ⟨hdisciplined, hok⟩ := hinv.txs _ (List.mem_of_getElem? htx)
      exact hinv.setTx htx (exec_advances hinv.current hinv.orders hdisciplined hok hexec)
    · cases h
  | commit t token =>
    obtain ⟨tx, htx, hcommit⟩ := Option.bind_eq_some_iff.mp h
    exact hinv.commit htx hcommit
  | rollback t =>
    simp only [Fencing.step] at h
    split at h
    · rename_i ht
      cases h
      exact hinv.setTx (List.getElem?_eq_getElem ht) (.ended s t _)
    · cases h
  | tick elapsed =>
    cases h
    exact hinv.of_same _ _ hinv.exclusive hinv.txs
  | renewSession id ttl =>
    cases h
    exact hinv.of_same _ _ hinv.exclusive hinv.txs

lemma inv_init : Inv init := by
  constructor <;> simp [init, LockPool.Exclusive, LockPool.Apart]
  constructor <;> simp

theorem committed_persists_fenced (trace : List Action) (s : State)
    (hrun : GuardedRun.run step init trace = some s) : ∀ p ∈ s.persists, Fenced s.grants p := by
  have hinv : Inv s := GuardedRun.run_invariant_of_step
    (fun _ _ _ hs hstep => Inv.step hs hstep) inv_init hrun
  exact hinv.fenced

def contended : List Action :=
  [.renewSession 1 60, .renewSession 2 60,
    .start (.acquireWriteOwnership none "a" (some 7) ⟨1, 100⟩ 30)] ++
    List.replicate 9 (.exec 0 false) ++ [.commit 0 5, .tick 10,
    .start (.acquireWriteOwnership (some 3) "b" (some 7) ⟨2, 200⟩ 30),
    .start (.persist 7 (some (⟨1, 100⟩, 5)))] ++
    List.replicate 7 (.exec 1 false) ++ [.commit 1 6, .exec 2 false, .exec 2 false, .commit 2 7]

theorem committed_persists_fenced_contended :
    ∃ s, GuardedRun.run step init contended = some s ∧
      s.persists = [⟨7, .inl (⟨1, 100⟩, 5), 3⟩] ∧ s.grants = [⟨7, ⟨1, 100⟩, 5, 1⟩] ∧
      ∀ p ∈ s.persists, Fenced s.grants p := by
  refine ⟨_, rfl, by decide, by decide, ?_⟩
  exact committed_persists_fenced contended _ rfl

/-- In every interleaving a resource has at most one lease and a token at most one, and the
lease on a file is of the owner who was last granted it. -/
theorem leases_follow_grants (trace : List Action) (s : State)
    (hrun : GuardedRun.run step init trace = some s) :
    (s.leases.map Lease.resource).Nodup ∧ (s.leases.map Lease.serial).Nodup ∧
      ∀ lease ∈ s.leases, ∀ f, lease.resource = .file f →
        Held s.grants f lease.owner lease.token := by
  have hinv : Inv s := GuardedRun.run_invariant_of_step
    (fun _ _ _ hs hstep => Inv.step hs hstep) inv_init hrun
  exact ⟨hinv.resources, hinv.serials, fun _ hlease _ hf => hinv.current.of_lease hlease hf⟩

theorem leases_follow_grants_contended :
    ∃ s, GuardedRun.run step init contended = some s ∧ s.leases.map Lease.token = [5, 5] ∧
      (s.leases.map Lease.resource).Nodup :=
  ⟨_, rfl, by decide, (leases_follow_grants contended _ rfl).1⟩

end Fod.Fencing
