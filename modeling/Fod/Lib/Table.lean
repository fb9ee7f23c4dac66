import Mathlib

/-!
# Tables

A table has at most one row for a key.  Besides the operations of `AList`, the
rows can be filtered and changed in place.
-/

abbrev Table (κ ν : Type*) := AList fun _ : κ => ν

namespace Table

variable {κ ν : Type*} [DecidableEq κ] {t : Table κ ν} {k : κ} {v : ν}

def keep (wanted : κ → ν → Bool) (t : Table κ ν) : Table κ ν :=
  ⟨t.entries.filter fun row => wanted row.1 row.2,
    List.NodupKeys.sublist List.filter_sublist t.nodupKeys⟩

def adjust (change : κ → ν → ν) (t : Table κ ν) : Table κ ν :=
  ⟨t.entries.map fun row => ⟨row.1, change row.1 row.2⟩, by
    have hkeys : (t.entries.map fun row =>
        (⟨row.1, change row.1 row.2⟩ : Σ _ : κ, ν)).keys = t.entries.keys := by
      simp [List.keys, Function.comp_def]
    rw [List.NodupKeys, hkeys]
    exact t.nodupKeys⟩

def keysWith (wanted : ν → Bool) (t : Table κ ν) : List κ :=
  (t.entries.filter fun row => wanted row.2).map Sigma.fst

lemma lookup_eq_some : t.lookup k = some v ↔ ⟨k, v⟩ ∈ t.entries :=
  AList.mem_lookup_iff

lemma lookup_keep (wanted : κ → ν → Bool) :
    (t.keep wanted).lookup k = (t.lookup k).filter (wanted k) := by
  apply Option.ext
  intro v
  rw [Option.filter_eq_some_iff, lookup_eq_some, lookup_eq_some]
  simp [keep]

lemma lookup_keep_key (wanted : κ → Bool) :
    (t.keep fun k _ => wanted k).lookup k = if wanted k then t.lookup k else none := by
  rw [lookup_keep]
  cases t.lookup k <;> simp [Option.filter]

lemma lookup_adjust (change : κ → ν → ν) :
    (t.adjust change).lookup k = (t.lookup k).map (change k) := by
  apply Option.ext
  intro v
  rw [Option.map_eq_some_iff, lookup_eq_some]
  simp only [lookup_eq_some, adjust, List.mem_map]
  constructor
  · rintro ⟨⟨k', v'⟩, hrow, heq⟩
    obtain ⟨rfl, rfl⟩ := heq
    exact ⟨v', hrow, rfl⟩
  · rintro ⟨v', hrow, rfl⟩
    exact ⟨⟨k, v'⟩, hrow, rfl⟩

lemma mem_keysWith (wanted : ν → Bool) :
    k ∈ t.keysWith wanted ↔ ∃ v, t.lookup k = some v ∧ wanted v = true := by
  simp only [lookup_eq_some, keysWith, List.mem_map, List.mem_filter]
  constructor
  · rintro ⟨⟨k', v'⟩, ⟨hrow, hwanted⟩, rfl⟩
    exact ⟨v', hrow, hwanted⟩
  · rintro ⟨v, hrow, hwanted⟩
    exact ⟨⟨k, v⟩, ⟨hrow, hwanted⟩, rfl⟩

omit [DecidableEq κ] in
lemma keysWith_adjust {change : κ → ν → ν} {wanted : ν → Bool}
    (hchange : ∀ k v, wanted (change k v) = wanted v) :
    (t.adjust change).keysWith wanted = t.keysWith wanted := by
  simp only [keysWith, adjust, List.filter_map, List.map_map, Function.comp_def, hchange]

omit [DecidableEq κ] in
lemma nodup_keysWith (wanted : ν → Bool) : (t.keysWith wanted).Nodup :=
  List.NodupKeys.sublist List.filter_sublist t.nodupKeys

lemma keysWith_eq_singleton (wanted : ν → Bool) :
    t.keysWith wanted = [k] ↔ (∃ v, t.lookup k = some v ∧ wanted v = true) ∧
      ∀ k' v', t.lookup k' = some v' → wanted v' = true → k' = k := by
  rw [← List.perm_singleton, List.perm_ext_iff_of_nodup (nodup_keysWith wanted) (List.nodup_singleton k)]
  simp only [mem_keysWith, List.mem_singleton]
  constructor
  · intro h
    exact ⟨(h k).mpr rfl, fun k' v' hv' hwanted => (h k').mp ⟨v', hv', hwanted⟩⟩
  · rintro ⟨hthere, honly⟩ k'
    constructor
    · rintro ⟨v', hv', hwanted⟩
      exact honly k' v' hv' hwanted
    · rintro rfl
      exact hthere

lemma lookup_insert_cases {k' : κ} {v' : ν} (h : (t.insert k v).lookup k' = some v') :
    (k' = k ∧ v' = v) ∨ (k' ≠ k ∧ t.lookup k' = some v') := by
  by_cases hk : k' = k
  · subst hk
    rw [AList.lookup_insert] at h
    exact .inl ⟨rfl, (Option.some.inj h).symm⟩
  · rw [AList.lookup_insert_ne hk] at h
    exact .inr ⟨hk, h⟩

lemma forall_insert {P : κ → ν → Prop} (hnew : P k v)
    (hold : ∀ k' v', t.lookup k' = some v' → P k' v') (k' : κ) (v' : ν)
    (h : (t.insert k v).lookup k' = some v') : P k' v' := by
  rcases lookup_insert_cases h with ⟨rfl, rfl⟩ | ⟨-, h⟩
  · exact hnew
  · exact hold k' v' h

lemma lookup_erase_cases {k' : κ} {v' : ν} (h : (t.erase k).lookup k' = some v') :
    k' ≠ k ∧ t.lookup k' = some v' := by
  by_cases hk : k' = k
  · subst hk
    rw [AList.lookup_erase] at h
    cases h
  · rw [AList.lookup_erase_ne hk] at h
    exact ⟨hk, h⟩

lemma lookup_insert_eq_ite (t : Table κ ν) (k k' : κ) (v : ν) :
    (t.insert k v).lookup k' = if k' = k then some v else t.lookup k' := by
  split
  next h => rw [h, AList.lookup_insert]
  next h => rw [AList.lookup_insert_ne h]

lemma lookup_erase_eq_ite (t : Table κ ν) (k k' : κ) :
    (t.erase k).lookup k' = if k' = k then none else t.lookup k' := by
  split
  next h => rw [h, AList.lookup_erase]
  next h => rw [AList.lookup_erase_ne h]

lemma lookup_of_foldl_erase {v' : ν} (keys : List κ)
    (h : (keys.foldl (fun t key => AList.erase key t) t).lookup k = some v') :
    t.lookup k = some v' := by
  induction keys generalizing t with
  | nil => exact h
  | cons key keys ih => exact (lookup_erase_cases (ih h)).2

lemma length_keysWith_insert (wanted : ν → Bool) (h : t.lookup k = some v) (v' : ν) :
    (keysWith wanted (t.insert k v')).length + (if wanted v then 1 else 0) =
      (t.keysWith wanted).length + if wanted v' then 1 else 0 := by
  have hmem : k ∈ t.entries.keys := List.mem_keys_of_mem (lookup_eq_some.mp h)
  obtain ⟨w, before, after, _, hsplit, herase⟩ := List.exists_of_kerase hmem
  have hw : w = v := by
    have hrow : (⟨k, w⟩ : Σ _ : κ, ν) ∈ t.entries := by simp [hsplit]
    rw [← lookup_eq_some, h] at hrow
    exact (Option.some.inj hrow).symm
  rw [keysWith, keysWith, AList.entries_insert, herase, hsplit, hw]
  simp only [List.length_map, List.filter_cons, List.filter_append, List.length_append]
  grind

lemma length_keysWith_erase (wanted : ν → Bool) (h : t.lookup k = some v) :
    (keysWith wanted (t.erase k)).length + (if wanted v then 1 else 0) =
      (t.keysWith wanted).length := by
  have hinsert := length_keysWith_insert wanted h v
  have hcons : (keysWith wanted (t.insert k v)).length =
      (if wanted v then 1 else 0) + (keysWith wanted (t.erase k)).length := by
    rw [keysWith, keysWith, AList.entries_insert]
    simp only [List.length_map, List.filter_cons]
    split
    · simp [Nat.add_comm, AList.erase]
    · simp [AList.erase]
  omega

lemma keysWith_insert_eq_singleton (wanted : ν → Bool)
    (hnone : ∀ k' v', t.lookup k' = some v' → wanted v' = false) (hv : wanted v = true) :
    keysWith wanted (t.insert k v) = [k] := by
  have hrest : (t.entries.kerase k).filter (fun row => wanted row.2) = [] := by
    refine List.filter_eq_nil_iff.mpr fun row hrow => ?_
    have hmem : row ∈ t.entries := (List.kerase_sublist k t.entries).subset hrow
    simp [hnone row.1 row.2 (lookup_eq_some.mpr hmem)]
  simp [keysWith, AList.entries_insert, hv, hrest]

lemma lookup_foldl {ρ : Type*} (step : Table κ ν → ρ → Table κ ν) (key : ρ → κ)
    (change : κ → Option ν → Option ν) (hidem : ∀ k x, change k (change k x) = change k x)
    (rows : List ρ)
    (hstep : ∀ row ∈ rows, ∀ t k, (step t row).lookup k =
      if k = key row then change k (t.lookup k) else t.lookup k) (t : Table κ ν) :
    (rows.foldl step t).lookup k =
      if k ∈ rows.map key then change k (t.lookup k) else t.lookup k := by
  induction rows generalizing t with
  | nil => simp
  | cons row rows ih =>
    rw [List.foldl_cons, ih fun r hr => hstep r (List.mem_cons_of_mem _ hr),
      hstep row List.mem_cons_self]
    by_cases hk : k = key row
    · simp [hk, hidem]
    · simp [hk]

lemma lookup_foldl_set {ρ : Type*} (step : Table κ ν → ρ → Table κ ν) (key : ρ → Option κ)
    (value : ρ → Option ν) (rows : List ρ)
    (hstep : ∀ row t k, (step t row).lookup k =
      if key row = some k then value row else t.lookup k) :
    ∃ last : κ → Option ν,
      (∀ k, some k ∈ rows.map key → ∃ row ∈ rows, key row = some k ∧ value row = last k) ∧
      ∀ (t : Table κ ν) k, (rows.foldl step t).lookup k =
        if some k ∈ rows.map key then last k else t.lookup k := by
  induction rows with
  | nil => exact ⟨fun _ => none, by simp, by simp⟩
  | cons row rows ih =>
    obtain ⟨last, hrow, hlast⟩ := ih
    refine ⟨fun k => if some k ∈ rows.map key then last k else value row, fun k hk => ?_,
      fun t k => ?_⟩
    · by_cases hlater : some k ∈ rows.map key
      · obtain ⟨row', hmem, hkey, hvalue⟩ := hrow k hlater
        exact ⟨row', List.mem_cons_of_mem _ hmem, hkey, by simp [hlater, hvalue]⟩
      · refine ⟨row, List.mem_cons_self, ?_, by simp [hlater]⟩
        rw [List.map_cons, List.mem_cons] at hk
        exact (hk.resolve_right hlater).symm
    · rw [List.foldl_cons, hlast, hstep]
      grind

lemma lookup_foldl_insert_cases (rows : List (κ × ν)) (t : Table κ ν) (k : κ) :
    (∃ v, (k, v) ∈ rows ∧
        (rows.foldl (fun t row => t.insert row.1 row.2) t).lookup k = some v) ∨
      ((∀ v, (k, v) ∉ rows) ∧
        (rows.foldl (fun t row => t.insert row.1 row.2) t).lookup k = t.lookup k) := by
  induction rows generalizing t with
  | nil => exact .inr ⟨by simp, rfl⟩
  | cons row rows ih =>
    rcases ih (t.insert row.1 row.2) with ⟨v, hv, hlookup⟩ | ⟨hnone, hlookup⟩
    · exact .inl ⟨v, List.mem_cons_of_mem _ hv, hlookup⟩
    · rw [List.foldl_cons, hlookup, lookup_insert_eq_ite]
      by_cases hk : k = row.1
      · exact .inl ⟨row.2, by simp [hk], by simp [hk]⟩
      · refine .inr ⟨fun v hv => ?_, by simp [hk]⟩
        rcases List.mem_cons.mp hv with heq | hv
        · exact hk (congrArg Prod.fst heq)
        · exact hnone v hv

lemma mem_keys_keep {wanted : κ → ν → Bool} :
    k ∈ (t.keep wanted).keys ↔ ∃ v, t.lookup k = some v ∧ wanted k v = true := by
  rw [← AList.mem_keys, ← AList.lookup_isSome, lookup_keep, Option.isSome_iff_exists]
  simp only [Option.filter_eq_some_iff]

def sumWith (t : Table κ ν) (weight : κ → ν → Nat) : Nat :=
  (t.entries.map fun row => weight row.1 row.2).sum

variable {weight weight' : κ → ν → Nat}

lemma sumWith_insert (v' : ν) :
    sumWith (t.insert k v') weight = weight k v' + sumWith (t.erase k) weight := by
  rw [sumWith, sumWith, AList.entries_insert]
  rfl

lemma sumWith_erase :
    t.sumWith weight = ((t.lookup k).elim 0 (weight k)) + sumWith (t.erase k) weight := by
  cases h : t.lookup k with
  | none =>
    have hmem : k ∉ t := AList.lookup_eq_none.mp h
    have herase : (t.erase k).entries = t.entries :=
      List.kerase_of_notMem_keys (fun hk => hmem (AList.mem_keys.mpr hk))
    rw [sumWith, sumWith, herase]
    simp
  | some w =>
    have hmem : k ∈ t.entries.keys := List.mem_keys_of_mem (lookup_eq_some.mp h)
    obtain ⟨w', before, after, _, hsplit, herase⟩ := List.exists_of_kerase hmem
    have hw : w' = w := by
      have hrow : (⟨k, w'⟩ : Σ _ : κ, ν) ∈ t.entries := by simp [hsplit]
      rw [← lookup_eq_some, h] at hrow
      exact (Option.some.inj hrow).symm
    have herase' : (t.erase k).entries = before ++ after := herase
    rw [sumWith, sumWith, herase', hsplit, hw]
    simp only [List.map_append, List.map_cons, List.sum_append, List.sum_cons, Option.elim_some]
    omega

lemma sumWith_eq_finsum : t.sumWith weight = ∑ᶠ k, (t.lookup k).elim 0 (weight k) := by
  have hsupport : (Function.support fun k => (t.lookup k).elim 0 (weight k)) ⊆
      (t.entries.keys.toFinset : Set κ) := by
    intro k hk
    cases hlookup : t.lookup k with
    | none => simp [hlookup] at hk
    | some v => simpa using List.mem_keys_of_mem (lookup_eq_some.mp hlookup)
  rw [finsum_eq_sum_of_support_subset _ hsupport, List.sum_toFinset _ t.nodupKeys, sumWith,
    List.keys, List.map_map]
  refine congrArg List.sum (List.map_congr_left fun row hrow => ?_)
  simp [lookup_eq_some.mpr hrow]

lemma sumWith_eq_of_lookup {t' : Table κ ν} (keys : Equiv.Perm κ)
    (h : ∀ k, (t'.lookup (keys k)).elim 0 (weight' (keys k)) = (t.lookup k).elim 0 (weight k)) :
    t'.sumWith weight' = t.sumWith weight := by
  rw [sumWith_eq_finsum, sumWith_eq_finsum,
    ← finsum_comp_equiv keys (f := fun k => (t'.lookup k).elim 0 (weight' k))]
  exact finsum_congr h

lemma sumWith_mono (h : ∀ k v, t.lookup k = some v → weight k v ≤ weight' k v) :
    t.sumWith weight ≤ t.sumWith weight' := by
  rw [sumWith, sumWith]
  refine List.sum_le_sum fun row hrow => ?_
  exact h row.1 row.2 (lookup_eq_some.mpr hrow)

end Table
