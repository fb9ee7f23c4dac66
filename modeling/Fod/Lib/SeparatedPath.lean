import Mathlib

/-!
# Absolute paths as texts

A path is a list of components.  Its text has a separator before each component, and
the text of the root is the separator alone.
-/

namespace SeparatedPath

variable {α : Type*} {sep : α} {cs ds : List (List α)} {name : List α}

def Component (sep : α) (name : List α) : Prop := name ≠ [] ∧ sep ∉ name

instance [DecidableEq α] (sep : α) (name : List α) : Decidable (Component sep name) :=
  inferInstanceAs (Decidable (name ≠ [] ∧ sep ∉ name))

def Components (sep : α) (cs : List (List α)) : Prop := ∀ c ∈ cs, Component sep c

def body (sep : α) (cs : List (List α)) : List α := cs.flatMap (sep :: ·)

def render (sep : α) : List (List α) → List α
  | [] => [sep]
  | c :: cs => body sep (c :: cs)

lemma Components.concat (hcs : Components sep cs) (hname : Component sep name) :
    Components sep (cs ++ [name]) := by
  intro c hc
  rcases List.mem_append.mp hc with hc | hc
  · exact hcs c hc
  · rwa [List.mem_singleton.mp hc]

lemma body_concat (cs : List (List α)) (name : List α) :
    body sep (cs ++ [name]) = body sep cs ++ sep :: name := by
  simp [body]

lemma render_of_ne (hne : cs ≠ []) : render sep cs = body sep cs := by
  cases cs with
  | nil => exact absurd rfl hne
  | cons c cs => rfl

lemma render_concat (cs : List (List α)) (name : List α) :
    render sep (cs ++ [name]) = body sep cs ++ sep :: name := by
  rw [render_of_ne (by simp), body_concat]

lemma Component.getLast_ne (h : Component sep name) (hname : name ≠ []) :
    name.getLast hname ≠ sep := fun hlast => h.2 (hlast ▸ List.getLast_mem hname)

lemma body_eq_intercalate (c : List α) (cs : List (List α)) :
    body sep (c :: cs) = sep :: [sep].intercalate (c :: cs) := by
  induction cs generalizing c with
  | nil => simp [body, List.intercalate]
  | cons d cs ih =>
    have hrest := ih d
    simp only [body, List.flatMap_cons] at hrest ⊢
    rw [hrest]
    simp [List.intercalate, List.intersperse]

lemma append_prefix_append {a b u v : List α} (ha : sep ∉ a) (hb : sep ∉ b)
    (h : a ++ sep :: u <+: b ++ v) (hv : v = [] ∨ ∃ v', v = sep :: v') :
    a = b ∧ sep :: u <+: v := by
  induction a generalizing b with
  | nil =>
    cases b with
    | nil => exact ⟨rfl, h⟩
    | cons y b =>
      rw [List.nil_append, List.cons_append, List.cons_prefix_cons] at h
      exact absurd (h.1 ▸ List.mem_cons_self) hb
  | cons x a ih =>
    cases b with
    | nil =>
      rcases hv with rfl | ⟨v', rfl⟩
      · simp at h
      · rw [List.nil_append, List.cons_append, List.cons_prefix_cons] at h
        exact absurd (h.1 ▸ List.mem_cons_self) ha
    | cons y b =>
      rw [List.cons_append, List.cons_append, List.cons_prefix_cons] at h
      obtain ⟨hab, hu⟩ := ih (fun hx => ha (List.mem_cons_of_mem _ hx))
        (fun hy => hb (List.mem_cons_of_mem _ hy)) h.2
      exact ⟨by rw [h.1, hab], hu⟩

lemma body_cases (sep : α) (cs : List (List α)) : body sep cs = [] ∨ ∃ v, body sep cs = sep :: v := by
  cases cs with
  | nil => exact .inl rfl
  | cons c cs => exact .inr ⟨_, rfl⟩

lemma prefix_of_body (hcs : Components sep cs) (hds : Components sep ds)
    (h : body sep cs ++ [sep] <+: body sep ds) : cs <+: ds := by
  induction cs generalizing ds with
  | nil => exact List.nil_prefix
  | cons c cs ih =>
    cases ds with
    | nil => simp [body] at h
    | cons d ds =>
      have hrest : ∃ u, body sep cs ++ [sep] = sep :: u := by
        rcases body_cases sep cs with hnil | ⟨v, hv⟩
        · exact ⟨[], by rw [hnil]; rfl⟩
        · exact ⟨v ++ [sep], by rw [hv]; rfl⟩
      obtain ⟨u, hu⟩ := hrest
      have htail : c ++ sep :: u <+: d ++ body sep ds := by
        simp only [body, List.flatMap_cons, List.cons_append, List.append_assoc,
          List.cons_prefix_cons, true_and] at h
        rw [← hu]
        exact h
      obtain ⟨rfl, hbelow⟩ := append_prefix_append (hcs c List.mem_cons_self).2
        (hds d List.mem_cons_self).2 htail (body_cases sep ds)
      rw [List.cons_prefix_cons]
      refine ⟨rfl, ih (fun e he => hcs e (List.mem_cons_of_mem _ he))
        (fun e he => hds e (List.mem_cons_of_mem _ he)) ?_⟩
      rwa [hu]

section Texts

variable [DecidableEq α]

def trimEnd (sep : α) (text : List α) : List α := text.rdropWhile (· == sep)

def join (sep : α) (parent name : List α) : List α :=
  if parent = [sep] then sep :: name else trimEnd sep parent ++ sep :: name

def rsplitOnce (sep : α) (text : List α) : Option (List α × List α) :=
  let rest := text.rdropWhile (· != sep)
  if rest = [] then none else some (rest.dropLast, text.rtakeWhile (· != sep))

def split (sep : α) (text : List α) : List (List α) :=
  ((trimEnd sep text).dropWhile (· == sep)).splitOn sep

lemma trimEnd_body (hcs : Components sep cs) : trimEnd sep (body sep cs) = body sep cs := by
  rw [trimEnd, List.rdropWhile_eq_self_iff]
  intro hne
  rcases List.eq_nil_or_concat' cs with rfl | ⟨init, name, rfl⟩
  · exact absurd rfl hne
  · have hname := hcs name (by simp)
    have hlast : (body sep (init ++ [name])).getLast hne = name.getLast hname.1 := by
      simp only [body_concat]
      rw [List.getLast_append_of_ne_nil _ (by simp), List.getLast_cons hname.1]
    rw [hlast]
    simpa using hname.getLast_ne hname.1

lemma trimEnd_render (hcs : Components sep cs) : trimEnd sep (render sep cs) = body sep cs := by
  cases cs with
  | nil => simp [render, trimEnd, body]
  | cons c cs => exact trimEnd_body hcs

lemma body_ne_root (hcs : Components sep cs) : body sep cs ≠ [sep] := by
  intro heq
  have htrim := trimEnd_body hcs
  rw [heq] at htrim
  simp [trimEnd] at htrim

lemma join_render (hcs : Components sep cs) (name : List α) :
    join sep (render sep cs) name = render sep (cs ++ [name]) := by
  rw [render_concat, join]
  by_cases hnil : cs = []
  · simp [hnil, render, body]
  · rw [if_neg, trimEnd_render hcs]
    rw [render_of_ne hnil]
    exact body_ne_root hcs

lemma rsplitOnce_concat (parent : List α) (hname : sep ∉ name) :
    rsplitOnce sep (parent ++ sep :: name) = some (parent, name) := by
  have hall : ∀ x ∈ name.reverse, (x != sep) = true := by
    intro x hx
    rw [bne_iff_ne]
    rintro rfl
    exact hname (List.mem_reverse.mp hx)
  have hdrop : (parent ++ sep :: name).rdropWhile (· != sep) = parent ++ [sep] := by
    rw [List.rdropWhile, List.reverse_append, List.reverse_cons, List.append_assoc,
      List.dropWhile_append_of_pos hall]
    simp
  have htake : (parent ++ sep :: name).rtakeWhile (· != sep) = name := by
    rw [List.rtakeWhile, List.reverse_append, List.reverse_cons, List.append_assoc,
      List.takeWhile_append_of_pos hall]
    simp
  simp [rsplitOnce, hdrop, htake]

lemma split_render (hcs : Components sep cs) (hne : cs ≠ []) : split sep (render sep cs) = cs := by
  rw [split, trimEnd_render hcs]
  cases cs with
  | nil => exact absurd rfl hne
  | cons c cs =>
    have hc := hcs c List.mem_cons_self
    have hhead : ([sep].intercalate (c :: cs)).dropWhile (· == sep) = [sep].intercalate (c :: cs) := by
      obtain ⟨x, c', rfl⟩ := List.exists_cons_of_ne_nil hc.1
      have hx : x ≠ sep := fun hx => hc.2 (hx ▸ List.mem_cons_self)
      cases cs <;> simp [List.intercalate, List.intersperse, hx]
    rw [body_eq_intercalate, List.dropWhile_cons, if_pos (by simp), hhead]
    exact List.splitOn_intercalate sep (fun d hd => (hcs d hd).2) hne

lemma render_injective (hcs : Components sep cs) (hds : Components sep ds)
    (h : render sep cs = render sep ds) : cs = ds := by
  have hbody : body sep cs = body sep ds := by
    rw [← trimEnd_render hcs, h, trimEnd_render hds]
  by_cases hc : cs = []
  · cases ds with
    | nil => exact hc
    | cons d ds => simp [hc, body] at hbody
  · by_cases hd : ds = []
    · cases cs with
      | nil => exact absurd rfl hc
      | cons c cs => simp [hd, body] at hbody
    · rw [← split_render hcs hc, h, split_render hds hd]

end Texts

end SeparatedPath
