import Mathlib

/-!
# Reachability along a list of edges

A finite directed graph is a list of edges.  `closure` collects what can be reached
from a list of nodes, in rounds that use up the edges they follow, and
`acyclic_append` says when new edges out of one node keep a graph free of cycles.
-/

namespace EdgeClosure

open Relation

variable {α : Type*}

def Edge (edges : List (α × α)) (a b : α) : Prop := (a, b) ∈ edges

def Acyclic (edges : List (α × α)) : Prop := ∀ a, ¬ TransGen (Edge edges) a a

lemma Acyclic.subset {edges edges' : List (α × α)} (h : Acyclic edges) (hsubset : edges' ⊆ edges) :
    Acyclic edges' :=
  fun a hcycle => h a (TransGen.mono (fun _ _ hedge => hsubset hedge) _ _ hcycle)

lemma acyclic_nil : Acyclic ([] : List (α × α)) := by
  intro a hcycle
  obtain ⟨b, hedge, -⟩ := TransGen.head'_iff.mp hcycle
  cases hedge

section Search

variable [DecidableEq α] {edges : List (α × α)} {seen : List α} {n : Nat}

def closure : Nat → List (α × α) → List α → List α
  | 0, _, seen => seen
  | n + 1, edges, seen =>
    let followed := edges.filter fun edge => edge.1 ∈ seen
    if followed.isEmpty then seen
    else closure n (edges.filter fun edge => edge.1 ∉ seen) (seen ++ followed.map Prod.snd)

lemma subset_closure (n : Nat) (edges : List (α × α)) (seen : List α) :
    seen ⊆ closure n edges seen := by
  induction n generalizing edges seen with
  | zero => exact fun _ h => h
  | succ n ih =>
    rw [closure]
    split
    · exact fun _ h => h
    · exact fun a ha => ih _ _ (List.mem_append_left _ ha)

lemma length_unfollowed_lt (h : (edges.filter fun edge => edge.1 ∈ seen) ≠ []) :
    (edges.filter fun edge => edge.1 ∉ seen).length < edges.length := by
  obtain ⟨edge, hedge⟩ := List.exists_mem_of_ne_nil _ h
  obtain ⟨hmem, hseen⟩ := List.mem_filter.mp hedge
  refine List.length_filter_lt_length_iff_exists.mpr ⟨edge, hmem, ?_⟩
  simpa using hseen

lemma closure_closed (hn : edges.length ≤ n) {a b : α} (hedge : (a, b) ∈ edges)
    (ha : a ∈ closure n edges seen) : b ∈ closure n edges seen := by
  induction n generalizing edges seen with
  | zero =>
    rw [List.eq_nil_of_length_eq_zero (Nat.le_zero.mp hn)] at hedge
    cases hedge
  | succ n ih =>
    rw [closure] at ha ⊢
    split at ha
    next hnone =>
      have hfollowed : (a, b) ∈ edges.filter fun edge => edge.1 ∈ seen :=
        List.mem_filter.mpr ⟨hedge, by simpa using ha⟩
      rw [List.isEmpty_iff.mp hnone] at hfollowed
      cases hfollowed
    next hsome =>
      rw [if_neg hsome]
      by_cases hseen : a ∈ seen
      · refine subset_closure _ _ _ (List.mem_append_right _ ?_)
        exact List.mem_map.mpr ⟨(a, b), List.mem_filter.mpr ⟨hedge, by simpa using hseen⟩, rfl⟩
      · have hlt := length_unfollowed_lt (mt List.isEmpty_iff.mpr hsome)
        exact ih (by omega) (List.mem_filter.mpr ⟨hedge, by simpa using hseen⟩) ha

lemma reachable_of_mem_closure {b : α} (hb : b ∈ closure n edges seen) :
    ∃ a ∈ seen, ReflTransGen (Edge edges) a b := by
  induction n generalizing edges seen with
  | zero => exact ⟨b, hb, .refl⟩
  | succ n ih =>
    rw [closure] at hb
    split at hb
    · exact ⟨b, hb, .refl⟩
    obtain ⟨c, hc, hpath⟩ := ih hb
    have hpath : ReflTransGen (Edge edges) c b :=
      ReflTransGen.mono (fun _ _ hedge => (List.mem_filter.mp hedge).1) _ _ hpath
    rcases List.mem_append.mp hc with hc | hc
    · exact ⟨c, hc, hpath⟩
    · obtain ⟨⟨a, c'⟩, hfollowed, rfl⟩ := List.mem_map.mp hc
      obtain ⟨hedge, hseen⟩ := List.mem_filter.mp hfollowed
      exact ⟨a, by simpa using hseen, .head hedge hpath⟩

lemma mem_closure_iff {b : α} :
    b ∈ closure edges.length edges seen ↔ ∃ a ∈ seen, ReflTransGen (Edge edges) a b := by
  refine ⟨reachable_of_mem_closure, ?_⟩
  rintro ⟨a, ha, hpath⟩
  induction hpath with
  | refl => exact subset_closure _ _ _ ha
  | tail _ hedge ih => exact closure_closed (Nat.le_refl _) hedge ih

end Search

section Append

variable {edges new : List (α × α)} {w : α}

lemma path_append (hnew : ∀ edge ∈ new, edge.1 = w) {a b : α}
    (hpath : TransGen (Edge (edges ++ new)) a b) : TransGen (Edge edges) a b ∨
      ∃ edge ∈ new, ReflTransGen (Edge (edges ++ new)) a w ∧
        ReflTransGen (Edge (edges ++ new)) edge.2 b := by
  induction hpath with
  | single hedge =>
    rcases List.mem_append.mp hedge with hold | hedge
    · exact .inl (.single hold)
    · obtain rfl := hnew _ hedge
      exact .inr ⟨_, hedge, .refl, .refl⟩
  | @tail b c hpath hedge ih =>
    rcases ih with hold | ⟨edge, hmem, hto, hfrom⟩
    · rcases List.mem_append.mp hedge with holdEdge | hedge
      · exact .inl (hold.tail holdEdge)
      · obtain rfl := hnew _ hedge
        exact .inr ⟨_, hedge, hpath.to_reflTransGen, .refl⟩
    · exact .inr ⟨edge, hmem, hto, hfrom.tail hedge⟩

lemma cycle_append_iff (hacyclic : Acyclic edges) (hnew : ∀ edge ∈ new, edge.1 = w) :
    TransGen (Edge (edges ++ new)) w w ↔
      ∃ b ∈ new.map Prod.snd, ReflTransGen (Edge (edges ++ new)) b w := by
  constructor
  · intro hcycle
    rcases path_append hnew hcycle with hold | ⟨edge, hmem, -, hback⟩
    · exact absurd hold (hacyclic w)
    · exact ⟨edge.2, List.mem_map_of_mem hmem, hback⟩
  · rintro ⟨b, hb, hback⟩
    obtain ⟨⟨a, b⟩, hmem, rfl⟩ := List.mem_map.mp hb
    obtain rfl := hnew _ hmem
    exact .head' (List.mem_append_right _ hmem) hback

lemma acyclic_append (hacyclic : Acyclic edges) (hnew : ∀ edge ∈ new, edge.1 = w)
    (hfree : ¬ TransGen (Edge (edges ++ new)) w w) : Acyclic (edges ++ new) := by
  intro a hcycle
  rcases path_append hnew hcycle with hold | ⟨edge, hmem, hto, hfrom⟩
  · exact hacyclic a hold
  · refine hfree ((cycle_append_iff hacyclic hnew).mpr ⟨edge.2, List.mem_map_of_mem hmem, ?_⟩)
    exact hfrom.trans hto

end Append

end EdgeClosure
