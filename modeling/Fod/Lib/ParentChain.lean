import Mathlib

/-!
# Chains of parents

`up x y` says that `y` is the parent of `x`.  The relation is grounded when no
chain of parents is infinite.  Giving `b` the new parent `q` keeps it grounded as
long as `b` is not above `q`.
-/

namespace ParentChain

open Relation

variable {α : Type*} {up up' : α → α → Prop} {b q : α}

def Grounded (up : α → α → Prop) : Prop := WellFounded fun y x => up x y

def Reparents (up up' : α → α → Prop) (b q : α) : Prop :=
  ∀ x y, up' x y → up x y ∨ (x = b ∧ y = q)

lemma Grounded.mono (h : Grounded up) (hsub : ∀ x y, up' x y → up x y) : Grounded up' :=
  Subrelation.wf (fun {y x} hup => hsub x y hup) h

lemma Grounded.reparent (h : Grounded up) (hup : Reparents up up' b q)
    (hbelow : ¬ ReflTransGen up q b) : Grounded up' := by
  -- first the nodes that are not below `b`, whose chains have not changed
  have houtside : ∀ x, ¬ ReflTransGen up x b → Acc (fun y x => up' x y) x := by
    intro x
    induction x using h.induction with
    | _ x ih =>
      intro hx
      refine ⟨x, fun y hy => ?_⟩
      obtain hold | ⟨rfl, -⟩ := hup x y hy
      · exact ih y hold fun hyb => hx (hyb.head hold)
      · exact absurd .refl hx
  refine ⟨fun x => ?_⟩
  induction x using h.induction with
  | _ x ih =>
    refine ⟨x, fun y hy => ?_⟩
    obtain hold | ⟨-, rfl⟩ := hup x y hy
    · exact ih y hold
    · exact houtside y hbelow

lemma reach_of_reparents (hup : Reparents up up' b q) {x a : α} (h : ReflTransGen up' x a) :
    ReflTransGen up x a ∨ (ReflTransGen up x b ∧ ReflTransGen up q a) := by
  induction h with
  | refl => exact .inl .refl
  | @tail y z _ hyz ih =>
    obtain hold | ⟨rfl, rfl⟩ := hup y z hyz
    · obtain hxy | ⟨hxb, hqy⟩ := ih
      · exact .inl (hxy.tail hold)
      · exact .inr ⟨hxb, hqy.tail hold⟩
    · obtain hxy | ⟨hxb, -⟩ := ih
      · exact .inr ⟨hxy, .refl⟩
      · exact .inr ⟨hxb, .refl⟩

lemma Grounded.irrefl (h : Grounded up) (x : α) : ¬ TransGen up x x := by
  intro hx
  have hswap : TransGen (fun y x => up x y) x x := transGen_swap.mpr hx
  exact h.transGen.asymmetric x x hswap hswap

def Steps (up : α → α → Prop) (x : α) : Nat → α → Prop
  | 0, a => x = a
  | n + 1, a => ∃ y, Steps up x n y ∧ up y a

lemma Grounded.exists_steps (h : Grounded up) {nodes : List α}
    (hnodes : ∀ x y, up x y → x ∈ nodes) {x a : α} (hreach : ReflTransGen up x a) :
    ∃ n ≤ nodes.length, Steps up x n a := by
  have hvisited : ∃ visited : List α, visited.Nodup ∧
      (∀ z ∈ visited, z ∈ nodes ∧ TransGen up z a) ∧ Steps up x visited.length a := by
    induction hreach with
    | refl => exact ⟨[], List.nodup_nil, by simp, rfl⟩
    | @tail y a _ hya ih =>
      obtain ⟨visited, hnodup, hmem, hsteps⟩ := ih
      refine ⟨y :: visited, ?_, ?_, y, hsteps, hya⟩
      · exact List.nodup_cons.mpr ⟨fun hy => h.irrefl y (hmem y hy).2, hnodup⟩
      · intro z hz
        obtain rfl | hz := List.mem_cons.mp hz
        · exact ⟨hnodes z a hya, .single hya⟩
        · exact ⟨(hmem z hz).1, (hmem z hz).2.tail hya⟩
  obtain ⟨visited, hnodup, hmem, hsteps⟩ := hvisited
  exact ⟨visited.length, (hnodup.subperm fun z hz => (hmem z hz).1).length_le, hsteps⟩

end ParentChain
