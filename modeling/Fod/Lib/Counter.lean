import Mathlib

/-!
# Counters of 64 bits

The arithmetic of unsigned machine words that the modelled code asks for by name.
-/

namespace Counter

def u64Max : Nat := 2 ^ 64 - 1

def saturatingAdd (a b : Nat) : Nat := min (a + b) u64Max

def saturatingMul (a b : Nat) : Nat := min (a * b) u64Max

def divCeil (a b : Nat) : Nat := if 0 < a % b then a / b + 1 else a / b

def wrappingAdd (a b : Nat) : Nat := (a + b) % 2 ^ 64

def checkedAdd (a b : Nat) : Option Nat := if a + b ≤ u64Max then some (a + b) else none

def checkedSub (a b : Nat) : Option Nat := if b ≤ a then some (a - b) else none

lemma saturatingAdd_one_of_lt {n : Nat} (h : n < u64Max) : saturatingAdd n 1 = n + 1 :=
  Nat.min_eq_left h

lemma saturatingAdd_of_le {a b : Nat} (h : a + b ≤ u64Max) : saturatingAdd a b = a + b :=
  Nat.min_eq_left h

lemma le_mul_divCeil (a : Nat) {b : Nat} (hb : 0 < b) : a ≤ b * divCeil a b := by
  have hdiv := Nat.div_add_mod a b
  have hmod := Nat.mod_lt a hb
  unfold divCeil
  split
  next =>
    rw [Nat.mul_add, Nat.mul_one]
    omega
  next => omega

end Counter
