import Mathlib.Algebra.GroupWithZero.Nat
import Mathlib.Algebra.BigOperators.Group.List.Basic
import Mathlib.Data.List.Basic
/-!
# Arithmetic at a fixed width

Unsigned sums of a fixed width, where an overflow either stops the program or
wraps around. A sum below the bound is the sum of the numbers, whichever of
the two an overflow would do.
-/

namespace VcOperator

namespace Machine

/-- What becomes of an overflow. -/
inductive Overflow where
  | stops | wraps
  deriving DecidableEq, Repr

variable {w : ℕ} {a b : BitVec w}

/-- A checked sum. -/
def add (mode : Overflow) (a b : BitVec w) : Option (BitVec w) :=
  if a.toNat + b.toNat < 2 ^ w then some (a + b)
  else
    match mode with
    | .stops => none
    | .wraps => some (a + b)

/-- The sum of a list, from left to right. -/
def sum (mode : Overflow) (xs : List (BitVec w)) : Option (BitVec w) := xs.foldlM (add mode) 0

/-- A quotient: there is none by zero. -/
def div (a b : BitVec w) : Option (BitVec w) := if b = 0 then none else some (a / b)

/-- Below the bound the sum is the sum. -/
theorem add_eq_some (mode : Overflow) (h : a.toNat + b.toNat < 2 ^ w) :
    ∃ c, add mode a b = some c ∧ c.toNat = a.toNat + b.toNat :=
  ⟨a + b, if_pos h, BitVec.toNat_add_of_lt h⟩

theorem foldlM_add_eq_some (mode : Overflow) (xs : List (BitVec w))
    (h : a.toNat + (xs.map BitVec.toNat).sum < 2 ^ w) :
    ∃ c, xs.foldlM (add mode) a = some c ∧ c.toNat = a.toNat + (xs.map BitVec.toNat).sum := by
  induction xs generalizing a with
  | nil => exact ⟨a, rfl, by simp⟩
  | cons x xs ih =>
    rw [List.map_cons, List.sum_cons, ← add_assoc] at h
    have hfirst : a.toNat + x.toNat < 2 ^ w := by omega
    obtain ⟨b, hb, hnat⟩ := add_eq_some mode hfirst
    rw [← hnat] at h
    obtain ⟨c, hc, htotal⟩ := ih h
    refine ⟨c, ?_, ?_⟩
    · rw [List.foldlM_cons, hb]
      exact hc
    · rw [htotal, hnat, List.map_cons, List.sum_cons, add_assoc]

/-- **A list below the bound** has its sum. -/
theorem sum_eq_some (mode : Overflow) {xs : List (BitVec w)}
    (h : (xs.map BitVec.toNat).sum < 2 ^ w) :
    ∃ c, sum mode xs = some c ∧ c.toNat = (xs.map BitVec.toNat).sum := by
  obtain ⟨c, hc, hnat⟩ := foldlM_add_eq_some mode (a := 0) xs (by simpa using h)
  exact ⟨c, hc, by simpa using hnat⟩

/-- A quotient by what is not zero. -/
theorem div_eq_some (h : b.toNat ≠ 0) : ∃ c, div a b = some c ∧ c.toNat = a.toNat / b.toNat := by
  refine ⟨a / b, if_neg ?_, BitVec.toNat_udiv⟩
  rintro rfl
  exact h BitVec.toNat_zero

end Machine

end VcOperator
