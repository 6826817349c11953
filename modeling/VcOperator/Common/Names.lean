import Mathlib.Data.List.Nodup
import Mathlib.Data.List.Perm.Subperm
import Mathlib.Data.Nat.Find
import Mathlib.Logic.Function.Basic
/-!
# Names made free by counting

A name that is taken is often replaced by the first free one of a row of
numbered names. `firstFree` is that search, over any row and any list of
taken names; a numeral determines its number, so a row that appends it to
a fixed text has no repetitions, and the search ends at a free name.
-/

namespace VcOperator

/-! ## Numerals -/

/-- A decimal numeral determines its number. -/
theorem toString_injective {m n : ℕ} (h : toString m = toString n) : m = n := by
  have hd : Nat.toDigits 10 m = Nat.toDigits 10 n := by
    rw [← Nat.toList_repr, ← Nat.toList_repr, ← Nat.toString_eq_repr, ← Nat.toString_eq_repr, h]
  calc m = Nat.ofDigitChars 10 (Nat.toDigits 10 m) 0 :=
        (Nat.ofDigitChars_toDigits (by decide) (by decide)).symm
    _ = Nat.ofDigitChars 10 (Nat.toDigits 10 n) 0 := by rw [hd]
    _ = n := Nat.ofDigitChars_toDigits (by decide) (by decide)

/-- A numeral holds nothing but digits. -/
theorem notMem_toString {c : Char} (hc : c.isDigit = false) (n : ℕ) :
    c ∉ (toString n).toList := by
  rw [Nat.toString_eq_repr, Nat.toList_repr]
  intro h
  rw [Nat.isDigit_of_mem_toDigits (by decide) (by decide) h] at hc
  cases hc

/-! ## The first free name -/

section FirstFree

variable {α : Type*} [DecidableEq α] {used : List α} {name : ℕ → α} {fuel i j : ℕ}

/-- The first of `name i`, `name (i + 1)`, … that is not in use, where one of the
first `fuel` is free, and else the one after them. -/
def firstFree (used : List α) (name : ℕ → α) : ℕ → ℕ → α
  | 0, i => name i
  | fuel + 1, i => if name i ∈ used then firstFree used name fuel (i + 1) else name i

/-- The search stops at the first free name. -/
theorem firstFree_eq (hused : ∀ k < j, name (i + k) ∈ used) (hfree : name (i + j) ∉ used)
    (hj : j ≤ fuel) : firstFree used name fuel i = name (i + j) := by
  induction j generalizing i fuel with
  | zero =>
    cases fuel with
    | zero => rfl
    | succ fuel => rw [firstFree, if_neg (by simpa using hfree), Nat.add_zero]
  | succ j ih =>
    obtain ⟨fuel, rfl⟩ : ∃ m, fuel = m + 1 := ⟨fuel - 1, by omega⟩
    have hi : name i ∈ used := hused 0 (by omega)
    have hstep : ∀ k, i + 1 + k = i + (k + 1) := fun k => by omega
    have hrest : firstFree used name fuel (i + 1) = name (i + 1 + j) :=
      ih (fun k hk => hstep k ▸ hused (k + 1) (by omega)) (hstep j ▸ hfree) (by omega)
    rw [firstFree, if_pos hi, hrest, hstep]

/-- In a row without repetitions, some name is free. -/
theorem exists_free (hname : Function.Injective name) (used : List α) (i : ℕ) :
    ∃ j ≤ used.length, name (i + j) ∉ used := by
  by_contra hall
  push Not at hall
  have hinj : Function.Injective fun k => name (i + k) := fun k k' h => by
    have := hname h
    omega
  have hnodup : ((List.range (used.length + 1)).map fun k => name (i + k)).Nodup :=
    (List.nodup_range).map hinj
  have hsub : ((List.range (used.length + 1)).map fun k => name (i + k)) ⊆ used := by
    intro a ha
    obtain ⟨k, hk, rfl⟩ := List.mem_map.1 ha
    exact hall k (by have := List.mem_range.1 hk; omega)
  have hlen := (List.subperm_of_subset hnodup hsub).length_le
  rw [List.length_map, List.length_range] at hlen
  omega

/-- What the search finds, given the first free name of the row. -/
theorem firstFree_eq_of_injective (hname : Function.Injective name)
    (hused : ∀ k < j, name (i + k) ∈ used) (hfree : name (i + j) ∉ used) :
    firstFree used name used.length i = name (i + j) := by
  obtain ⟨m, hm, hmfree⟩ := exists_free hname used i
  have hjm : j ≤ m := by
    by_contra hlt
    exact hmfree (hused m (by omega))
  exact firstFree_eq hused hfree (by omega)

/-- In a row without repetitions, the search ends at a free name. -/
theorem firstFree_notMem (hname : Function.Injective name) (used : List α) (i : ℕ) :
    firstFree used name used.length i ∉ used := by
  have hfree : ∃ j, name (i + j) ∉ used :=
    (exists_free hname used i).imp fun j hj => hj.2
  have hfirst : ∀ k < Nat.find hfree, name (i + k) ∈ used :=
    fun k hk => not_not.1 (Nat.find_min hfree hk)
  rw [firstFree_eq_of_injective hname hfirst (Nat.find_spec hfree)]
  exact Nat.find_spec hfree

end FirstFree

end VcOperator
