import Mathlib.Data.List.Nodup
/-!
# The first of each key

A list that takes an element only where it has none of the same key. What is
in it stays where it is, so it keeps the first element of each key, in the
order in which they came.
-/

namespace VcOperator

variable {α κ : Type*} [DecidableEq κ] {key : α → κ} {a b : α} {out elements : List α}

/-- The element is added, if there is none of its key yet. -/
def pushFirst (key : α → κ) (out : List α) (a : α) : List α :=
  if key a ∈ out.map key then out else out ++ [a]

theorem prefix_pushFirst : out <+: pushFirst key out a := by
  unfold pushFirst
  split
  · exact List.prefix_rfl
  · exact List.prefix_append _ _

theorem nodup_pushFirst (h : (out.map key).Nodup) : ((pushFirst key out a).map key).Nodup := by
  unfold pushFirst
  split
  · exact h
  · rename_i hnew
    rw [List.map_append, List.map_singleton, ← List.concat_eq_append]
    exact h.concat hnew

theorem mem_or_eq_of_mem_pushFirst (h : b ∈ pushFirst key out a) : b ∈ out ∨ b = a := by
  unfold pushFirst at h
  split at h
  · exact .inl h
  · exact (List.mem_append.1 h).imp_right List.mem_singleton.1

/-- The key of the element is one of the list. -/
theorem key_mem_pushFirst : key a ∈ (pushFirst key out a).map key := by
  unfold pushFirst
  split
  · assumption
  · exact List.mem_map.2 ⟨a, by simp, rfl⟩

/-! ## Several elements -/

theorem prefix_foldl_pushFirst : out <+: elements.foldl (pushFirst key) out := by
  induction elements generalizing out with
  | nil => exact List.prefix_rfl
  | cons a elements ih => exact prefix_pushFirst.trans ih

theorem nodup_foldl_pushFirst (h : (out.map key).Nodup) :
    ((elements.foldl (pushFirst key) out).map key).Nodup := by
  induction elements generalizing out with
  | nil => exact h
  | cons a elements ih => exact ih (nodup_pushFirst h)

theorem mem_or_mem_of_mem_foldl_pushFirst (h : b ∈ elements.foldl (pushFirst key) out) :
    b ∈ out ∨ b ∈ elements := by
  induction elements generalizing out with
  | nil => exact .inl h
  | cons a elements ih =>
    rcases ih h with hmem | hmem
    · refine (mem_or_eq_of_mem_pushFirst hmem).imp_right ?_
      rintro rfl
      exact List.mem_cons_self
    · exact .inr (List.mem_cons_of_mem _ hmem)

/-- **No key is lost.** -/
theorem key_mem_foldl_pushFirst (h : a ∈ elements) :
    key a ∈ (elements.foldl (pushFirst key) out).map key := by
  induction elements generalizing out with
  | nil => cases h
  | cons b elements ih =>
    rcases List.mem_cons.1 h with rfl | h
    · have hpre : pushFirst key out a <+: elements.foldl (pushFirst key) (pushFirst key out a) :=
        prefix_foldl_pushFirst
      exact (hpre.map key).subset key_mem_pushFirst
    · exact ih h

end VcOperator
