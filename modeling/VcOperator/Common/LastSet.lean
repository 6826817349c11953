import Mathlib.Data.List.Basic
/-!
# What was set last

A value that is built by calls, each of which sets some of its parts and
leaves the others. A part is what the last call that sets it has set it to.
-/

namespace VcOperator

variable {σ υ α : Type*}

/-- What the last of the calls that set a part has set it to. -/
def lastSet (sets : υ → Option α) (calls : List υ) : Option α := (calls.filterMap sets).getLast?

theorem lastSet_none (calls : List υ) : lastSet (fun _ => (none : Option α)) calls = none := by
  simp [lastSet]

/-- It has been set by a call. -/
theorem exists_mem_of_lastSet_eq_some {sets : υ → Option α} {calls : List υ} {a : α}
    (h : lastSet sets calls = some a) : ∃ call ∈ calls, sets call = some a :=
  List.mem_filterMap.1 (List.mem_of_getLast? h)

/-- **The last call that sets a part decides**, and else what was there, if anything was. -/
theorem get_foldl_eq_lastSet_or {apply : σ → υ → σ} (get : σ → Option α) (sets : υ → Option α)
    (h : ∀ s call, get (apply s call) = (sets call).or (get s)) (calls : List υ) (s : σ) :
    get (calls.foldl apply s) = (lastSet sets calls).or (get s) := by
  induction calls generalizing s with
  | nil => rfl
  | cons call calls ih =>
    rw [List.foldl_cons, ih, h, lastSet, lastSet]
    cases hcall : sets call with
    | none => rw [List.filterMap_cons_none hcall, Option.none_or]
    | some a =>
      rw [List.filterMap_cons_some hcall, List.getLast?_cons, Option.some_or]
      cases (calls.filterMap sets).getLast? <;> rfl

/-- The same, of a part that is always there. -/
theorem get_foldl_eq_lastSet {apply : σ → υ → σ} (get : σ → α) (sets : υ → Option α)
    (h : ∀ s call, get (apply s call) = (sets call).getD (get s)) (calls : List υ) (s : σ) :
    get (calls.foldl apply s) = (lastSet sets calls).getD (get s) := by
  have hstep : ∀ s call, (some ∘ get) (apply s call) = (sets call).or ((some ∘ get) s) := by
    intro s call
    rw [Function.comp_apply, h]
    cases sets call <;> rfl
  have hsome := get_foldl_eq_lastSet_or (some ∘ get) sets hstep calls s
  cases hlast : lastSet sets calls with
  | none => rw [hlast] at hsome; exact Option.some.inj hsome
  | some a => rw [hlast] at hsome; exact Option.some.inj hsome

end VcOperator
