import Mathlib.Data.List.Basic
import Mathlib.Data.Nat.Notation
/-!
# Watch channels

A channel that keeps its last value only. Each value has a version, by the
order in which they were sent, and a receiver is the last version it was
told of: it is told again when there is a later one, and what it takes then
is the value of that moment.
-/

namespace VcOperator

/-- A channel, with all that was sent on it. -/
structure Watch (α : Type) where
  first : α
  sent : List α

namespace Watch

variable {α : Type} (w : Watch α) {n : ℕ}

/-- The version of the value. -/
def version : ℕ := w.sent.length

/-- The value of a version. -/
def get (n : ℕ) : Option α := (w.first :: w.sent)[n]?

/-- A value is sent. -/
def send (a : α) : Watch α := { w with sent := w.sent ++ [a] }

/-- The value of the channel. -/
def value : α := w.sent.getLast?.getD w.first

@[simp] theorem version_send (a : α) : (w.send a).version = w.version + 1 := by
  simp [version, send]

/-- **A version keeps its value.** -/
theorem get_send (a : α) (h : n ≤ w.version) : (w.send a).get n = w.get n := by
  have hlt : n < (w.first :: w.sent).length := by
    rw [List.length_cons]
    exact Nat.lt_succ_of_le h
  rw [get, get, send, ← List.cons_append, List.getElem?_append_left hlt]

theorem isSome_get_iff : (w.get n).isSome ↔ n ≤ w.version := by
  rw [get, version, Option.isSome_iff_ne_none, Ne, List.getElem?_eq_none_iff, List.length_cons]
  omega

theorem get_version : w.get w.version = some w.value := by
  rw [get, version, value]
  cases hsent : w.sent with
  | nil => rfl
  | cons a rest =>
    rw [List.length_cons, List.getElem?_cons_succ, List.getLast?_eq_getElem?, List.length_cons,
      Nat.add_sub_cancel, List.getElem?_eq_getElem (by simp), Option.getD_some]

/-- What has a version was sent, or was there at first. -/
theorem mem_of_get {a : α} (h : w.get n = some a) : a ∈ w.first :: w.sent :=
  List.mem_of_getElem? h

end Watch

end VcOperator
