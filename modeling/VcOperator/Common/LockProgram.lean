import VcOperator.Common.Run
import Mathlib.Logic.Function.Basic
/-!
# Programs around one lock

Tasks that share a lock which is not reentrant and whose guard is dropped
at the end of the block it is a local of. `Prog` is the language such a
task is written in, as far as the lock can tell: blocks that hold the
guard, branches, loops, calls, and the three ways to leave early, each of
which drops the guards of the blocks it leaves. `State.step` runs one
task for one step, and a task that wants the lock while anyone has it,
itself included, does not move.

The one rule here is `not_selfBlocked`. Where no block that holds the
guard contains another (`Prog.flat`), no task ever waits for the lock
while it owns it. Nothing here knows what the tasks do.
-/

namespace VcOperator

namespace LockProgram

/-- The programs of the tasks. `σ` is the data their tests read. -/
inductive Prog (σ : Type) where
  /-- Code that neither takes nor drops a guard; it may wait. -/
  | act (f : σ → σ)
  | seq (p q : Prog σ)
  /-- A branch the environment decides. -/
  | choose (p q : Prog σ)
  /-- A branch the data decide. -/
  | test (b : σ → Bool) (p q : Prog σ)
  /-- A block that takes the lock first and has its guard as a local. -/
  | locked (p : Prog σ)
  | loop (p : Prog σ)
  /-- The body of a function that is called. -/
  | call (p : Prog σ)
  | brk
  | cont
  | ret

/-- What a task has still to do. -/
inductive Item (σ : Type) where
  | prog (p : Prog σ)
  /-- The end of a block that has the guard. -/
  | release
  /-- The end of a loop's body. -/
  | again (p : Prog σ)
  /-- The end of a function's body. -/
  | callEnd

/-- What a step does with the guard. -/
inductive Change where
  | keep
  | take
  | drop
  deriving DecidableEq

variable {ι σ : Type}

namespace Prog

/-- Code that does nothing to the data. -/
def work : Prog σ := act id

/-- Statements one after another. -/
def block (ps : List (Prog σ)) : Prog σ := ps.foldr seq work

/-- A statement that may be skipped. -/
def may (p : Prog σ) : Prog σ := choose p work

/-- No block of the program takes the lock. -/
def lockFree : Prog σ → Bool
  | act _ | brk | cont | ret => true
  | seq p q | choose p q | test _ p q => p.lockFree && q.lockFree
  | locked _ => false
  | loop p | call p => p.lockFree

/-- No block that takes the lock contains another. The first branch of a
test is left out: it is for a run to say that no test comes out true. -/
def flat : Prog σ → Bool
  | act _ | brk | cont | ret => true
  | seq p q | choose p q => p.flat && q.flat
  | test _ _ q => q.flat
  | locked p => p.lockFree
  | loop p | call p => p.flat

end Prog

namespace Item

/-- Nothing of the item takes the lock, or drops a guard. -/
def lockFree : Item σ → Bool
  | prog p | again p => p.lockFree
  | release => false
  | callEnd => true

/-- The item may be done without a guard. -/
def flat : Item σ → Bool
  | prog p | again p => p.flat
  | release => false
  | callEnd => true

def isRelease : Item σ → Bool
  | release => true
  | _ => false

def isAgain : Item σ → Bool
  | again _ => true
  | _ => false

def isCallEnd : Item σ → Bool
  | callEnd => true
  | _ => false

end Item

open Prog Item

/-! ## One step of one task -/

/-- Leaving early, up to the first item that `stop` accepts. -/
def leave (stop : Item σ → Bool) : List (Item σ) → Change × List (Item σ)
  | [] => (.keep, [])
  | x :: k =>
    if stop x then (.keep, x :: k)
    else (if x.isRelease then .drop else (leave stop k).1, (leave stop k).2)

/-- One step of a task: the data after it, what it does with the guard,
and what is still to do. `none` means that the task has ended, or waits
for the lock. -/
def stepTask (free choice : Bool) (d : σ) :
    List (Item σ) → Option (σ × Change × List (Item σ))
  | [] => none
  | .prog (.act f) :: k => some (f d, .keep, k)
  | .prog (.seq p q) :: k => some (d, .keep, .prog p :: .prog q :: k)
  | .prog (.choose p q) :: k => some (d, .keep, .prog (if choice then p else q) :: k)
  | .prog (.test b p q) :: k => some (d, .keep, .prog (if b d then p else q) :: k)
  | .prog (.locked p) :: k => if free then some (d, .take, .prog p :: .release :: k) else none
  | .prog (.loop p) :: k => some (d, .keep, .prog p :: .again p :: k)
  | .prog (.call p) :: k => some (d, .keep, .prog p :: .callEnd :: k)
  | .prog .brk :: k => some (d, (leave isAgain k).1, (leave isAgain k).2.tail)
  | .prog .cont :: k => some (d, (leave isAgain k).1, (leave isAgain k).2)
  | .prog .ret :: k => some (d, (leave isCallEnd k).1, (leave isCallEnd k).2.tail)
  | .release :: k => some (d, .drop, k)
  | .again p :: k => some (d, .keep, .prog p :: .again p :: k)
  | .callEnd :: k => some (d, .keep, k)

/-- The tasks, and the lock. -/
structure State (ι σ : Type) where
  data : σ
  owner : Option ι
  todo : ι → List (Item σ)

namespace State

variable [DecidableEq ι]

/-- **One step**: a task, and the way it takes where the environment decides. -/
def step (s : State ι σ) (l : ι × Bool) : Option (State ι σ) :=
  (stepTask s.owner.isNone l.2 s.data (s.todo l.1)).map fun r =>
    { data := r.1
      owner := match r.2.1 with
        | .keep => s.owner
        | .take => some l.1
        | .drop => none
      todo := Function.update s.todo l.1 r.2.2 }

/-- A task waits for the lock, and owns it. -/
def selfBlocked (s : State ι σ) (i : ι) : Bool :=
  match s.todo i with
  | .prog (.locked _) :: _ => decide (s.owner = some i)
  | _ => false

/-- The step is not a test that comes out true. -/
def testFails (s : State ι σ) (l : ι × Bool) : Bool :=
  match s.todo l.1 with
  | .prog (.test b _ _) :: _ => !b s.data
  | _ => true

end State

/-! ## The discipline -/

/-- A task that has no guard, and whose blocks do not nest. -/
def Outside (k : List (Item σ)) : Prop := ∀ x ∈ k, x.flat = true

/-- A task inside one block that has the guard. -/
def Inside (k : List (Item σ)) : Prop :=
  ∃ above below, k = above ++ .release :: below ∧ (∀ x ∈ above, x.lockFree = true) ∧
    Outside below

variable {k k' : List (Item σ)} {x : Item σ}

@[simp] theorem outside_cons : Outside (x :: k) ↔ x.flat = true ∧ Outside k :=
  List.forall_mem_cons

theorem Outside.tail (h : Outside k) : Outside k.tail := fun x hx => h x (List.mem_of_mem_tail hx)

theorem inside_release (h : Outside k) : Inside (.release :: k) :=
  ⟨[], k, rfl, by simp, h⟩

theorem Inside.cons (hx : x.lockFree = true) (h : Inside k) : Inside (x :: k) := by
  obtain ⟨above, below, rfl, habove, hbelow⟩ := h
  exact ⟨x :: above, below, rfl, List.forall_mem_cons.2 ⟨hx, habove⟩, hbelow⟩

/-- A task inside a block is at its end, or at an item that does not take the lock. -/
theorem inside_cases (h : Inside (x :: k)) :
    x = .release ∧ Outside k ∨ x.lockFree = true ∧ Inside k := by
  obtain ⟨above, below, heq, habove, hbelow⟩ := h
  cases above with
  | nil =>
    cases heq
    exact .inl ⟨rfl, hbelow⟩
  | cons y above =>
    cases heq
    obtain ⟨hx, hrest⟩ := List.forall_mem_cons.1 habove
    exact .inr ⟨hx, above, below, rfl, hrest, hbelow⟩

theorem inside_cons_of_ne (hx : x ≠ .release) (h : Inside (x :: k)) :
    x.lockFree = true ∧ Inside k :=
  (inside_cases h).resolve_left fun h => hx h.1

/-- Leaving early without a guard drops none. -/
theorem outside_leave {stop : Item σ → Bool} (h : Outside k) :
    (leave stop k).1 = .keep ∧ Outside (leave stop k).2 := by
  induction k with
  | nil => exact ⟨rfl, h⟩
  | cons x k ih =>
    obtain ⟨hx, hk⟩ := outside_cons.1 h
    rw [leave]
    split
    · exact ⟨rfl, h⟩
    · cases x with
      | release => cases hx
      | prog _ | again _ | callEnd => exact ih hk

/-- Leaving early with a guard either stays in its block or drops it. -/
theorem inside_leave {stop : Item σ → Bool} (h : Inside k) :
    (leave stop k).1 = .keep ∧ (∃ x k', (leave stop k).2 = x :: k' ∧ stop x = true ∧
      Inside (x :: k')) ∨ (leave stop k).1 = .drop ∧ Outside (leave stop k).2 := by
  induction k with
  | nil =>
    obtain ⟨above, below, heq, -⟩ := h
    cases above <;> cases heq
  | cons x k ih =>
    rw [leave]
    split
    · rename_i hx
      exact .inl ⟨rfl, x, k, rfl, hx, h⟩
    · rcases inside_cases h with ⟨rfl, hk⟩ | ⟨hx, hk⟩
      · exact .inr ⟨rfl, (outside_leave hk).2⟩
      · cases x with
        | release => cases hx
        | prog _ | again _ | callEnd => exact ih hk

/-- **A step of a task that has no guard.** -/
theorem outside_stepTask {free choice : Bool} {d d' : σ} {c : Change} (h : Outside k)
    (htest : ∀ b p q rest, k = .prog (.test b p q) :: rest → b d = false)
    (hstep : stepTask free choice d k = some (d', c, k')) :
    c = .keep ∧ Outside k' ∨ c = .take ∧ free = true ∧ Inside k' := by
  cases k with
  | nil => cases hstep
  | cons x k =>
    obtain ⟨hx, hk⟩ := outside_cons.1 h
    cases x with
    | release => cases hx
    | again p =>
      cases hstep
      exact .inl ⟨rfl, outside_cons.2 ⟨hx, h⟩⟩
    | callEnd =>
      cases hstep
      exact .inl ⟨rfl, hk⟩
    | prog p =>
      cases p with
      | act f =>
        cases hstep
        exact .inl ⟨rfl, hk⟩
      | seq p q =>
        cases hstep
        obtain ⟨hp, hq⟩ := Bool.and_eq_true_iff.1 hx
        exact .inl ⟨rfl, outside_cons.2 ⟨hp, outside_cons.2 ⟨hq, hk⟩⟩⟩
      | choose p q =>
        cases hstep
        obtain ⟨hp, hq⟩ := Bool.and_eq_true_iff.1 hx
        refine .inl ⟨rfl, outside_cons.2 ⟨?_, hk⟩⟩
        cases choice
        · exact hq
        · exact hp
      | test b p q =>
        cases hstep
        rw [htest b p q k rfl]
        exact .inl ⟨rfl, outside_cons.2 ⟨hx, hk⟩⟩
      | locked p =>
        simp only [stepTask] at hstep
        split at hstep
        · rename_i hfree
          cases hstep
          exact .inr ⟨rfl, hfree, (inside_release hk).cons hx⟩
        · cases hstep
      | loop p =>
        cases hstep
        exact .inl ⟨rfl, outside_cons.2 ⟨hx, outside_cons.2 ⟨hx, hk⟩⟩⟩
      | call p =>
        cases hstep
        exact .inl ⟨rfl, outside_cons.2 ⟨hx, outside_cons.2 ⟨rfl, hk⟩⟩⟩
      | brk | ret =>
        cases hstep
        exact .inl ⟨(outside_leave hk).1, (outside_leave hk).2.tail⟩
      | cont =>
        cases hstep
        exact .inl (outside_leave hk)

/-- **A step of a task that has the guard.** It does not take the lock again. -/
theorem inside_stepTask {free choice : Bool} {d d' : σ} {c : Change} (h : Inside k)
    (hstep : stepTask free choice d k = some (d', c, k')) :
    c = .keep ∧ Inside k' ∨ c = .drop ∧ Outside k' := by
  cases k with
  | nil => cases hstep
  | cons x k =>
    rcases inside_cases h with ⟨rfl, hk⟩ | ⟨hx, hk⟩
    · cases hstep
      exact .inr ⟨rfl, hk⟩
    have hleave : ∀ stop : Item σ → Bool, stop .release = false →
        (leave stop k).1 = .keep ∧ Inside (leave stop k).2.tail ∨
          (leave stop k).1 = .drop ∧ Outside (leave stop k).2.tail := by
      intro stop hstop
      rcases inside_leave hk with ⟨hkeep, y, k', heq, hy, hin⟩ | ⟨hdrop, hout⟩
      · refine .inl ⟨hkeep, ?_⟩
        rw [heq]
        exact (inside_cons_of_ne (fun hr => by rw [hr, hstop] at hy; cases hy) hin).2
      · exact .inr ⟨hdrop, hout.tail⟩
    cases x with
    | release => cases hx
    | again p =>
      cases hstep
      exact .inl ⟨rfl, h.cons hx⟩
    | callEnd =>
      cases hstep
      exact .inl ⟨rfl, hk⟩
    | prog p =>
      cases p with
      | act f =>
        cases hstep
        exact .inl ⟨rfl, hk⟩
      | seq p q =>
        cases hstep
        obtain ⟨hp, hq⟩ := Bool.and_eq_true_iff.1 hx
        exact .inl ⟨rfl, (hk.cons (x := .prog q) hq).cons hp⟩
      | choose p q =>
        cases hstep
        obtain ⟨hp, hq⟩ := Bool.and_eq_true_iff.1 hx
        refine .inl ⟨rfl, hk.cons ?_⟩
        cases choice
        · exact hq
        · exact hp
      | test b p q =>
        cases hstep
        obtain ⟨hp, hq⟩ := Bool.and_eq_true_iff.1 hx
        refine .inl ⟨rfl, hk.cons ?_⟩
        cases b d
        · exact hq
        · exact hp
      | locked p => cases hx
      | loop p =>
        cases hstep
        exact .inl ⟨rfl, (hk.cons (x := .again p) hx).cons hx⟩
      | call p =>
        cases hstep
        exact .inl ⟨rfl, (hk.cons (x := .callEnd) rfl).cons hx⟩
      | brk =>
        cases hstep
        exact hleave isAgain rfl
      | ret =>
        cases hstep
        exact hleave isCallEnd rfl
      | cont =>
        cases hstep
        rcases inside_leave hk with ⟨hkeep, y, k', heq, -, hin⟩ | hdrop
        · exact .inl ⟨hkeep, heq ▸ hin⟩
        · exact .inr hdrop

/-! ## All tasks -/

variable [DecidableEq ι] {s s' s₀ : State ι σ} {l : ι × Bool}

/-- **The owner is inside a block, and nobody else is.** -/
def State.Disciplined (s : State ι σ) : Prop :=
  ∀ i, if s.owner = some i then Inside (s.todo i) else Outside (s.todo i)

theorem State.Disciplined.step (hs : s.Disciplined) (hok : s.testFails l = true)
    (h : s.step l = some s') : s'.Disciplined := by
  obtain ⟨⟨d, c, k⟩, hstep, rfl⟩ := Option.map_eq_some_iff.1 h
  intro i
  have hl := hs l.1
  have hi := hs i
  rcases eq_or_ne i l.1 with rfl | hne
  · -- the task that moves
    simp only [Function.update_self]
    split at hl
    · rename_i howner
      rcases inside_stepTask hl hstep with ⟨rfl, hin⟩ | ⟨rfl, hout⟩
      · simpa [howner] using hin
      · simpa using hout
    · rename_i howner
      have htest : ∀ b p q rest, s.todo l.1 = .prog (.test b p q) :: rest →
          b s.data = false := by
        intro b p q rest heq
        simpa [State.testFails, heq] using hok
      rcases outside_stepTask hl htest hstep with ⟨rfl, hout⟩ | ⟨rfl, -, hin⟩
      · simpa [howner] using hout
      · simpa using hin
  · -- the others: the lock is taken when it is free, and dropped by its owner
    simp only [Function.update_of_ne hne]
    cases c with
    | keep => exact hi
    | take =>
      have hfree : s.owner = none := by
        split at hl
        · rcases inside_stepTask hl hstep with ⟨hc, -⟩ | ⟨hc, -⟩ <;> cases hc
        · rcases outside_stepTask hl (fun b p q rest heq => by
            simpa [State.testFails, heq] using hok) hstep with ⟨hc, -⟩ | ⟨-, hfree, -⟩
          · cases hc
          · simpa using hfree
      rw [hfree] at hi
      simpa [Ne.symm hne] using hi
    | drop =>
      have howner : s.owner = some l.1 := by
        by_contra howner
        rw [if_neg howner] at hl
        rcases outside_stepTask hl (fun b p q rest heq => by
          simpa [State.testFails, heq] using hok) hstep with ⟨hc, -⟩ | ⟨hc, -⟩ <;> cases hc
      rw [howner] at hi
      simpa [Ne.symm hne] using hi

theorem State.Disciplined.not_selfBlocked (hs : s.Disciplined) (i : ι) :
    s.selfBlocked i = false := by
  rw [State.selfBlocked]
  split
  · rename_i p k heq
    rw [decide_eq_false_iff_not]
    intro howner
    have hi := hs i
    rw [if_pos howner, heq] at hi
    cases (inside_cons_of_ne (by simp) hi).1
  · rfl

/-- **No task waits for a lock it owns**, in a run in which no test comes
out true, of tasks whose blocks do not nest. -/
theorem not_selfBlocked (h : Run.Reach State.step (fun s l => s.testFails l = true) s₀ s)
    (howner : s₀.owner = none) (hflat : ∀ i, Outside (s₀.todo i)) (i : ι) :
    s.selfBlocked i = false := by
  have hs : s.Disciplined := h.invariant (I := State.Disciplined)
    (fun i => by simpa [howner] using hflat i) (fun _ _ _ hok hs hstep => hs.step hok hstep)
  exact hs.not_selfBlocked i

end LockProgram

end VcOperator
