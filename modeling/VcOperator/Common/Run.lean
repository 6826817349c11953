import Mathlib.Data.List.Basic
/-!
# Runs of a labelled step function

A system is a partial step function `step : σ → ℓ → Option σ`: at a state
a label either is not enabled or leads to one state. This file has the
runs of such a function, the states they reach, the invariant rule, and
the rule for two runs in lockstep. Nothing here knows what the states
are.

`Reach step ok s₀` carries a condition `ok` on the steps of the run, read
at the state *before* the step. An unconditional run is the case
`fun _ _ => True`, and a conditional one embeds in it (`Reach.forget`).
-/

namespace VcOperator

namespace Run

variable {σ ℓ : Type*} {step : σ → ℓ → Option σ} {ok ok' : σ → ℓ → Prop} {s₀ s s' : σ}

/-- The state a list of labels leads to, where every one of them is enabled. -/
def exec (step : σ → ℓ → Option σ) : σ → List ℓ → Option σ
  | s, [] => some s
  | s, l :: ls =>
    match step s l with
    | some s' => exec step s' ls
    | none => none

/-- **The states a run reaches**, when each of its steps meets `ok` at the
state it is taken from. -/
inductive Reach (step : σ → ℓ → Option σ) (ok : σ → ℓ → Prop) (s₀ : σ) : σ → Prop
  | init : Reach step ok s₀ s₀
  | step {s s' : σ} {l : ℓ} :
      Reach step ok s₀ s → ok s l → step s l = some s' → Reach step ok s₀ s'

/-- The condition of an unconditional run. -/
abbrev Any : σ → ℓ → Prop := fun _ _ => True

namespace Reach

/-- **The invariant rule.** What holds at the start and is kept by every
step the run may take holds of every state it reaches. -/
theorem invariant {I : σ → Prop} (h₀ : I s₀)
    (hstep : ∀ s l s', ok s l → I s → step s l = some s' → I s')
    (h : Reach step ok s₀ s) : I s := by
  induction h with
  | init => exact h₀
  | step _ hok hs ih => exact hstep _ _ _ hok ih hs

/-- **The invariant rule, relative to another invariant.** The step may
use what is already known of every reachable state. -/
theorem invariant_of {I J : σ → Prop} (hJ : ∀ s, Reach step ok s₀ s → J s) (h₀ : I s₀)
    (hstep : ∀ s l s', ok s l → J s → I s → step s l = some s' → I s')
    (h : Reach step ok s₀ s) : I s := by
  induction h with
  | init => exact h₀
  | step hr hok hs ih => exact hstep _ _ _ hok (hJ _ hr) ih hs

/-- A run may go on from where another one ended. -/
theorem trans {t : σ} (h : Reach step ok s₀ s) (h' : Reach step ok s t) : Reach step ok s₀ t := by
  induction h' with
  | init => exact h
  | step _ hok hs ih => exact .step ih hok hs

/-- A run meeting a condition meets a weaker one. -/
theorem mono (hok : ∀ s l, ok s l → ok' s l) (h : Reach step ok s₀ s) :
    Reach step ok' s₀ s := by
  induction h with
  | init => exact .init
  | step _ hk hs ih => exact .step ih (hok _ _ hk) hs

/-- A conditional run is a run. -/
theorem forget (h : Reach step ok s₀ s) : Reach step Any s₀ s :=
  h.mono fun _ _ _ => trivial

end Reach

/-- The state a list of labels leads to is reachable. -/
theorem reach_of_exec {ls : List ℓ} (h : exec step s ls = some s')
    (hs : Reach step Any s₀ s) : Reach step Any s₀ s' := by
  induction ls generalizing s with
  | nil =>
    rw [exec, Option.some.injEq] at h
    exact h ▸ hs
  | cons l ls ih =>
    rw [exec] at h
    split at h
    · rename_i t ht
      exact ih h (.step hs trivial ht)
    · cases h

/-- A list of labels is executed piece by piece. -/
theorem exec_append (ls ms : List ℓ) :
    exec step s (ls ++ ms) = (exec step s ls).bind fun t => exec step t ms := by
  induction ls generalizing s with
  | nil => rfl
  | cons l ls ih =>
    rw [List.cons_append, exec, exec]
    cases step s l with
    | none => rfl
    | some t => exact ih

/-- Where every label is enabled, every list of them leads to a state. -/
theorem exists_exec (h : ∀ s l, (step s l).isSome) (s : σ) (ls : List ℓ) :
    ∃ s', exec step s ls = some s' := by
  induction ls generalizing s with
  | nil => exact ⟨s, rfl⟩
  | cons l ls ih =>
    obtain ⟨t, ht⟩ := Option.isSome_iff_exists.1 (h s l)
    rw [exec, ht]
    exact ih t

/-- Each label of a list is enabled, and meets `ok` where it is taken. -/
def meets (step : σ → ℓ → Option σ) (ok : σ → ℓ → Bool) : σ → List ℓ → Bool
  | _, [] => true
  | s, l :: ls =>
    ok s l && match step s l with
      | some s' => meets step ok s' ls
      | none => false

/-- A run that does not meet a condition has a step that does not. -/
theorem exists_of_not_meets {ok : σ → ℓ → Bool} {ls : List ℓ} (h : meets step ok s ls = false)
    (hexec : exec step s ls = some s') : ∃ t l t', Reach step Any s t ∧ ok t l = false ∧
      step t l = some t' ∧ Reach step Any t' s' := by
  induction ls generalizing s with
  | nil => cases h
  | cons l ls ih =>
    rw [exec] at hexec
    split at hexec
    · rename_i t ht
      rw [meets, ht, Bool.and_eq_false_iff] at h
      rcases h with h | h
      · exact ⟨s, l, t, .init, h, ht, reach_of_exec hexec .init⟩
      · obtain ⟨u, m, u', hreach, hok, hu, hrest⟩ := ih h hexec
        exact ⟨u, m, u', (Reach.step .init trivial ht).trans hreach, hok, hu, hrest⟩
    · cases hexec

/-- A list of labels that meets a condition leads to a state reached under it. -/
theorem reach_of_meets {ok : σ → ℓ → Bool} {ls : List ℓ} (h : meets step ok s ls = true)
    (hs : Reach step (fun s l => ok s l = true) s₀ s) (hexec : exec step s ls = some s') :
    Reach step (fun s l => ok s l = true) s₀ s' := by
  induction ls generalizing s with
  | nil =>
    rw [exec, Option.some.injEq] at hexec
    exact hexec ▸ hs
  | cons l ls ih =>
    rw [meets, Bool.and_eq_true] at h
    obtain ⟨hok, hrest⟩ := h
    rw [exec] at hexec
    split at hexec
    · rename_i t ht
      rw [ht] at hrest
      exact ih hrest (.step hs hok ht) hexec
    · cases hexec

/-- How many steps of a list of labels are of a kind, read at the state
each of them is taken from. -/
def count (step : σ → ℓ → Option σ) (kind : σ → ℓ → Bool) : σ → List ℓ → ℕ
  | _, [] => 0
  | s, l :: ls => (kind s l).toNat + match step s l with
    | some s' => count step kind s' ls
    | none => 0

/-- **The counter rule.** A quantity that grows by one at each step of a
kind, and at no other, counts the steps of that kind; `I` is what may be
used of the states on the way. -/
theorem counter (kind : σ → ℓ → Bool) (I : σ → Prop) (μ : σ → ℕ)
    (hI : ∀ s l s', I s → step s l = some s' → I s')
    (hμ : ∀ s l s', I s → step s l = some s' → μ s' = μ s + (kind s l).toNat) {ls : List ℓ}
    (hs : I s) (hexec : exec step s ls = some s') : μ s' = μ s + count step kind s ls := by
  induction ls generalizing s with
  | nil =>
    rw [exec, Option.some.injEq] at hexec
    rw [hexec, count, Nat.add_zero]
  | cons l ls ih =>
    rw [exec] at hexec
    split at hexec
    · rename_i t ht
      have hrest := ih (hI _ _ _ hs ht) hexec
      rw [hrest, hμ _ _ _ hs ht, count, ht, Nat.add_assoc]
    · cases hexec

/-- What holds of every state on the way of a list of labels, from `s` on. -/
def Always (step : σ → ℓ → Option σ) (I : σ → Prop) (s : σ) (ls : List ℓ) : Prop :=
  ∀ n t, exec step s (ls.take n) = some t → I t

/-- **The rule of the exact condition.** `I` is what a run should have on its
whole way, and `J` is a stronger invariant that is kept by the steps that
meet `ok`. If a step from a state in which `J` holds leads to one in which
`I` holds only when it meets `ok`, then a run has `I` on its whole way
exactly when all its steps meet `ok`. -/
theorem always_iff_meets_of {I J : σ → Prop} {ok : σ → ℓ → Bool} (hJI : ∀ s, J s → I s)
    (hkeep : ∀ s l s', ok s l = true → J s → step s l = some s' → J s')
    (hneed : ∀ s l s', J s → step s l = some s' → I s' → ok s l = true) {ls : List ℓ}
    (hs : J s) (hexec : exec step s ls = some s') :
    Always step I s ls ↔ meets step ok s ls = true := by
  induction ls generalizing s with
  | nil =>
    refine ⟨fun _ => rfl, fun _ n t ht => ?_⟩
    rw [List.take_nil, exec, Option.some.injEq] at ht
    exact ht ▸ hJI s hs
  | cons l ls ih =>
    rw [exec] at hexec
    split at hexec
    · rename_i t ht
      rw [meets, ht, Bool.and_eq_true]
      constructor
      · intro hall
        have hI : I t := hall 1 t (by simp [exec, ht])
        have hok := hneed s l t hs ht hI
        refine ⟨hok, (ih (hkeep s l t hok hs ht) hexec).1 fun n u hu => hall (n + 1) u ?_⟩
        rw [List.take_succ_cons, exec, ht]
        exact hu
      · rintro ⟨hok, hrest⟩ n u hu
        cases n with
        | zero =>
          rw [List.take_zero, exec, Option.some.injEq] at hu
          exact hu ▸ hJI s hs
        | succ n =>
          rw [List.take_succ_cons, exec, ht] at hu
          exact (ih (hkeep s l t hok hs ht) hexec).2 hrest n u hu
    · cases hexec

/-- The rule for an invariant that is strong enough by itself. -/
theorem always_iff_meets {I : σ → Prop} {ok : σ → ℓ → Bool}
    (hstep : ∀ s l s', I s → step s l = some s' → (I s' ↔ ok s l = true)) {ls : List ℓ}
    (hs : I s) (hexec : exec step s ls = some s') :
    Always step I s ls ↔ meets step ok s ls = true :=
  always_iff_meets_of (fun _ h => h) (fun s l s' hok hI hs => (hstep s l s' hI hs).2 hok)
    (fun s l s' hI hs hI' => (hstep s l s' hI hs).1 hI') hs hexec

/-! ## Runs with a history -/

section Track

variable {η : Type*} {note : η → σ → ℓ → η} {p₀ p p' : σ × η} {l : ℓ}

/-- A step that keeps a history beside the state. `note` says what the
history is after a step, from the state the step is taken from. -/
def track (step : σ → ℓ → Option σ) (note : η → σ → ℓ → η) (p : σ × η) (l : ℓ) :
    Option (σ × η) :=
  (step p.1 l).map fun s' => (s', note p.2 p.1 l)

theorem track_eq_some :
    track step note p l = some p' ↔ step p.1 l = some p'.1 ∧ p'.2 = note p.2 p.1 l := by
  rw [track, Option.map_eq_some_iff]
  constructor
  · rintro ⟨s', hs, rfl⟩
    exact ⟨hs, rfl⟩
  · rintro ⟨hs, hnote⟩
    exact ⟨p'.1, hs, by rw [← hnote]⟩

/-- **A history constrains nothing.** A run that keeps one is a run. -/
theorem Reach.untrack {ok : σ × η → ℓ → Prop} (h : Reach (track step note) ok p₀ p) :
    Reach step Any p₀.1 p.1 := by
  induction h with
  | init => exact .init
  | step _ _ hs ih => exact .step ih trivial (track_eq_some.1 hs).1

end Track

/-- **The pairs of states two runs reach in lockstep**, when at each step
their two labels are related at the first run's state. -/
inductive Lockstep (step : σ → ℓ → Option σ) (L : σ → ℓ → ℓ → Prop) (s₀ : σ) : σ → σ → Prop
  | init : Lockstep step L s₀ s₀ s₀
  | step {s t s' t' : σ} {l m : ℓ} :
      Lockstep step L s₀ s t → L s l m → step s l = some s' → step t m = some t' →
      Lockstep step L s₀ s' t'

namespace Lockstep

variable {L : σ → ℓ → ℓ → Prop} {t : σ}

/-- The first of the two is a run. -/
theorem reach (h : Lockstep step L s₀ s t) : Reach step Any s₀ s := by
  induction h with
  | init => exact .init
  | step _ _ hs _ ih => exact .step ih trivial hs

/-- Both take the same labels. -/
theorem append_exec {ls : List ℓ} {s' t' : σ} (h : Lockstep step L s₀ s t)
    (hL : ∀ s, ∀ l ∈ ls, L s l l) (hs : exec step s ls = some s')
    (ht : exec step t ls = some t') : Lockstep step L s₀ s' t' := by
  induction ls generalizing s t with
  | nil =>
    rw [exec, Option.some.injEq] at hs ht
    exact hs ▸ ht ▸ h
  | cons l ls ih =>
    rw [exec] at hs ht
    split at hs
    · rename_i u hu
      split at ht
      · rename_i v hv
        exact ih (.step h (hL s l (List.mem_cons_self ..)) hu hv)
          (fun s l' hl' => hL s l' (List.mem_cons_of_mem _ hl')) hs ht
      · cases ht
    · cases hs

/-- **The rule for two runs.** What relates the start to itself, and is
kept by every pair of related steps, relates the states they reach. -/
theorem related {R : σ → σ → Prop} (h₀ : R s₀ s₀)
    (hstep : ∀ s t l m s' t', Reach step Any s₀ s → R s t → L s l m →
      step s l = some s' → step t m = some t' → R s' t')
    (h : Lockstep step L s₀ s t) : R s t := by
  induction h with
  | init => exact h₀
  | step hr hL hs ht ih => exact hstep _ _ _ _ _ _ hr.reach ih hL hs ht

end Lockstep

end Run

end VcOperator
