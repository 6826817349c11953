import VcOperator.Common.Run
import VcOperator.Control.Model.Subscriber
import VcOperator.Tray.Model
/-!
# When the tray gives up

An attempt that has subscribed ends in an error too, when its stream ends;
so the count of attempts is never reset, and the loop returns after the
tenth attempt, whatever the ten have met. The subscriber of the console
resets its count when it has connected, and gives up after ten refusals in
a row.
-/

namespace VcOperator

namespace Tray

open Control

/-- **The tray gives up only on a dead daemon**: when the loop has returned, it has set the
tray to `Failed`, and none of its last ten attempts had established a subscription. -/
def GivesUpOnDead (attempts : List Attempt) (s : LoopState) : Prop :=
  s.returned = true → s.sent.getLast? = some .failed ∧
    ∃ last, last <:+ attempts ∧ last.length = 10 ∧ ∀ a ∈ last, a.established = false

variable {floats : Json.Floats} {s s' : LoopState}

/-! ## One round -/

/-- A stream that ends is an error, and so is one that does not decode. -/
theorem exists_readLines_eq_error (floats : Json.Floats) (ends : StreamEnd)
    (lines : List String) :
    ∃ sent err, readLines floats ends lines = (sent, .error err) := by
  induction lines with
  | nil => cases ends <;> exact ⟨_, _, rfl⟩
  | cons line lines ih =>
    obtain ⟨sent, err, hrest⟩ := ih
    rw [readLines]
    split
    · exact ⟨_, _, rfl⟩
    · rw [hrest]
      simp only
      split <;> exact ⟨_, _, rfl⟩
    · exact ⟨sent, err, hrest⟩

/-- **`subscribe_once` never returns `Ok`.** -/
theorem exists_subscribeOnce_eq_error (floats : Json.Floats) (a : Attempt) :
    ∃ sent err, subscribeOnce floats a = (sent, .error err) := by
  cases a with
  | refused => exact ⟨_, _, rfl⟩
  | unwritten => exact ⟨_, _, rfl⟩
  | subscribed lines ends => exact exists_readLines_eq_error floats ends lines

/-- The count of attempts, and whether the loop has returned, agree. -/
structure Counted (s : LoopState) : Prop where
  returned_iff : s.returned = true ↔ s.attempt = 10
  attempt_le : s.attempt ≤ 10
  failed : s.returned = true → s.sent.getLast? = some .failed

theorem counted_start : Counted .start where
  returned_iff := by decide
  attempt_le := by decide
  failed h := by cases h

/-- **A round counts an attempt**, whatever it meets. -/
theorem attempt_of_subscribeLoop {a : Attempt} (hstep : subscribeLoop floats s a = some s') :
    s'.attempt = s.attempt + 1 := by
  obtain ⟨sent, err, honce⟩ := exists_subscribeOnce_eq_error floats a
  simp only [subscribeLoop, honce] at hstep
  split_ifs at hstep
  · obtain rfl := Option.some.inj hstep
    rfl
  · obtain rfl := Option.some.inj hstep
    rfl

theorem Counted.step {a : Attempt} (h : Counted s) (hstep : subscribeLoop floats s a = some s') :
    Counted s' := by
  obtain ⟨sent, err, honce⟩ := exists_subscribeOnce_eq_error floats a
  simp only [subscribeLoop, honce] at hstep
  split_ifs at hstep with hreturned hten
  · obtain rfl := Option.some.inj hstep
    have hne : s.attempt ≠ 10 := fun heq => hreturned (h.returned_iff.2 heq)
    have hle := h.attempt_le
    have heq : s.attempt + 1 = 10 := by omega
    exact ⟨⟨fun _ => heq, fun _ => rfl⟩, Nat.le_of_eq heq, fun _ => by simp⟩
  · obtain rfl := Option.some.inj hstep
    have hne : s.attempt + 1 ≠ 10 := by omega
    have hle : s.attempt + 1 ≤ 10 := by omega
    exact ⟨⟨fun hr => absurd hr hreturned, fun heq => absurd heq hne⟩, hle,
      fun hr => absurd hr hreturned⟩

/-- A loop that has not counted ten attempts goes on. -/
theorem Counted.goes_on (floats : Json.Floats) (h : Counted s) (hlt : s.attempt < 10)
    (a : Attempt) :
    ∃ s', subscribeLoop floats s a = some s' := by
  obtain ⟨sent, err, honce⟩ := exists_subscribeOnce_eq_error floats a
  have hreturned : ¬ s.returned = true := by
    rw [h.returned_iff]
    omega
  simp only [subscribeLoop, honce, if_neg hreturned]
  split <;> exact ⟨_, rfl⟩

/-! ## A run -/

/-- **The loop counts all its attempts.** -/
theorem exec_subscribeLoop {attempts : List Attempt} (h : Counted s)
    (hexec : Run.exec (subscribeLoop floats) s attempts = some s') :
    Counted s' ∧ s'.attempt = s.attempt + attempts.length := by
  induction attempts generalizing s with
  | nil =>
    obtain rfl := Option.some.inj hexec
    exact ⟨h, rfl⟩
  | cons a attempts ih =>
    rw [Run.exec] at hexec
    split at hexec
    · rename_i t hstep
      obtain ⟨hcounted, hattempt⟩ := ih (h.step hstep) hexec
      rw [attempt_of_subscribeLoop hstep] at hattempt
      exact ⟨hcounted, by rw [hattempt, List.length_cons]; omega⟩
    · cases hexec

/-- And it makes any ten attempts. -/
theorem exists_exec_subscribeLoop (floats : Json.Floats) (attempts : List Attempt)
    (h : Counted s) (hle : s.attempt + attempts.length ≤ 10) :
    ∃ s', Run.exec (subscribeLoop floats) s attempts = some s' := by
  induction attempts generalizing s with
  | nil => exact ⟨s, rfl⟩
  | cons a attempts ih =>
    rw [List.length_cons] at hle
    obtain ⟨t, hstep⟩ := h.goes_on floats (by omega) a
    have hattempt := attempt_of_subscribeLoop hstep
    obtain ⟨s', hexec⟩ := ih (h.step hstep) (by omega)
    exact ⟨s', by rw [Run.exec, hstep]; exact hexec⟩

/-- **When the tray gives up on a dead daemon only**: exactly while fewer than ten attempts
have been made, or when none of the ten has established a subscription. -/
theorem givesUpOnDead_iff (floats : Json.Floats) {attempts : List Attempt}
    (hexec : Run.exec (subscribeLoop floats) .start attempts = some s) :
    GivesUpOnDead attempts s ↔
      attempts.length < 10 ∨ ∀ a ∈ attempts, a.established = false := by
  obtain ⟨hcounted, hattempt⟩ := exec_subscribeLoop counted_start hexec
  have hlength : s.attempt = attempts.length := by
    rw [hattempt]
    exact Nat.zero_add _
  have hle := hcounted.attempt_le
  constructor
  · intro h
    by_cases hlt : attempts.length < 10
    · exact .inl hlt
    · obtain ⟨-, last, hsuffix, hten, hlast⟩ := h (hcounted.returned_iff.2 (by omega))
      -- the last ten attempts are all attempts
      obtain rfl : last = attempts := hsuffix.eq_of_length (by omega)
      exact .inr hlast
  · intro h hreturned
    have hten : s.attempt = 10 := hcounted.returned_iff.1 hreturned
    rcases h with hlt | hall
    · omega
    · exact ⟨hcounted.failed hreturned, attempts, List.suffix_refl _, by omega, hall⟩

/-- A daemon that is never there. -/
theorem givesUpOnDead_iff_refused :
    GivesUpOnDead (List.replicate 10 .refused) ⟨10, 30000, [.failed], true⟩ ↔
      (List.replicate 10 Attempt.refused).length < 10 ∨
        ∀ a ∈ List.replicate 10 Attempt.refused, a.established = false :=
  givesUpOnDead_iff ⟨fun _ => [], fun _ => none⟩ (by decide)

/-- A session of a daemon that routes a request and is restarted. -/
def session (floats : Json.Floats) : Attempt :=
  .subscribed [Json.toText floats (responseValue (.event (.routeUpdate "claude" "memory" 1 5)))]
    .closed

/-- **Ten restarts of the daemon add up**: the tray gives up after ten sessions. -/
theorem not_givesUpOnDead_session :
    ¬ ∀ (floats : Json.Floats) (attempts : List Attempt) (s : LoopState),
      Run.exec (subscribeLoop floats) .start attempts = some s → GivesUpOnDead attempts s := by
  intro h
  let floats : Json.Floats := ⟨fun _ => [], fun _ => none⟩
  obtain ⟨s, hexec⟩ := exists_exec_subscribeLoop floats
    (List.replicate 10 (session floats)) counted_start (by decide)
  obtain ⟨hcounted, hattempt⟩ := exec_subscribeLoop counted_start hexec
  have hreturned : s.returned = true := hcounted.returned_iff.2 hattempt
  obtain ⟨-, last, hsuffix, hten, hlast⟩ := h floats _ s hexec hreturned
  obtain ⟨a, ha⟩ : ∃ a, a ∈ last := List.exists_mem_of_length_pos (by omega)
  have hsession : a = session floats := List.eq_of_mem_replicate (hsuffix.subset ha)
  have hestablished := hlast a ha
  rw [hsession] at hestablished
  cases hestablished

/-! ## The subscriber of the console -/

section

variable {σ ε : Type} {e : Endpoint σ ε} {slots : ℕ} {t t' : Link σ ε}

/-- Whether a step is an attempt, and connects. -/
def connects : LinkStep ε → Option Bool
  | .connect => some true
  | .refused => some false
  | _ => none

/-- **The count of the subscriber is of refusals in a row**, after these attempts. -/
structure Streak (attempts : List Bool) (t : Link σ ε) : Prop where
  refused : ∃ last, last <:+ attempts ∧ last.length = t.attempts ∧ ∀ c ∈ last, c = false
  polling_iff : t.stage = .polling ↔ t.attempts = 10
  attempts_le : t.attempts ≤ 10

theorem streak_start : Streak [] (.start : Link σ ε) where
  refused := ⟨[], List.suffix_refl _, rfl, fun c hc => by cases hc⟩
  polling_iff := ⟨fun h => (by cases h), fun h => (by cases h)⟩
  attempts_le := Nat.zero_le _

/-- A read does not touch the subscriber. -/
theorem frame_of_read (hstep : linkStep e slots t .read = some t') :
    t'.attempts = t.attempts ∧ t'.stage = t.stage := by
  simp only [linkStep] at hstep
  split at hstep
  · rw [Link.outerRead] at hstep
    split_ifs at hstep <;> obtain rfl := Option.some.inj hstep <;> exact ⟨rfl, rfl⟩
  · rw [Link.innerRead] at hstep
    split_ifs at hstep
    · obtain ⟨sub', -, rfl⟩ := Option.map_eq_some_iff.1 hstep
      exact ⟨rfl, rfl⟩
    · obtain ⟨sub', -, rfl⟩ := Option.map_eq_some_iff.1 hstep
      exact ⟨rfl, rfl⟩
  · cases hstep

/-- A step that is no attempt leaves the count, and does not give up. -/
theorem frame_of_not_attempt {l : LinkStep ε} (hl : connects l = none)
    (hstep : linkStep e slots t l = some t') :
    t'.attempts = t.attempts ∧ (t'.stage = .polling ↔ t.stage = .polling) := by
  cases l with
  | connect => cases hl
  | refused => cases hl
  | write =>
    rw [linkStep] at hstep
    split_ifs at hstep with hstage
    obtain rfl := Option.some.inj hstep
    exact ⟨rfl, by simp [hstage]⟩
  | split =>
    rw [linkStep] at hstep
    split_ifs at hstep with hstage
    obtain rfl := Option.some.inj hstep
    exact ⟨rfl, by simp [hstage]⟩
  | line =>
    rw [linkStep] at hstep
    split_ifs at hstep with hstage
    rw [Link.lineStep] at hstep
    split at hstep
    · obtain rfl := Option.some.inj hstep
      exact ⟨rfl, Iff.rfl⟩
    · split at hstep
      · obtain rfl := Option.some.inj hstep
        exact ⟨rfl, by simp [hstage]⟩
      · cases hstep
  | publish event =>
    simp only [linkStep] at hstep
    split at hstep
    · obtain ⟨sub', -, rfl⟩ := Option.map_eq_some_iff.1 hstep
      exact ⟨rfl, Iff.rfl⟩
    · obtain rfl := Option.some.inj hstep
      exact ⟨rfl, Iff.rfl⟩
  | read =>
    obtain ⟨hattempts, hstage⟩ := frame_of_read hstep
    exact ⟨hattempts, by rw [hstage]⟩
  | subscribe =>
    simp only [linkStep] at hstep
    split at hstep
    · obtain ⟨sub', -, rfl⟩ := Option.map_eq_some_iff.1 hstep
      exact ⟨rfl, Iff.rfl⟩
    · cases hstep
  | recv =>
    simp only [linkStep] at hstep
    split at hstep
    · obtain ⟨sub', -, rfl⟩ := Option.map_eq_some_iff.1 hstep
      exact ⟨rfl, Iff.rfl⟩
    · cases hstep
  | resume =>
    simp only [linkStep] at hstep
    split at hstep
    · split_ifs at hstep
      obtain rfl := Option.some.inj hstep
      exact ⟨rfl, Iff.rfl⟩
    · cases hstep

theorem Streak.step {attempts : List Bool} {l : LinkStep ε} (h : Streak attempts t)
    (hstep : linkStep e slots t l = some t') :
    Streak (attempts ++ (connects l).toList) t' := by
  obtain ⟨last, hsuffix, hlength, hlast⟩ := h.refused
  have hle := h.attempts_le
  cases hl : connects l with
  | none =>
    obtain ⟨hattempts, hstage⟩ := frame_of_not_attempt hl hstep
    rw [Option.toList_none, List.append_nil]
    exact ⟨⟨last, hsuffix, by rw [hlength, hattempts], hlast⟩,
      by rw [hstage, h.polling_iff, hattempts], by omega⟩
  | some connected =>
    cases l with
    | connect =>
      rw [linkStep] at hstep
      split_ifs at hstep
      obtain rfl := Option.some.inj hstep
      -- the count begins again
      exact ⟨⟨[], List.nil_suffix, rfl, fun c hc => by cases hc⟩, by simp, Nat.zero_le _⟩
    | refused =>
      obtain rfl : false = connected := Option.some.inj hl
      have hrefused : ∃ last, last <:+ attempts ++ [false] ∧ last.length = t.attempts + 1 ∧
          ∀ c ∈ last, c = false := by
        refine ⟨last ++ [false], List.suffix_append_self_iff.2 hsuffix, by simp [hlength], ?_⟩
        intro c hc
        rcases List.mem_append.1 hc with hc | hc
        · exact hlast c hc
        · exact List.mem_singleton.1 hc
      rw [linkStep] at hstep
      split_ifs at hstep with hstage hten
      · obtain rfl := Option.some.inj hstep
        have hne : t.attempts ≠ 10 := fun heq => by
          rw [h.polling_iff.2 heq] at hstage
          cases hstage
        have heq : t.attempts + 1 = 10 := by omega
        exact ⟨hrefused, ⟨fun _ => heq, fun _ => rfl⟩, Nat.le_of_eq heq⟩
      · obtain rfl := Option.some.inj hstep
        have hne : t.attempts + 1 ≠ 10 := by omega
        have hle : t.attempts + 1 ≤ 10 := by omega
        exact ⟨hrefused, ⟨fun hp => absurd (hstage.symm.trans hp) (by decide),
          fun heq => absurd heq hne⟩, hle⟩
    | write | split | line | publish _ | read | subscribe | recv | resume => cases hl

theorem Streak.exec {attempts : List Bool} {ls : List (LinkStep ε)} (h : Streak attempts t)
    (hexec : Run.exec (linkStep e slots) t ls = some t') :
    Streak (attempts ++ ls.filterMap connects) t' := by
  induction ls generalizing t attempts with
  | nil =>
    obtain rfl := Option.some.inj hexec
    rwa [List.filterMap_nil, List.append_nil]
  | cons l ls ih =>
    rw [Run.exec] at hexec
    split at hexec
    · rename_i u hstep
      have hrest := ih (h.step hstep) hexec
      cases hl : connects l <;> simpa [List.filterMap_cons, hl] using hrest
    · cases hexec

/-- **The subscriber of the console gives up after ten refusals in a row**, with no
connection among them or after them. -/
theorem refused_of_polling {ls : List (LinkStep ε)}
    (hexec : Run.exec (linkStep e slots) .start ls = some t) (h : t.stage = .polling) :
    ∃ last, last <:+ ls.filterMap connects ∧ last.length = 10 ∧ ∀ c ∈ last, c = false := by
  have hstreak : Streak ([] ++ ls.filterMap connects) t := streak_start.exec hexec
  obtain ⟨last, hsuffix, hlength, hlast⟩ := hstreak.refused
  exact ⟨last, hsuffix, hlength.trans (hstreak.polling_iff.1 h), hlast⟩

end

end Tray

end VcOperator
