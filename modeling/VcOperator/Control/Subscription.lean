import Mathlib.Order.Nat
import VcOperator.Common.Run
import VcOperator.Control.Model.Subscription
/-!
# What a subscriber gets

A subscription that is acknowledged before it is made misses what is
published in between; one that is overtaken by the channel disables its own
event branch. Where neither happens, the subscriber has been sent every
event up to its receiver's position, in order, and its event branch is
always enabled.
-/

namespace VcOperator

namespace Control

variable {σ ε : Type}

/-- **A subscription delivers**: what was sent are published events in their order, what
the receiver has passed was sent or is no longer kept by the channel, and the
event branch is enabled. -/
structure Delivers (slots : ℕ) (s : Subscription ε) : Prop where
  ordered : s.sent.Pairwise fun a b => a.1 < b.1
  published : ∀ p ∈ s.sent, s.published[p.1]? = some p.2
  complete : ∀ i < s.next, (∃ event, (i, event) ∈ s.sent) ∨ i + slots < s.published.length
  enabled : ∀ eventBranch, s.stage = .selecting eventBranch → eventBranch = true

/-- **Nothing is published before the receiver is there, and the receiver is not
overtaken** when it receives. -/
def keepsUp (slots : ℕ) (s : Subscription ε) : SubscriptionStep ε → Bool
  | .subscribe => s.published.isEmpty
  | .recv _ => s.published.length - s.next ≤ slots
  | _ => true

/-! ## One step -/

/-- What is known of a subscription that keeps up: it was sent the events before its
position, each once. -/
structure Complete (s : Subscription ε) : Prop where
  sent : s.sent = (s.published.take s.next).zipIdx.map Prod.swap
  next_le : s.next ≤ s.published.length
  early : s.stage = .acknowledged → s.next = 0
  enabled : ∀ eventBranch, s.stage = .selecting eventBranch → eventBranch = true

theorem complete_start : Complete (.start : Subscription ε) where
  sent := rfl
  next_le := le_refl _
  early _ := rfl
  enabled _ h := nomatch h

/-- A receiver that is not behind receives the next event. -/
theorem recv_of_room {e : Endpoint σ ε} {slots : ℕ} {sub sub' : Subscription ε}
    (hroom : sub.published.length - sub.next ≤ slots) (hstage : sub.stage = .selecting true)
    (h : subscriptionStep e slots sub (.recv true) = some sub') :
    ∃ event, sub.published[sub.next]? = some event ∧ sub' =
      { sub with
        next := sub.next + 1, sent := sub.sent ++ [(sub.next, event)]
        stage := .selecting true } := by
  simp only [subscriptionStep, hstage, recvStep, if_neg (not_lt.2 hroom)] at h
  cases hget : sub.published[sub.next]? with
  | none => rw [hget] at h; cases h
  | some event =>
    rw [hget] at h
    exact ⟨event, rfl, (Option.some.inj h).symm⟩

/-- **A step of a subscription that keeps up loses nothing.** -/
theorem Complete.step {e : Endpoint σ ε} {slots : ℕ} {s s' : Subscription ε}
    {l : SubscriptionStep ε} (hok : keepsUp slots s l = true) (h : Complete s)
    (hstep : subscriptionStep e slots s l = some s') : Complete s' := by
  cases l with
  | publish event =>
    obtain rfl := Option.some.inj hstep
    refine ⟨?_, ?_, h.early, h.enabled⟩
    · -- an event that comes later is not before the position
      rw [h.sent]
      simp only [List.take_append_of_le_length h.next_le]
    · rw [List.length_append]
      exact h.next_le.trans (Nat.le_add_right _ _)
  | subscribe =>
    rw [subscriptionStep] at hstep
    split at hstep
    · obtain rfl := Option.some.inj hstep
      -- the receiver starts at the end, and there was nothing before it
      have hnone : s.published = [] := List.isEmpty_iff.1 hok
      have hsent := h.sent
      rw [hnone, List.take_nil] at hsent
      refine ⟨?_, le_refl _, fun hs => (nomatch hs), fun b hb => (Stage.selecting.inj hb).symm⟩
      simp only [hsent, hnone, List.take_nil]
    · cases hstep
  | recv there =>
    rw [subscriptionStep] at hstep
    split at hstep
    · rw [recvStep, if_neg (not_lt.2 (of_decide_eq_true hok))] at hstep
      split at hstep
      · cases hstep
      · rename_i event hget
        obtain ⟨hlt, heq⟩ := List.getElem?_eq_some_iff.1 hget
        split_ifs at hstep
        · obtain rfl := Option.some.inj hstep
          refine ⟨?_, hlt, fun hs => (nomatch hs), fun b hb => (Stage.selecting.inj hb).symm⟩
          -- the event received is the next one
          simp only [h.sent, List.take_add_one, hget, Option.toList_some, List.zipIdx_append,
            List.map_append, List.length_take, Nat.min_eq_left h.next_le]
          simp
        · obtain rfl := Option.some.inj hstep
          exact ⟨h.sent, h.next_le, fun hs => (nomatch hs), fun _ hb => (nomatch hb)⟩
    · cases hstep
  | read data =>
    rw [subscriptionStep] at hstep
    split at hstep
    · obtain rfl := Option.some.inj hstep
      unfold readStep
      split
      · exact ⟨h.sent, h.next_le, fun hs => (nomatch hs), fun _ hb => (nomatch hb)⟩
      · split
        · exact ⟨h.sent, h.next_le, fun hs => (nomatch hs), fun _ hb => (nomatch hb)⟩
        · exact ⟨h.sent, h.next_le, fun hs => (nomatch hs),
            fun b hb => (Stage.selecting.inj hb).symm⟩
    · cases hstep

/-- The events it was sent are the published ones before its position. -/
theorem Complete.mem_sent {s : Subscription ε} (h : Complete s) {i : ℕ} {event : ε} :
    (i, event) ∈ s.sent ↔ i < s.next ∧ s.published[i]? = some event := by
  rw [h.sent, List.mem_map]
  constructor
  · rintro ⟨⟨a, j⟩, hmem, heq⟩
    obtain ⟨rfl, rfl⟩ := Prod.mk.inj heq
    have hget := List.mk_mem_zipIdx_iff_getElem?.1 hmem
    rw [List.getElem?_take] at hget
    split at hget
    · rename_i hlt
      exact ⟨hlt, hget⟩
    · cases hget
  · rintro ⟨hlt, hget⟩
    refine ⟨(event, i), List.mk_mem_zipIdx_iff_getElem?.2 ?_, rfl⟩
    rw [List.getElem?_take, if_pos hlt]
    exact hget

/-- And then it delivers. -/
theorem Complete.delivers {s : Subscription ε} (h : Complete s) (slots : ℕ) :
    Delivers slots s where
  ordered := by
    rw [h.sent, List.pairwise_map]
    have hsorted := List.pairwise_lt_range' (s := 0) (n := (s.published.take s.next).length)
    rw [← List.zipIdx_map_snd, List.pairwise_map] at hsorted
    exact hsorted
  published p hp := (h.mem_sent.1 hp).2
  complete i hi := by
    have hlt : i < s.published.length := hi.trans_le h.next_le
    exact .inl ⟨s.published[i], h.mem_sent.2 ⟨hi, List.getElem?_eq_getElem hlt⟩⟩
  enabled := h.enabled

/-! ## When a step loses something -/

/-- **A step that does not keep up does not deliver**, whatever the capacity. -/
theorem Complete.keepsUp {e : Endpoint σ ε} {slots : ℕ} (hslots : 0 < slots)
    {s s' : Subscription ε} {l : SubscriptionStep ε} (h : Complete s)
    (hstep : subscriptionStep e slots s l = some s') (hs' : Delivers slots s') :
    keepsUp slots s l = true := by
  cases l with
  | publish event => rfl
  | subscribe =>
    rw [subscriptionStep] at hstep
    split at hstep
    · rename_i hs
      obtain rfl := Option.some.inj hstep
      refine List.isEmpty_iff.2 (List.length_eq_zero_iff.1 (Nat.eq_zero_of_not_pos fun hpos => ?_))
      -- the last event published before the receiver was there
      rcases hs'.complete (s.published.length - 1) (Nat.sub_lt hpos Nat.one_pos) with
        ⟨event, hsent⟩ | hgone
      · have hlt := (h.mem_sent.1 hsent).1
        rw [h.early hs] at hlt
        exact Nat.not_lt_zero _ hlt
      · simp only at hgone
        omega
    · cases hstep
  | recv there =>
    rw [subscriptionStep] at hstep
    split at hstep
    · by_contra hnot
      -- a receiver that lags disables its branch
      have hover : slots < s.published.length - s.next :=
        not_le.1 fun hle => hnot (decide_eq_true hle)
      rw [recvStep, if_pos hover] at hstep
      obtain rfl := Option.some.inj hstep
      exact Bool.false_ne_true (hs'.enabled false rfl)
    · cases hstep
  | read data => rfl

/-! ## Whole runs -/

/-- **Exactly when a subscription delivers, all along a run.** Every state on the way
of a run delivers just in case nothing was published between the `Ok` reply
and `tx.subscribe()`, and the receiver never had more than the kept events
before it when it received. -/
theorem delivers_iff_keepsUp (e : Endpoint σ ε) {slots : ℕ} (hslots : 0 < slots)
    {ls : List (SubscriptionStep ε)} {s : Subscription ε}
    (hexec : Run.exec (subscriptionStep e slots) .start ls = some s) :
    Run.Always (subscriptionStep e slots) (Delivers slots) .start ls ↔
      Run.meets (subscriptionStep e slots) (keepsUp slots) .start ls = true :=
  Run.always_iff_meets_of (fun _ h => h.delivers slots) (fun _ _ _ hok h hs => h.step hok hs)
    (fun _ _ _ h hs hs' => h.keepsUp hslots hs hs') complete_start hexec

/-- An endpoint without commands. -/
def quietEndpoint : Endpoint Unit Unit where
  parse _ := .error "expected value at line 1 column 1"
  snapshot := ()
  verify _ := ⟨true, []⟩
  eventTx := true

/-- One event, published and received. -/
theorem delivers_iff_keepsUp_oneEvent :
    Run.Always (subscriptionStep quietEndpoint eventSlots) (Delivers eventSlots) .start
      [.subscribe, .publish (), .recv true] :=
  (delivers_iff_keepsUp quietEndpoint (by decide) rfl).2 (by decide +kernel)

/-- **Two ways to miss events**: one that is published right after the `Ok` reply is never
sent, and after a burst of one event more than the channel keeps the event
branch is disabled. -/
theorem not_delivers_burst :
    (¬ ∀ (e : Endpoint Unit Unit) s,
      Run.Reach (subscriptionStep e eventSlots) Run.Any .start s → Delivers eventSlots s) ∧
    ¬ ∀ (e : Endpoint Unit Unit) s,
      Run.Reach (subscriptionStep e eventSlots) Run.Any .start s → s.stage ≠ .selecting false := by
  constructor
  · intro h
    have hexec : Run.exec (subscriptionStep quietEndpoint eventSlots) .start
        [.publish (), .subscribe] = some ⟨[()], .selecting true, 1, []⟩ := rfl
    have hdel := h quietEndpoint _ (Run.reach_of_exec hexec .init)
    rcases hdel.complete 0 Nat.one_pos with ⟨event, hsent⟩ | hgone
    · cases hsent
    · exact absurd hgone (by decide)
  · intro h
    have hexec : Run.exec (subscriptionStep quietEndpoint eventSlots) .start
        (.subscribe :: List.replicate 129 (.publish ()) ++ [.recv true]) =
        some ⟨List.replicate 129 (), .selecting false, 1, []⟩ := by decide +kernel
    exact h quietEndpoint _ (Run.reach_of_exec hexec .init) rfl

end Control

end VcOperator
