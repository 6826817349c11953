import VcOperator.Common.Run
import VcOperator.Control.Subscription
import VcOperator.Control.Model.Subscriber
/-!
# How long a subscription stays open

The subscriber splits its stream and drops the writing half, which ends the
stream for the serving task: from then on the read branch of its `select!`
is ready, and taking it ends the subscription. As long as it is not taken,
and the channel discards nothing, the subscription is open and loses no
event.
-/

namespace VcOperator

namespace Control

variable {σ ε : Type}

namespace Link

/-- The events on their way to the subscriber. -/
def inFlight (s : Link σ ε) : List ε := s.down.filterMap eventOf

/-- **A subscription is open**: the subscriber listens or is about to, the serving task
is in `select!` with both branches enabled, and the events published since
`tx.subscribe()` are, each once and in order, those forwarded, those in
flight and those the channel keeps for the receiver. -/
structure Open (slots : ℕ) (s : Link σ ε) (since : ℕ) : Prop where
  listens : s.stage = .written ∨ s.stage = .listening
  serves : ∃ sub rest, s.serving = .subscription sub rest ∧ sub.stage = .selecting true ∧
    s.forwarded ++ s.inFlight ++ sub.published.drop sub.next = sub.published.drop since ∧
    sub.published.length - sub.next ≤ slots

/-- **Once it is established, it is open.** -/
def KeptOpen (slots : ℕ) (s : Link σ ε) : Prop := ∀ since, s.since = some since → s.Open slots since

/-- **The serving task does not read the end of the stream in a subscription, and no
event is published that the channel has no room for.** -/
def keepsOpen (slots : ℕ) (s : Link σ ε) : LinkStep ε → Bool
  | .read =>
    match s.serving with
    | .subscription _ _ => s.up ≠ []
    | _ => true
  | .publish _ =>
    match s.serving with
    | .subscription sub _ => s.since = none || decide (sub.published.length - sub.next < slots)
    | _ => true
  | _ => true

/-! ## One step -/

/-- Before there is a subscription: nothing is forwarded, and no event is sent. -/
structure Early (s : Link σ ε) : Prop where
  since_eq : s.since = none
  forwarded : s.forwarded = []
  inFlight : s.inFlight = []
  shut : s.upShut = true ↔ s.stage = .listening
  up : s.up ≠ [] → s.stage = .written ∨ s.stage = .listening
  subscription : ∀ sub rest, s.serving = .subscription sub rest →
    sub.stage = .acknowledged ∧ s.up = [] ∧ (s.stage = .written ∨ s.stage = .listening)

/-- From then on. -/
structure Opened (slots : ℕ) (s : Link σ ε) (since : ℕ) : Prop extends Open slots s since where
  since_eq : s.since = some since
  up : s.up = []
  shut : s.upShut = true ↔ s.stage = .listening
  le : ∀ sub rest, s.serving = .subscription sub rest →
    since ≤ sub.published.length ∧ sub.next ≤ sub.published.length

/-- What is known of a run that has kept its subscription open. -/
def Good (slots : ℕ) (s : Link σ ε) : Prop := s.Early ∨ ∃ since, s.Opened slots since

theorem good_start (slots : ℕ) : Good slots (.start : Link σ ε) :=
  .inl
    { since_eq := rfl
      forwarded := rfl
      inFlight := rfl
      shut := by simp [start]
      up := fun h => absurd rfl h
      subscription := nofun }

theorem Good.keptOpen {slots : ℕ} {s : Link σ ε} (h : Good slots s) : s.KeptOpen slots := by
  intro since hs
  rcases h with h | ⟨since', h⟩
  · rw [h.since_eq] at hs
    cases hs
  · obtain rfl := Option.some.inj (h.since_eq.symm.trans hs)
    exact h.toOpen

/-- Responses to commands are not events. -/
theorem eventOf_handleLines (e : Endpoint σ ε) (ls : List Bytes) :
    (e.handleLines ls).1.filterMap eventOf = [] := by
  have hrespond : ∀ cmd, eventOf (e.respond cmd) = none := by
    intro cmd
    cases cmd <;> rfl
  induction ls with
  | nil => rfl
  | cons l ls ih =>
    rw [Endpoint.handleLines]
    cases e.parse l with
    | error err =>
      rw [List.filterMap_cons]
      exact ih
    | ok cmd =>
      dsimp only
      split_ifs
      · simp [hrespond]
      · simp only [List.filterMap_cons, hrespond]
        exact ih
      · simp only [List.filterMap_cons, hrespond]
        exact ih

theorem inFlight_append (s : Link σ ε) (out : List (MuxControlResponse σ ε)) (serving : Serving ε) :
    ({ s with down := s.down ++ out, serving := serving } : Link σ ε).inFlight =
      s.inFlight ++ out.filterMap eventOf := List.filterMap_append

/-- What the lines of a read leave of it is the same. -/
theorem Early.handled {e : Endpoint σ ε} {s : Link σ ε} (h : s.Early) (hup : s.up = [])
    (hstage : s.stage = .written ∨ s.stage = .listening) (ls : List Bytes) :
    (s.handled (e.handleLines ls)).Early where
  since_eq := h.since_eq
  forwarded := h.forwarded
  inFlight := by
    show (s.down ++ (e.handleLines ls).1).filterMap eventOf = []
    rw [List.filterMap_append, eventOf_handleLines, List.append_nil]
    exact h.inFlight
  shut := h.shut
  up hne := absurd hup hne
  subscription sub rest heq := by
    simp only [Link.handled] at heq
    split at heq
    · cases heq
    · obtain ⟨rfl, rfl⟩ := Serving.subscription.inj heq
      exact ⟨rfl, hup, hstage⟩

/-- A stage in which the command is not written has no subscription. -/
theorem Early.unwritten {s : Link σ ε} (h : s.Early)
    (hs : s.stage = .connecting ∨ s.stage = .connected) :
    s.up = [] ∧ ∀ sub rest, s.serving ≠ .subscription sub rest := by
  have hstage : ¬ (s.stage = .written ∨ s.stage = .listening) := by
    rcases hs with hs | hs <;> simp [hs]
  exact ⟨by_contra fun hne => hstage (h.up hne),
    fun sub rest heq => hstage (h.subscription sub rest heq).2.2⟩

/-- A line that comes back, or the end of the stream. -/
theorem Early.lineStep {s s' : Link σ ε} (h : s.Early) (hstep : s.lineStep = some s') :
    s'.Early := by
  rw [Link.lineStep] at hstep
  cases hdown : s.down with
  | nil =>
    rw [hdown] at hstep
    simp only at hstep
    split at hstep
    · obtain rfl := Option.some.inj hstep
      exact { since_eq := h.since_eq, forwarded := h.forwarded, inFlight := rfl,
              shut := by simp, up := fun hne => absurd rfl hne, subscription := nofun }
    · cases hstep
  | cons resp down =>
    rw [hdown] at hstep
    obtain rfl := Option.some.inj hstep
    have hflight : (resp :: down).filterMap eventOf = [] := hdown ▸ h.inFlight
    obtain ⟨hresp, hdown'⟩ : eventOf resp = none ∧ down.filterMap eventOf = [] := by
      rw [List.filterMap_cons] at hflight
      cases hev : eventOf resp with
      | none => exact ⟨rfl, by simpa [hev] using hflight⟩
      | some event => simp [hev] at hflight
    exact { since_eq := h.since_eq, forwarded := by simp [hresp, h.forwarded],
            inFlight := hdown', shut := h.shut, up := h.up, subscription := h.subscription }

/-- A read that is not of a subscription. -/
theorem Early.outerRead {e : Endpoint σ ε} {s s' : Link σ ε} (h : s.Early)
    (hstep : s.outerRead e = some s') : s'.Early := by
  rw [Link.outerRead] at hstep
  split_ifs at hstep with hup hshut
  · obtain rfl := Option.some.inj hstep
    exact { since_eq := h.since_eq, forwarded := h.forwarded, inFlight := h.inFlight,
            shut := h.shut, up := h.up, subscription := nofun }
  · obtain rfl := Option.some.inj hstep
    have htaken : Early { s with up := [] } :=
      { since_eq := h.since_eq, forwarded := h.forwarded, inFlight := h.inFlight,
        shut := h.shut, up := fun hne => absurd rfl hne,
        subscription := fun sub rest heq => absurd (h.subscription sub rest heq).2.1 hup }
    exact htaken.handled rfl (h.up hup) (lines s.up)

/-- **`tx.subscribe()`**: from here on there is a subscription. -/
theorem Early.opened {slots : ℕ} {s : Link σ ε} (h : s.Early) {sub : Subscription ε}
    {rest : List Bytes} (hserving : s.serving = .subscription sub rest) :
    Opened slots
      { s with
        serving := .subscription
          { sub with stage := .selecting true, next := sub.published.length } rest
        since := some sub.published.length }
      sub.published.length := by
  obtain ⟨hack, hup, hstage⟩ := h.subscription sub rest hserving
  refine { listens := hstage
           serves := ⟨_, rest, rfl, rfl, ?_, ?_⟩
           since_eq := rfl
           up := hup
           shut := h.shut
           le := ?_ }
  · show s.forwarded ++ s.inFlight ++ sub.published.drop sub.published.length = _
    rw [h.forwarded, h.inFlight, List.nil_append, List.nil_append]
  · exact (Nat.sub_self _).le.trans (Nat.zero_le _)
  · rintro sub' rest' heq
    obtain ⟨rfl, rfl⟩ := Serving.subscription.inj heq
    exact ⟨le_refl _, le_refl _⟩

/-- Before there is a subscription, a step leads to one or to none. -/
theorem Early.step {e : Endpoint σ ε} {slots : ℕ} {s s' : Link σ ε} {l : LinkStep ε}
    (h : s.Early) (hstep : linkStep e slots s l = some s') : Good slots s' := by
  cases l with
  | connect =>
    rw [linkStep] at hstep
    split_ifs at hstep with hs
    obtain rfl := Option.some.inj hstep
    obtain ⟨hup, -⟩ := h.unwritten (.inl hs)
    exact .inl { since_eq := h.since_eq, forwarded := h.forwarded, inFlight := h.inFlight,
                 shut := by simp [h.shut, hs], up := fun hne => absurd hup hne,
                 subscription := nofun }
  | refused =>
    rw [linkStep] at hstep
    split_ifs at hstep with hs
    · obtain rfl := Option.some.inj hstep
      obtain ⟨hup, hsub⟩ := h.unwritten (.inl hs)
      exact .inl { since_eq := h.since_eq, forwarded := h.forwarded, inFlight := h.inFlight,
                   shut := by simp [h.shut, hs], up := fun hne => absurd hup hne,
                   subscription := fun sub rest heq => absurd heq (hsub sub rest) }
    · obtain rfl := Option.some.inj hstep
      exact .inl { h with }
  | write =>
    rw [linkStep] at hstep
    split_ifs at hstep with hs
    obtain rfl := Option.some.inj hstep
    obtain ⟨-, hsub⟩ := h.unwritten (.inr hs)
    exact .inl { since_eq := h.since_eq, forwarded := h.forwarded, inFlight := h.inFlight,
                 shut := by simp [h.shut, hs], up := fun _ => .inl rfl,
                 subscription := fun sub rest heq => absurd heq (hsub sub rest) }
  | split =>
    rw [linkStep] at hstep
    split_ifs at hstep with hs
    obtain rfl := Option.some.inj hstep
    exact .inl { since_eq := h.since_eq, forwarded := h.forwarded, inFlight := h.inFlight,
                 shut := by simp, up := fun _ => .inr rfl,
                 subscription := fun sub rest heq =>
                   ⟨(h.subscription sub rest heq).1, (h.subscription sub rest heq).2.1, .inr rfl⟩ }
  | line =>
    rw [linkStep] at hstep
    split_ifs at hstep
    exact .inl (h.lineStep hstep)
  | publish event =>
    simp only [linkStep] at hstep
    split at hstep
    · rename_i sub rest hserving
      obtain rfl := Option.some.inj hstep
      refine .inl { since_eq := h.since_eq, forwarded := h.forwarded, inFlight := h.inFlight,
                    shut := h.shut, up := h.up, subscription := fun sub' rest' heq => ?_ }
      obtain ⟨rfl, rfl⟩ := Serving.subscription.inj heq
      exact h.subscription sub rest hserving
    · obtain rfl := Option.some.inj hstep
      exact .inl h
  | read =>
    simp only [linkStep] at hstep
    split at hstep
    · exact .inl (h.outerRead hstep)
    · rename_i sub rest hserving
      have hack := (h.subscription sub rest hserving).1
      rw [innerRead] at hstep
      split_ifs at hstep <;> simp [subscriptionStep, hack] at hstep
    · cases hstep
  | subscribe =>
    simp only [linkStep] at hstep
    split at hstep
    · rename_i sub rest hserving
      simp only [subscriptionStep, (h.subscription sub rest hserving).1,
        Option.map_some] at hstep
      obtain rfl := Option.some.inj hstep
      exact .inr ⟨_, h.opened hserving⟩
    · cases hstep
  | recv =>
    simp only [linkStep] at hstep
    split at hstep
    · rename_i sub rest hserving
      simp [subscriptionStep, (h.subscription sub rest hserving).1] at hstep
    · cases hstep
  | resume =>
    simp only [linkStep] at hstep
    split at hstep
    · rename_i sub rest hserving
      simp [(h.subscription sub rest hserving).1] at hstep
    · cases hstep

section Opened

variable {slots since : ℕ} {s s' : Link σ ε} {sub : Subscription ε} {rest : List Bytes}

/-- A line that comes back is taken off the stream. -/
theorem Opened.lineStep (h : s.Opened slots since) (hserving : s.serving = .subscription sub rest)
    (hstep : s.lineStep = some s') : s'.Opened slots since := by
  rw [Link.lineStep] at hstep
  cases hdown : s.down with
  | nil => rw [hdown, hserving] at hstep; cases hstep
  | cons resp down =>
    rw [hdown] at hstep
    obtain rfl := Option.some.inj hstep
    obtain ⟨sub', rest', hserving', hsel, hevents, hroom⟩ := h.serves
    refine { listens := h.listens, serves := ⟨sub', rest', hserving', hsel, ?_, hroom⟩,
             since_eq := h.since_eq, up := h.up, shut := h.shut, le := h.le }
    rw [← hevents, inFlight, inFlight, hdown, List.filterMap_cons]
    cases eventOf resp <;> simp

/-- An event that the channel has room for. -/
theorem Opened.publish (h : s.Opened slots since) (hserving : s.serving = .subscription sub rest)
    (hroom : sub.published.length - sub.next < slots) (event : ε) :
    Opened slots
      { s with
        serving := .subscription { sub with published := sub.published ++ [event] } rest }
      since := by
  obtain ⟨hsince, hnext⟩ := h.le sub rest hserving
  obtain ⟨sub', rest', heq, hsel, hevents, -⟩ := h.serves
  obtain ⟨rfl, rfl⟩ := Serving.subscription.inj (hserving.symm.trans heq)
  refine { listens := h.listens
           serves := ⟨_, rest, rfl, hsel, ?_, ?_⟩
           since_eq := h.since_eq
           up := h.up
           shut := h.shut
           le := ?_ }
  · have hsplit : (sub.published ++ [event]).drop sub.next =
        sub.published.drop sub.next ++ [event] := List.drop_append_of_le_length hnext
    show s.forwarded ++ s.inFlight ++ (sub.published ++ [event]).drop sub.next = _
    rw [hsplit, List.drop_append_of_le_length hsince, ← hevents, List.append_assoc (_ ++ _)]
  · have hlen : (sub.published ++ [event]).length - sub.next ≤ slots := by
      rw [List.length_append, List.length_singleton]
      omega
    exact hlen
  · rintro sub' rest' heq
    obtain ⟨rfl, rfl⟩ := Serving.subscription.inj heq
    rw [List.length_append]
    exact ⟨hsince.trans (Nat.le_add_right _ _), hnext.trans (Nat.le_add_right _ _)⟩

/-- **A step that keeps the subscription open does.** -/
theorem Opened.step {e : Endpoint σ ε} {l : LinkStep ε} (hok : keepsOpen slots s l = true)
    (h : s.Opened slots since) (hstep : linkStep e slots s l = some s') :
    s'.Opened slots since := by
  obtain ⟨sub, rest, hserving, hsel, hevents, hroom⟩ := h.serves
  obtain ⟨hsince, hnext⟩ := h.le sub rest hserving
  have hstage : s.stage ≠ .connecting ∧ s.stage ≠ .connected := by
    rcases h.listens with hs | hs <;> rw [hs] <;> decide
  cases l with
  | connect =>
    rw [linkStep, if_neg hstage.1] at hstep
    cases hstep
  | refused =>
    rw [linkStep, if_neg hstage.1] at hstep
    cases hstep
  | write =>
    rw [linkStep, if_neg hstage.2] at hstep
    cases hstep
  | split =>
    rw [linkStep] at hstep
    split_ifs at hstep with hs
    obtain rfl := Option.some.inj hstep
    exact { listens := .inr rfl, serves := ⟨sub, rest, hserving, hsel, hevents, hroom⟩,
            since_eq := h.since_eq, up := h.up, shut := by simp, le := h.le }
  | line =>
    rw [linkStep] at hstep
    split_ifs at hstep
    exact h.lineStep hserving hstep
  | publish event =>
    simp only [linkStep, hserving, subscriptionStep, Option.map_some] at hstep
    obtain rfl := Option.some.inj hstep
    have hroom' : sub.published.length - sub.next < slots := by
      simpa [keepsOpen, hserving, h.since_eq] using hok
    exact h.publish hserving hroom' event
  | read =>
    simp [keepsOpen, hserving, h.up] at hok
  | subscribe =>
    simp [linkStep, hserving, subscriptionStep, hsel] at hstep
  | recv =>
    simp only [linkStep, hserving] at hstep
    obtain ⟨sub', hrecv, rfl⟩ := Option.map_eq_some_iff.1 hstep
    obtain ⟨event, hget, rfl⟩ := recv_of_room hroom hsel hrecv
    obtain ⟨hlt, hevent⟩ := List.getElem?_eq_some_iff.1 hget
    refine { listens := h.listens
             serves := ⟨_, rest, rfl, rfl, ?_, ?_⟩
             since_eq := h.since_eq
             up := h.up
             shut := h.shut
             le := ?_ }
    · rw [inFlight_append, List.drop_left]
      rw [List.drop_eq_getElem_cons hlt, hevent, inFlight] at hevents
      simpa [eventOf, inFlight] using hevents
    · exact (Nat.sub_le_sub_left (Nat.le_succ _) _).trans hroom
    · rintro sub' rest' heq
      obtain ⟨rfl, rfl⟩ := Serving.subscription.inj heq
      exact ⟨hsince, hlt⟩
  | resume =>
    simp [linkStep, hserving, hsel] at hstep

end Opened

theorem Good.step {e : Endpoint σ ε} {slots : ℕ} {s s' : Link σ ε} {l : LinkStep ε}
    (hok : keepsOpen slots s l = true) (h : Good slots s) (hstep : linkStep e slots s l = some s') :
    Good slots s' := by
  rcases h with h | ⟨since, h⟩
  · exact h.step hstep
  · exact .inr ⟨since, h.step hok hstep⟩

/-- A subscription that is read to the end of the stream is left. -/
theorem not_keptOpen_of_end {e : Endpoint σ ε} {slots since : ℕ} {s s' : Link σ ε}
    (h : s.Opened slots since) (hstep : linkStep e slots s .read = some s') :
    ¬ s'.KeptOpen slots := by
  obtain ⟨sub, rest, hserving, hsel, -, -⟩ := h.serves
  intro hkept
  simp only [linkStep, hserving, innerRead, if_pos h.up] at hstep
  split_ifs at hstep
  simp only [subscriptionStep, hsel, readStep, Option.map_some] at hstep
  obtain rfl := Option.some.inj hstep
  obtain ⟨sub', rest', heq, hsel', -, -⟩ := (hkept since h.since_eq).serves
  obtain ⟨rfl, -⟩ := Serving.subscription.inj heq
  cases hsel'

/-- **A step that does not keep the subscription open closes it, or loses an event.** -/
theorem Good.keepsOpen {e : Endpoint σ ε} {slots : ℕ} {s s' : Link σ ε} {l : LinkStep ε}
    (h : Good slots s) (hstep : linkStep e slots s l = some s') (hs' : s'.KeptOpen slots) :
    keepsOpen slots s l = true := by
  rcases h with h | ⟨since, h⟩
  · cases l with
    | read =>
      cases hserving : s.serving with
      | subscription sub rest =>
        -- a subscription that is only acknowledged is not read for
        have hack := (h.subscription sub rest hserving).1
        simp only [linkStep, hserving, innerRead] at hstep
        split_ifs at hstep <;> simp [subscriptionStep, hack] at hstep
      | _ => simp [Link.keepsOpen, hserving]
    | publish event => cases hserving : s.serving <;> simp [Link.keepsOpen, hserving, h.since_eq]
    | _ => rfl
  · obtain ⟨sub, rest, hserving, hsel, -, -⟩ := h.serves
    cases l with
    | read => exact absurd hs' (not_keptOpen_of_end h hstep)
    | publish event =>
      simp only [linkStep, hserving, subscriptionStep, Option.map_some] at hstep
      obtain rfl := Option.some.inj hstep
      obtain ⟨sub', rest', heq, -, -, hroom⟩ := (hs' since h.since_eq).serves
      obtain ⟨rfl, -⟩ := Serving.subscription.inj heq
      have hnext := (h.le sub rest hserving).2
      have hlen : (sub.published ++ [event]).length - sub.next ≤ slots := hroom
      rw [List.length_append, List.length_singleton] at hlen
      have hlt : sub.published.length - sub.next < slots := by omega
      simp [Link.keepsOpen, hserving, hlt]
    | _ => rfl

/-- Where the subscriber listens, the stream can be read to its end. -/
theorem Opened.ends {slots since : ℕ} {s : Link σ ε} (h : s.Opened slots since)
    (e : Endpoint σ ε) (hlisten : s.stage = .listening) :
    ∃ s', linkStep e slots s .read = some s' ∧ ¬ s'.KeptOpen slots := by
  obtain ⟨sub, rest, hserving, hsel, -, -⟩ := h.serves
  have hstep : linkStep e slots s .read =
      some { s with serving := .subscription { sub with stage := .left } rest } := by
    simp [linkStep, hserving, innerRead, h.up, h.shut.2 hlisten, subscriptionStep, hsel, readStep]
  exact ⟨_, hstep, not_keptOpen_of_end h hstep⟩

/-! ## Whole runs -/

/-- **How long a subscription stays open**: all along a run, as long as no read of the
serving task finds the end of the stream in a subscription and the channel
has room for every event. **And the end of the stream is there to be read** in
every state of such a run in which the subscriber listens. -/
theorem keptOpen_iff (e : Endpoint σ ε) (slots : ℕ) {ls : List (LinkStep ε)} {s : Link σ ε}
    (hexec : Run.exec (linkStep e slots) .start ls = some s) :
    (Run.Always (linkStep e slots) (KeptOpen slots) .start ls ↔
        Run.meets (linkStep e slots) (Link.keepsOpen slots) .start ls = true) ∧
      (Run.Always (linkStep e slots) (KeptOpen slots) .start ls → s.since.isSome →
        s.stage = .listening → ∃ s', linkStep e slots s .read = some s' ∧ ¬ s'.KeptOpen slots) := by
  have hiff : Run.Always (linkStep e slots) (KeptOpen slots) .start ls ↔
      Run.meets (linkStep e slots) (Link.keepsOpen slots) .start ls = true :=
    Run.always_iff_meets_of (fun _ h => h.keptOpen) (fun _ _ _ hok h hs => h.step hok hs)
      (fun _ _ _ h hs hs' => h.keepsOpen hs hs') (good_start slots) hexec
  refine ⟨hiff, fun hall hsince hlisten => ?_⟩
  have hgood : Good slots s :=
    Run.Reach.invariant (good_start slots) (fun _ _ _ hok h hs => h.step hok hs)
      (Run.reach_of_meets (hiff.1 hall) .init hexec)
  rcases hgood with h | ⟨since, h⟩
  · rw [h.since_eq] at hsince
    cases hsince
  · exact h.ends e hlisten

/-- An endpoint that knows one command. -/
def subscribeEndpoint : Endpoint Unit Unit where
  parse data :=
    if data = subscribeLine.dropLast then .ok .subscribe
    else .error "expected value at line 1 column 1"
  snapshot := ()
  verify _ := ⟨true, []⟩
  eventTx := true

/-- The steps that lead to a subscription. -/
def established : List (LinkStep Unit) := [.connect, .write, .read, .subscribe]

/-- One event, published and forwarded. -/
theorem keptOpen_iff_oneEvent :
    Run.Always (linkStep subscribeEndpoint eventSlots) (KeptOpen eventSlots) .start
      (established ++ [.publish (), .recv, .split, .line, .line]) :=
  (keptOpen_iff subscribeEndpoint eventSlots
    (s := ⟨.listening, .connected, 0, [()], [], true, [],
      .subscription ⟨[()], .selecting true, 1, [(0, ())]⟩ [], some 0⟩) (by decide +kernel)).1.2
    (by decide +kernel)

/-- **The subscriber ends its own subscription**: it splits the stream, and the serving
task reads the end. -/
theorem not_keptOpen_split :
    ¬ ∀ (e : Endpoint Unit Unit) (s : Link Unit Unit),
      Run.Reach (linkStep e eventSlots) Run.Any .start s → s.KeptOpen eventSlots := by
  intro h
  have hexec : Run.exec (linkStep subscribeEndpoint eventSlots) .start
      (established ++ [.split, .read]) =
      some ⟨.listening, .connected, 0, [], [], true, [.ok],
        .subscription ⟨[], .left, 0, []⟩ [], some 0⟩ := by decide +kernel
  obtain ⟨sub, rest, hserving, hsel, -⟩ :=
    (h subscribeEndpoint _ (Run.reach_of_exec hexec .init) 0 rfl).serves
  obtain ⟨rfl, -⟩ := Serving.subscription.inj hserving
  cases hsel

end Link

end Control

end VcOperator
