import VcOperator.Menu.Model.MuxTray
import VcOperator.Status.Model.Snapshot
/-!
# How the tray follows its mux

The snapshots on their way to the menu are in the order in which they were
published: what the task holds is not before what waits in the channel, and
that is not before what is shown. So the menu never goes back. But the
channel keeps what it has, and the new snapshot is dropped: where everything
has come to rest, the menu shows the newest one exactly where the last one
taken was not dropped.
-/

namespace VcOperator

namespace MuxTray

variable {s s' : State}

/-! ## One step -/

/-- The thread is in its loop. -/
def Thread.InLoop : Thread → Prop
  | .menu | .select => True
  | .first | .build _ | .returned => False

/-- The thread has no tray yet. -/
def Thread.Starting : Thread → Prop
  | .first | .build _ => True
  | .menu | .select | .returned => False

/-- **What a step does.** -/
inductive Moves (s : State) : State → Prop
  /-- A snapshot is published. -/
  | publishes {snapshot : Mux.StatusSnapshot} : s.closed = false →
      Moves s { s with channel := s.channel.send snapshot }
  /-- The mux ends, or the stop task tells of it. -/
  | aside {closed cancelled stopSent : Bool} : (s.closed = true → closed = true) →
      Moves s { s with closed := closed, cancelled := cancelled, stopSent := stopSent }
  | borrows : s.forwarder = .borrow →
      Moves s { s with forwarder := .send ⟨s.channel.version, s.channel.value⟩ }
  | sends {snap : Taken} : s.forwarder = .send snap → Moves s (s.sendLatest snap)
  | hears : s.forwarder = .changed →
      Moves s { s with seen := s.channel.version, forwarder := .borrow }
  | ends : s.forwarder = .changed → s.channel.version ≤ s.seen → s.closed = true →
      Moves s { s with forwarder := .ended }
  /-- The thread has its first snapshot. -/
  | begins {snap : Taken} : s.thread = .first → s.queue = some snap →
      Moves s { s with queue := none, thread := .build snap }
  | builds {current : Taken} : s.thread = .build current → Moves s (s.display current)
  | updates {snap : Taken} : s.thread = .select → s.queue = some snap →
      Moves s ({ s with queue := none }.display snap)
  | turns {thread : Thread} : s.thread.InLoop → thread.InLoop →
      Moves s { s with thread := thread }
  | leaves {cancelled : Bool} : Moves s { s.leave with cancelled := cancelled }

theorem moves_of_forward (h : s.forward = some s') : Moves s s' := by
  unfold State.forward at h
  cases hforwarder : s.forwarder with
  | borrow =>
    rw [hforwarder] at h
    cases h
    exact .borrows hforwarder
  | send snap =>
    rw [hforwarder] at h
    cases h
    exact .sends hforwarder
  | changed =>
    rw [hforwarder] at h
    dsimp only at h
    split_ifs at h with hseen hclosed
    · cases h
      exact .hears hforwarder
    · cases h
      exact .ends hforwarder (Nat.not_lt.1 hseen) hclosed
  | ended =>
    rw [hforwarder] at h
    cases h

theorem sendLatest_of_returned {snap : Taken} (h : s.thread = .returned) :
    s.sendLatest snap = { s with forwarder := .changed } := by
  rw [State.sendLatest, h]

theorem sendLatest_of_room {snap : Taken} (h : s.thread ≠ .returned) (hqueue : s.queue = none) :
    s.sendLatest snap = { s with queue := some snap, forwarder := .changed, found := true } := by
  unfold State.sendLatest
  cases hthread : s.thread with
  | returned => exact absurd hthread h
  | first | build _ | menu | select => simp [hqueue]

theorem sendLatest_of_full {snap held : Taken} (h : s.thread ≠ .returned)
    (hqueue : s.queue = some held) : s.sendLatest snap =
      { s with forwarder := .changed, found := held.version == snap.version } := by
  unfold State.sendLatest
  cases hthread : s.thread with
  | returned => exact absurd hthread h
  | first | build _ | menu | select => simp [hqueue]

/-- What is received, if anything. -/
theorem receive_cases {take : Taken → State → State} (h : s.receive take = some s') :
    (∃ snap, s.queue = some snap ∧ s' = take snap { s with queue := none }) ∨ s' = s.leave := by
  unfold State.receive at h
  cases hqueue : s.queue with
  | some snap =>
    rw [hqueue] at h
    exact .inl ⟨snap, rfl, (Option.some.inj h).symm⟩
  | none =>
    rw [hqueue] at h
    dsimp only at h
    split at h
    · exact .inr (Option.some.inj h).symm
    · cases h

theorem moves_leave : Moves s s.leave := .leaves

theorem moves_of_trayLoop {op : ThreadOp} (h : s.trayLoop op = some s') : Moves s s' := by
  cases op with
  | recv =>
    cases hthread : s.thread with
    | first =>
      simp only [State.trayLoop, hthread] at h
      obtain ⟨snap, hqueue, rfl⟩ | rfl := receive_cases h
      · exact .begins hthread hqueue
      · exact moves_leave
    | select =>
      simp only [State.trayLoop, hthread] at h
      obtain ⟨snap, hqueue, rfl⟩ | rfl := receive_cases h
      · exact .updates hthread hqueue
      · exact moves_leave
    | build _ | menu | returned => simp [State.trayLoop, hthread] at h
  | built ok =>
    cases hthread : s.thread with
    | build current =>
      simp only [State.trayLoop, hthread, Option.some.injEq] at h
      subst h
      split_ifs
      · exact .builds hthread
      · exact moves_leave
    | first | menu | select | returned => simp [State.trayLoop, hthread] at h
  | clicked quit =>
    cases hthread : s.thread with
    | menu =>
      simp only [State.trayLoop, hthread, Option.some.injEq] at h
      subst h
      split_ifs
      · exact .leaves
      · exact .aside id
    | first | build _ | select | returned => simp [State.trayLoop, hthread] at h
  | noEvent =>
    cases hthread : s.thread with
    | menu =>
      simp only [State.trayLoop, hthread, Option.some.injEq] at h
      subst h
      exact .turns (by rw [hthread]; trivial) trivial
    | first | build _ | select | returned => simp [State.trayLoop, hthread] at h
  | stop =>
    cases hthread : s.thread with
    | select =>
      simp only [State.trayLoop, hthread] at h
      split_ifs at h
      cases h
      exact moves_leave
    | first | build _ | menu | returned => simp [State.trayLoop, hthread] at h
  | timeout =>
    simp only [State.trayLoop] at h
    split at h
    · cases h
    · rename_i hthread _ _
      split_ifs at h
      cases h
      exact .turns (by rw [hthread]; trivial) trivial
    · cases h

/-- **Every step is one of these.** -/
theorem moves_of_step {event : Event} (h : s.step event = some s') : Moves s s' := by
  cases event with
  | publish snapshot =>
    simp only [State.step] at h
    split_ifs at h with hclosed
    cases h
    exact .publishes (Bool.not_eq_true _ ▸ hclosed)
  | close =>
    simp only [State.step] at h
    split_ifs at h
    cases h
    exact .aside fun _ => rfl
  | cancel =>
    cases h
    exact .aside id
  | forward => exact moves_of_forward h
  | tellStop =>
    simp only [State.step] at h
    split_ifs at h
    cases h
    exact .aside id
  | thread op => exact moves_of_trayLoop h

/-! ## The snapshots on their way -/

/-- What the thread has received last. -/
def State.arrived (s : State) : Option Taken :=
  match s.thread with
  | .build current => some current
  | _ => s.current

/-- What was put in the channel last, if it has not returned from it. -/
def State.accepted (s : State) : Option Taken := s.queue.or s.arrived

/-- A snapshot is on its way, or shown. -/
def State.Holds (s : State) (snap : Taken) : Prop :=
  s.forwarder = .send snap ∨ s.queue = some snap ∨ s.arrived = some snap

/-- The task waits, or has ended. -/
def Forwarder.Waits : Forwarder → Prop
  | .changed | .ended => True
  | .borrow | .send _ => False

/-- **The snapshots are in order.** -/
structure State.Ordered (s : State) : Prop where
  published : ∀ snap, s.Holds snap → s.channel.get snap.version = some snap.snapshot
  seen : s.seen ≤ s.channel.version
  queue : ∀ a q, s.arrived = some a → s.queue = some q → a.version ≤ q.version
  sending : ∀ snap, s.forwarder = .send snap → s.seen ≤ snap.version ∧
    ∀ a, s.accepted = some a → a.version ≤ snap.version
  /-- What the task took last: it was told of nothing later, and what was put
  in the channel last is it exactly where it was found there. -/
  waits : s.forwarder.Waits → s.thread ≠ .returned → ∃ n, s.seen ≤ n ∧ n ≤ s.channel.version ∧
    ∃ a, s.accepted = some a ∧ a.version ≤ n ∧ (s.found = true ↔ a.version = n)
  ended : s.forwarder = .ended → s.closed = true ∧ s.channel.version ≤ s.seen
  starting : s.thread.Starting → s.current = none
  looping : s.thread.InLoop → s.current.isSome
  ui : s.ui = s.current.map fun snap => .of snap.snapshot

theorem State.arrived_of_inLoop (h : s.thread.InLoop) : s.arrived = s.current := by
  unfold State.arrived
  cases hthread : s.thread with
  | build _ =>
    rw [hthread] at h
    exact h.elim
  | first | menu | select | returned => rfl

/-- What waits in the channel was accepted last. -/
theorem State.accepted_of_queue {q : Taken} (h : s.queue = some q) : s.accepted = some q := by
  rw [State.accepted, h]
  rfl

theorem State.accepted_of_empty (h : s.queue = none) : s.accepted = s.arrived := by
  rw [State.accepted, h]
  rfl

theorem Thread.InLoop.ne_returned {thread : Thread} (h : thread.InLoop) : thread ≠ .returned := by
  rintro rfl
  exact h

namespace State.Ordered

/-- What is shown has arrived. -/
theorem arrived_of_current (h : s.Ordered) {a : Taken} (ha : s.current = some a) :
    s.arrived = some a := by
  unfold State.arrived
  cases hthread : s.thread with
  | build current =>
    rw [h.starting (by rw [hthread]; trivial)] at ha
    cases ha
  | first | menu | select | returned => exact ha

/-- What has arrived is not after what was accepted last. -/
theorem le_accepted (h : s.Ordered) {a : Taken} (ha : s.arrived = some a) :
    ∃ b, s.accepted = some b ∧ a.version ≤ b.version := by
  cases hqueue : s.queue with
  | none => exact ⟨a, by rw [s.accepted_of_empty hqueue, ha], Nat.le_refl _⟩
  | some q => exact ⟨q, s.accepted_of_queue hqueue, h.queue a q ha hqueue⟩

theorem accepted_cases {a : Taken} (ha : s.accepted = some a) :
    s.queue = some a ∨ s.arrived = some a := by
  cases hqueue : s.queue with
  | none => exact .inr (by rw [← s.accepted_of_empty hqueue, ha])
  | some q =>
    rw [s.accepted_of_queue hqueue] at ha
    exact .inl ha

theorem le_version (h : s.Ordered) {a : Taken} (ha : s.Holds a) :
    a.version ≤ s.channel.version := by
  rw [← Watch.isSome_get_iff, h.published a ha]
  rfl

theorem accepted_le_version (h : s.Ordered) {a : Taken} (ha : s.accepted = some a) :
    a.version ≤ s.channel.version :=
  h.le_version (.inr (accepted_cases ha))

/-- The task has nothing in its hands any more. -/
theorem waiting (h : s.Ordered) {t : State} (hforwarder : t.forwarder.Waits)
    (hqueue : t.queue = s.queue) (harrived : t.arrived = s.arrived)
    (hchannel : t.channel = s.channel) :
    ∀ a, t.Holds a → t.channel.get a.version = some a.snapshot := by
  rintro a (ha | ha | ha)
  · rw [ha] at hforwarder
    exact hforwarder.elim
  · rw [hchannel]
    exact h.published a (.inr (.inl (hqueue ▸ ha)))
  · rw [hchannel]
    exact h.published a (.inr (.inr (harrived ▸ ha)))

/-- `send_latest` keeps the order. -/
theorem sendLatest (h : s.Ordered) {snap : Taken} (hsnap : s.forwarder = .send snap) :
    (s.sendLatest snap).Ordered := by
  obtain ⟨hseen, hle⟩ := h.sending snap hsnap
  have hversion := h.le_version (.inl hsnap)
  by_cases hreturned : s.thread = .returned
  · rw [sendLatest_of_returned hreturned]
    exact {
      published := h.waiting trivial rfl rfl rfl
      seen := h.seen
      queue := h.queue
      sending := fun _ hsend => by cases hsend
      waits := fun _ hthread => absurd hreturned hthread
      ended := fun hended => by cases hended
      starting := h.starting
      looping := h.looping
      ui := h.ui }
  cases hqueue : s.queue with
  | none =>
    rw [sendLatest_of_room hreturned hqueue]
    refine ⟨?_, h.seen, ?_, fun _ hsend => (by cases hsend), ?_, fun hended => (by cases hended),
      h.starting, h.looping, h.ui⟩
    · rintro a (ha | ha | ha)
      · cases ha
      · cases ha
        exact h.published _ (.inl hsnap)
      · exact h.published a (.inr (.inr ha))
    · intro a q ha hq
      cases hq
      exact hle a (by rw [s.accepted_of_empty hqueue]; exact ha)
    · intro _ _
      exact ⟨snap.version, hseen, hversion, snap, rfl, Nat.le_refl _, by simp⟩
  | some held =>
    rw [sendLatest_of_full hreturned hqueue]
    have haccepted := s.accepted_of_queue hqueue
    refine ⟨h.waiting trivial rfl rfl rfl, h.seen, h.queue, fun _ hsend => (by cases hsend), ?_,
      fun hended => (by cases hended), h.starting, h.looping, h.ui⟩
    intro _ _
    exact ⟨snap.version, hseen, hversion, held, haccepted, hle held haccepted, beq_iff_eq⟩

/-- The thread moves on, and what was accepted last stays on its way, or arrives. -/
theorem atThread (h : s.Ordered) {t : State} (hthread : s.thread ≠ .returned)
    (hchannel : t.channel = s.channel) (hclosed : t.closed = s.closed) (hseen : t.seen = s.seen)
    (hforwarder : t.forwarder = s.forwarder) (hfound : t.found = s.found)
    (haccepted : t.accepted = s.accepted)
    (hqueue : t.queue = none ∨ t.queue = s.queue ∧ t.arrived = s.arrived)
    (starting : t.thread.Starting → t.current = none)
    (looping : t.thread.InLoop → t.current.isSome)
    (ui : t.ui = t.current.map fun snap => .of snap.snapshot) : t.Ordered := by
  refine ⟨?_, ?_, ?_, ?_, ?_, ?_, starting, looping, ui⟩
  · rintro a (ha | ha)
    · rw [hchannel]
      exact h.published a (.inl (hforwarder ▸ ha))
    · rw [hchannel]
      refine h.published a (.inr ?_)
      obtain hnone | ⟨hsame, harrived⟩ := hqueue
      · have hacc := t.accepted_of_empty hnone
        rw [hnone] at ha
        refine accepted_cases ?_
        rw [← haccepted, hacc]
        exact ha.resolve_left nofun
      · rwa [hsame, harrived] at ha
  · rw [hseen, hchannel]
    exact h.seen
  · intro a q ha hq
    obtain hnone | ⟨hsame, harrived⟩ := hqueue
    · rw [hnone] at hq
      cases hq
    · exact h.queue a q (harrived ▸ ha) (hsame ▸ hq)
  · intro snap hsnap
    rw [hseen, haccepted]
    exact h.sending snap (hforwarder ▸ hsnap)
  · intro hwaits _
    rw [hseen, hchannel, haccepted, hfound]
    exact h.waits (hforwarder ▸ hwaits) hthread
  · intro hended
    rw [hclosed, hchannel, hseen]
    exact h.ended (hforwarder ▸ hended)

/-- **A step keeps the order.** -/
theorem moves (h : s.Ordered) (hmoves : Moves s s') : s'.Ordered := by
  cases hmoves with
  | publishes hclosed =>
    refine ⟨?_, ?_, h.queue, h.sending, ?_, ?_, h.starting, h.looping, h.ui⟩
    · intro a ha
      rw [Watch.get_send _ _ (h.le_version ha)]
      exact h.published a ha
    · rw [Watch.version_send]
      exact Nat.le_succ_of_le h.seen
    · intro hforwarder hthread
      obtain ⟨n, hseen, hn, hrest⟩ := h.waits hforwarder hthread
      refine ⟨n, hseen, ?_, hrest⟩
      rw [Watch.version_send]
      exact Nat.le_succ_of_le hn
    · intro hended
      rw [(h.ended hended).1] at hclosed
      cases hclosed
  | aside hclosed =>
    exact ⟨h.published, h.seen, h.queue, h.sending, h.waits,
      fun hended => ⟨hclosed (h.ended hended).1, (h.ended hended).2⟩, h.starting, h.looping, h.ui⟩
  | borrows hforwarder =>
    refine ⟨?_, h.seen, h.queue, ?_, fun hwaits => hwaits.elim, fun hended => (by cases hended),
      h.starting, h.looping, h.ui⟩
    · rintro a (ha | ha)
      · cases ha
        exact s.channel.get_version
      · exact h.published a (.inr ha)
    · intro snap hsnap
      cases hsnap
      exact ⟨h.seen, fun a ha => h.accepted_le_version ha⟩
  | sends hsnap => exact h.sendLatest hsnap
  | hears hforwarder =>
    refine ⟨?_, Nat.le_refl _, h.queue, fun _ hsend => (by cases hsend), fun hwaits => hwaits.elim,
      fun hended => (by cases hended), h.starting, h.looping, h.ui⟩
    rintro a (ha | ha)
    · cases ha
    · exact h.published a (.inr ha)
  | ends hforwarder hle hclosed =>
    refine ⟨h.waiting trivial rfl rfl rfl, h.seen, h.queue, fun _ hsend => (by cases hsend), ?_,
      fun _ => ⟨hclosed, hle⟩, h.starting, h.looping, h.ui⟩
    exact fun _ hthread => h.waits (by rw [hforwarder]; trivial) hthread
  | @begins snap hthread hqueue =>
    have hcurrent := h.starting (by rw [hthread]; trivial)
    have haccepted := (s.accepted_of_queue hqueue).symm
    exact h.atThread (by simp [hthread]) rfl rfl rfl rfl rfl haccepted (.inl rfl)
      (fun _ => hcurrent) (fun hloop => hloop.elim) h.ui
  | @builds current hthread =>
    have harrived : s.arrived = some current := by rw [State.arrived, hthread]
    have haccepted : (s.display current).accepted = s.accepted := by
      rw [State.accepted, State.accepted, harrived]
      rfl
    exact h.atThread (by simp [hthread]) rfl rfl rfl rfl rfl haccepted
      (.inr ⟨rfl, harrived.symm⟩) (fun hstarting => hstarting.elim) (fun _ => rfl) rfl
  | @updates snap hthread hqueue =>
    have haccepted := (s.accepted_of_queue hqueue).symm
    exact h.atThread (by simp [hthread]) rfl rfl rfl rfl rfl haccepted (.inl rfl)
      (fun hstarting => hstarting.elim) (fun _ => rfl) rfl
  | @turns thread hloop hthread =>
    have harrived : State.arrived { s with thread := thread } = s.arrived := by
      rw [s.arrived_of_inLoop hloop, State.arrived_of_inLoop hthread]
    have haccepted : State.accepted { s with thread := thread } = s.accepted := by
      rw [State.accepted, harrived]
      rfl
    refine h.atThread hloop.ne_returned rfl rfl rfl rfl rfl haccepted (.inr ⟨rfl, harrived⟩) ?_
      (fun _ => h.looping hloop) h.ui
    intro hstarting
    cases thread with
    | first | build _ => exact hthread.elim
    | menu | select | returned => exact hstarting.elim
  | leaves =>
    refine ⟨?_, h.seen, fun _ _ _ hq => (by cases hq), ?_, fun _ hthread => absurd rfl hthread,
      h.ended, fun hstarting => hstarting.elim, fun hloop => hloop.elim, h.ui⟩
    · rintro a (ha | ha | ha)
      · exact h.published a (.inl ha)
      · cases ha
      · exact h.published a (.inr (.inr (h.arrived_of_current ha)))
    · intro snap hsnap
      obtain ⟨hseen, hle⟩ := h.sending snap hsnap
      refine ⟨hseen, fun a ha => ?_⟩
      obtain ⟨b, hb, hab⟩ := h.le_accepted (h.arrived_of_current ha)
      exact Nat.le_trans hab (hle b hb)

/-- **The menu never goes back**, in one step. -/
theorem current_moves (h : s.Ordered) (hmoves : Moves s s') {a : Taken}
    (ha : s.current = some a) : ∃ b, s'.current = some b ∧ a.version ≤ b.version := by
  cases hmoves with
  | sends hsnap =>
    refine ⟨a, ?_, Nat.le_refl _⟩
    unfold State.sendLatest
    split
    · exact ha
    · split <;> exact ha
  | builds hthread =>
    rw [h.starting (by rw [hthread]; trivial)] at ha
    cases ha
  | updates hthread hqueue =>
    exact ⟨_, rfl, h.queue a _ (h.arrived_of_current ha) hqueue⟩
  | publishes _ | aside _ | borrows _ | hears _ | ends _ _ _ | begins _ _ | turns _ _ | leaves =>
    exact ⟨a, ha, Nat.le_refl _⟩

end State.Ordered

/-! ## A run -/

theorem ordered_init (initial : Mux.StatusSnapshot) : (State.init initial).Ordered where
  published a ha := by
    obtain ha | ha | ha := ha <;> cases ha
  seen := Nat.le_refl _
  queue _ _ ha := by cases ha
  sending _ hsend := by cases hsend
  waits hwaits := hwaits.elim
  ended hended := by cases hended
  starting _ := rfl
  looping hloop := hloop.elim
  ui := rfl

theorem ordered_of_reach {initial : Mux.StatusSnapshot}
    (h : Run.Reach State.step Run.Any (State.init initial) s) : s.Ordered :=
  h.invariant (ordered_init initial) fun _ _ _ _ hs hstep => hs.moves (moves_of_step hstep)

theorem State.Ordered.current_reach (hs : s.Ordered) (h : Run.Reach State.step Run.Any s s')
    {a : Taken} (ha : s.current = some a) :
    ∃ b, s'.current = some b ∧ a.version ≤ b.version := by
  have hboth : s'.Ordered ∧ ∃ b, s'.current = some b ∧ a.version ≤ b.version := by
    refine h.invariant (I := fun t => t.Ordered ∧ ∃ b, t.current = some b ∧ a.version ≤ b.version)
      ⟨hs, a, ha, Nat.le_refl _⟩ ?_
    rintro t event t' - ⟨ht, b, hb, hab⟩ hstep
    obtain ⟨c, hc, hbc⟩ := ht.current_moves (moves_of_step hstep) hb
    exact ⟨ht.moves (moves_of_step hstep), c, hc, Nat.le_trans hab hbc⟩
  exact hboth.2

/-! ## At rest -/

/-- Nothing is on its way: the task has nothing to do, the channel is empty,
and the thread is in its loop. -/
structure State.Rests (s : State) : Prop where
  forward : s.forward = none
  queue : s.queue = none
  thread : s.thread.InLoop

/-- The menu shows the newest snapshot there is. -/
def State.ShowsNewest (s : State) : Prop :=
  s.current.map Taken.version = some s.channel.version

theorem forward_eq_none_iff : s.forward = none ↔ s.forwarder = .ended ∨
    s.forwarder = .changed ∧ s.channel.version ≤ s.seen ∧ s.closed = false := by
  unfold State.forward
  cases s.forwarder with
  | borrow | send _ => simp
  | changed =>
    dsimp only
    split_ifs with hseen hclosed
    · simp [Nat.not_le.2 hseen]
    · simp [hclosed]
    · simp [Nat.not_lt.1 hseen, hclosed]
  | ended => simp

/-- **At rest the menu shows the newest snapshot exactly where the last one
taken was not dropped.** -/
theorem State.Ordered.showsNewest_iff (h : s.Ordered) (hrests : s.Rests) :
    s.ShowsNewest ↔ s.found = true := by
  have hwaits : s.forwarder.Waits ∧ s.channel.version ≤ s.seen := by
    obtain hended | ⟨hchanged, hle, -⟩ := forward_eq_none_iff.1 hrests.forward
    · rw [hended]
      exact ⟨trivial, (h.ended hended).2⟩
    · rw [hchanged]
      exact ⟨trivial, hle⟩
  obtain ⟨n, hseen, hn, a, ha, -, hfound⟩ := h.waits hwaits.1 hrests.thread.ne_returned
  have hnewest : n = s.channel.version := by omega
  rw [s.accepted_of_empty hrests.queue, s.arrived_of_inLoop hrests.thread] at ha
  rw [hfound, hnewest, State.ShowsNewest, ha, Option.map_some, Option.some.injEq]

theorem State.Ordered.ui_of_showsNewest (h : s.Ordered) (hnewest : s.ShowsNewest) :
    s.ui = some (.of s.channel.value) := by
  obtain ⟨a, ha, hversion⟩ := Option.map_eq_some_iff.1 hnewest
  have hpublished := h.published a (.inr (.inr (h.arrived_of_current ha)))
  rw [hversion, Watch.get_version, Option.some.injEq] at hpublished
  rw [h.ui, ha, Option.map_some, hpublished]

/-- **The tray follows its mux.** All of its menu is of one snapshot that was
published; it never goes back to an earlier one; and at rest it shows the
newest one exactly where the last one taken was not dropped. -/
theorem tray_follows {initial : Mux.StatusSnapshot}
    (h : Run.Reach State.step Run.Any (State.init initial) s)
    (h' : Run.Reach State.step Run.Any s s') :
    (∀ ui, s.ui = some ui → ∃ n snapshot, s.current = some ⟨n, snapshot⟩ ∧
      s.channel.get n = some snapshot ∧ ui = .of snapshot) ∧
    (∀ a, s.current = some a → ∃ b, s'.current = some b ∧ a.version ≤ b.version) ∧
    (s.Rests → (s.ShowsNewest ↔ s.found = true) ∧
      (s.ShowsNewest → s.ui = some (.of s.channel.value))) := by
  have hs := ordered_of_reach h
  refine ⟨?_, fun a ha => hs.current_reach h' ha,
    fun hrests => ⟨hs.showsNewest_iff hrests, hs.ui_of_showsNewest⟩⟩
  intro ui hui
  rw [hs.ui] at hui
  obtain ⟨a, ha, rfl⟩ := Option.map_eq_some_iff.1 hui
  exact ⟨a.version, a.snapshot, ha, hs.published a (.inr (.inr (hs.arrived_of_current ha))), rfl⟩

/-- A snapshot is published while the first one waits for the thread: it is dropped. -/
def burst (next : Mux.StatusSnapshot) : List Event :=
  [.forward, .forward, .publish next, .forward, .forward, .forward, .thread .recv,
    .thread (.built true), .thread .noEvent]

/-- **The tray may rest on an old snapshot**, whichever two there are. -/
theorem exists_stale (initial next : Mux.StatusSnapshot) : ∃ s,
    Run.Reach State.step Run.Any (State.init initial) s ∧ s.Rests ∧ s.found = false ∧
      s.ui = some (.of initial) ∧ s.channel.value = next := by
  have hexec : Run.exec State.step (State.init initial) (burst next) = some _ := rfl
  exact ⟨_, Run.reach_of_exec hexec .init, ⟨rfl, rfl, trivial⟩, rfl, rfl, rfl⟩

theorem tray_follows_burst : ∃ s,
    Run.Reach State.step Run.Any (State.init (Mux.snapshotForState Status.idleState 0 0)) s ∧
      s.Rests ∧ ¬ s.ShowsNewest := by
  obtain ⟨s, hreach, hrests, hfound, -⟩ := exists_stale
    (Mux.snapshotForState Status.idleState 0 0) (Mux.snapshotForState Status.idleState 0 1)
  refine ⟨s, hreach, hrests, fun hnewest => ?_⟩
  obtain ⟨-, -, hrest⟩ := tray_follows hreach .init
  rw [(hrest hrests).1, hfound] at hnewest
  cases hnewest

end MuxTray

end VcOperator
