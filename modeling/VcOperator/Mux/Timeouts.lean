import VcOperator.Mux.Helpers.Ids
import VcOperator.Mux.Helpers.Publishing
/-!
# Requests and their timeout

The reaper sweeps `pending` in one lock section, at one instant. What it
leaves is not older than the timeout at that instant, and what comes after
it is younger; so what is pending is never older than the timeout and the
time since the last sweep. `noteSweep` is history: the time of that sweep.
-/

namespace VcOperator

namespace Mux

variable {cfg : Config} {s s' : System} {sh sh' : Shared} {l : Label} {c : ℕ}

/-- The time of the last sweep. -/
def noteSweep (sweep : ℕ) (s : System) : Label → ℕ
  | .reaper _ =>
    match s.reaper with
    | .reap _ :: _ => s.shared.now
    | _ => sweep
  | _ => sweep

/-! ## When an entry is made -/

/-- **An entry bears the time at which it is made**, and no operation takes time. -/
structure Timed (sh sh' : Shared) : Prop where
  now : sh'.now = sh.now
  entries : ∀ k p, sh'.st.pending.get k = some p →
    sh.st.pending.get k = some p ∨ p.startedAt = sh.now

theorem Timed.of_shrinks (hnow : sh'.now = sh.now) (h : Shrinks sh sh') : Timed sh sh' :=
  ⟨hnow, fun k p hp => .inl (h.pending k p hp)⟩

theorem timed_insertPending (sh : Shared) (c : ℕ) (lid : Tagged Value) (isInitialize : Bool) :
    Timed sh (ClientOp.insertPending sh c lid isInitialize) := by
  refine ⟨rfl, fun k p hp => ?_⟩
  rw [ClientOp.insertPending] at hp
  by_cases hk : k = globalId c sh.st.nextGlobalId
  · subst hk
    rw [HashMap.get_insert, Option.some.injEq] at hp
    exact .inr (hp ▸ rfl)
  · rw [HashMap.get_insert_ne hk] at hp
    exact .inl hp

namespace ClientOp

variable {ops : List ClientOp}

theorem Forwarded.timed {msg : Tagged Value} (h : Forwarded c msg sh sh' ops) :
    Timed sh sh' := by
  cases h with
  | noId => exact .of_shrinks rfl (Quiet.refl sh).shrinks
  | refused => exact .of_shrinks rfl (shrinks_replyAll sh _)
  | forwarded => exact timed_insertPending sh c _ false

theorem Initialized.timed {val : Value} {lid : Tagged Value}
    (h : Initialized c val lid (initializePending sh c) sh' ops) : Timed sh sh' := by
  have hpending : (initializePending sh c).st.pending = sh.st.pending :=
    (quiet_initializePending sh c).pending
  have hsame (h : sh'.st.pending = (initializePending sh c).st.pending) (hnow : sh'.now = sh.now) :
      Timed sh sh' := by
    refine ⟨hnow, fun k p hp => .inl ?_⟩
    rwa [h, hpending] at hp
  cases h with
  | cached | parked | refused => exact hsame rfl rfl
  | forwarded =>
    obtain ⟨hnow, hentries⟩ := timed_insertPending (initializePending sh c) c lid true
    refine ⟨hnow, fun k p hp => ?_⟩
    rw [← hpending]
    exact hentries k p hp

theorem timed_run {enc : Value → ℕ} {op : ClientOp} (h : op.run enc c sh = some (sh', ops)) :
    Timed sh sh' := by
  have hkeys := issues_run h
  cases op with
  | forwardRequest msg =>
    rw [run, Option.some.injEq] at h
    exact (forwarded_of_run h).timed
  | flushBuffered buffered =>
    cases buffered with
    | nil =>
      cases h
      exact ⟨rfl, fun _ _ hp => .inl hp⟩
    | cons msg buffered =>
      cases hr : runForwardRequest c msg sh with
      | mk sh₁ ops₁ =>
        rw [run, hr] at h
        cases h
        exact (forwarded_of_run hr).timed
  | handleInitialize val lid =>
    rw [run, Option.some.injEq] at h
    exact (initialized_of_run h).timed
  | send msg isInitialize =>
    simp only [run] at h
    split at h
    · cases h
      exact ⟨rfl, fun _ _ hp => .inl hp⟩
    · split at h <;> cases h
      cases isInitialize <;> exact ⟨rfl, fun _ _ hp => .inl hp⟩
  | markServerInitialized msg | trySend msg | checkHandshake msg =>
    simp only [run] at h
    split at h <;> cases h <;> exact ⟨rfl, fun _ _ hp => .inl hp⟩
  | completeHandshake =>
    cases h
    obtain ⟨hs, hst, -⟩ := sh.st.markHandshakeComplete_spec c
    rw [hst]
    exact ⟨rfl, fun _ _ hp => .inl hp⟩
  | bufferMessage msg =>
    cases h
    obtain ⟨hs, hst, -⟩ := sh.st.bufferMessage_spec c msg
    rw [hst]
    exact ⟨rfl, fun _ _ hp => .inl hp⟩
  | unregisterClient =>
    cases h
    exact .of_shrinks rfl (shrinks_unregister sh c)
  | handleClientMessage _ | rejectTooLarge _ | rejectHandshakeTimeout | updateQueueDepth
  | publishStatus | releasePermit =>
    cases h
    exact ⟨rfl, fun _ _ hp => .inl hp⟩

end ClientOp

/-- **No step makes an entry of another time.** -/
theorem Stepped.entries_timed (h : Stepped cfg s l s') {k : String} {p : Pending}
    (hp : s'.shared.st.pending.get k = some p) :
    s.shared.st.pending.get k = some p ∨ p.startedAt = s.shared.now := by
  cases h with
  | handler _ hrun | writer _ hrun => exact (ClientOp.timed_run hrun).entries k p hp
  | @routerTurn event rest =>
    rw [RouterOp.dispatch_frame event rest s.shared] at hp
    exact .inl hp
  | router _ hrun => exact .inl ((RouterOp.shrinks_run hrun).pending k p hp)
  | reaper _ hrun => exact .inl ((ReaperOp.shrinks_run hrun).pending k p hp)
  | heartbeat _ hrun =>
    rw [HeartbeatOp.run_frame hrun] at hp
    exact .inl hp
  | manager _ _ hrun =>
    rw [ManagerOp.run_frame hrun] at hp
    exact .inl hp
  | connect | receive | disconnect | decodeError | handshakeTimeout | handshakeTick | writerFails
  | reaperTick | heartbeatTick | heartbeatEvent | childOutput | readerEnds | childExits
  | shutdown | elapse => exact .inl hp

/-- **Time does not go back.** -/
theorem Stepped.now_le (h : Stepped cfg s l s') : s.shared.now ≤ s'.shared.now := by
  cases h with
  | handler _ hrun | writer _ hrun => exact Nat.le_of_eq (ClientOp.timed_run hrun).now.symm
  | @routerTurn event rest =>
    rw [RouterOp.dispatch_frame event rest s.shared]
  | router _ hrun => rw [RouterOp.run_frame hrun]
  | reaper _ hrun => rw [ReaperOp.run_frame hrun]
  | heartbeat _ hrun => rw [HeartbeatOp.run_frame hrun]
  | manager _ _ hrun => rw [ManagerOp.run_frame hrun]
  | elapse => exact Nat.le_add_right _ _
  | connect | receive | disconnect | decodeError | handshakeTimeout | handshakeTick | writerFails
  | reaperTick | heartbeatTick | heartbeatEvent | childOutput | readerEnds | childExits
  | shutdown => exact Nat.le_refl _

/-! ## The sweep -/

theorem mem_valuesIn_iff {order : List String} (horder : order.Perm sh.st.pending.keys)
    {p : Pending} :
    p ∈ sh.st.pending.valuesIn order ↔ ∃ k, sh.st.pending.get k = some p := by
  rw [(HashMap.valuesIn_perm horder).mem_iff, HashMap.mem_values_iff]

/-- **What a sweep does**: it takes out what is older than its timeout, to be answered. -/
theorem ReaperOp.reap_run {order : List String} {timeout : ℕ} {ops : List ReaperOp}
    (h : (ReaperOp.reap timeout).run order sh = some (sh', ops)) :
    (∀ k p, sh'.st.pending.get k = some p ↔
      sh.st.pending.get k = some p ∧ sh.now - p.startedAt ≤ timeout) ∧
    ∃ expired, (∀ c lid, (c, lid) ∈ expired ↔ ∃ k p, sh.st.pending.get k = some p ∧
        timeout < sh.now - p.startedAt ∧ p.clientId = c ∧ p.localId = lid) ∧
      ops = (if expired.isEmpty then [] else [.replyExpired expired]) ++ [.publishStatus] := by
  simp only [run] at h
  split at h
  · rename_i horder
    cases h
    constructor
    · intro k p
      constructor
      · intro hp
        have hkeep := (List.mem_filter.1 (HashMap.mem_entries_iff.2 hp)).2
        exact ⟨HashMap.get_of_get_retain hp, by simpa [isExpired] using hkeep⟩
      · rintro ⟨hp, hle⟩
        exact HashMap.get_retain_of_pos hp (by simpa [isExpired] using hle)
    · refine ⟨((sh.st.pending.valuesIn order).filter (isExpired sh.now timeout)).map
        fun p => (p.clientId, p.localId), ?_, ?_⟩
      · intro c lid
        simp only [List.mem_map, List.mem_filter, mem_valuesIn_iff horder, isExpired,
          decide_eq_true_eq, Prod.mk.injEq]
        constructor
        · rintro ⟨p, ⟨⟨k, hp⟩, hlt⟩, hclient, hid⟩
          exact ⟨k, p, hp, hlt, hclient, hid⟩
        · rintro ⟨k, p, hp, hlt, hclient, hid⟩
          exact ⟨p, ⟨⟨k, hp⟩, hlt⟩, hclient, hid⟩
      · rw [List.isEmpty_map]
  · cases h

/-- The timeout of a sweep is read from the state. -/
theorem ReaperOp.reap_mem {order : List String} {op : ReaperOp} {ops : List ReaperOp}
    {timeout : ℕ} (h : op.run order sh = some (sh', ops)) (hmem : .reap timeout ∈ ops) :
    timeout = sh.st.requestTimeout := by
  cases op with
  | readTimeout =>
    cases h
    rw [List.mem_singleton, ReaperOp.reap.injEq] at hmem
    exact hmem
  | reap t =>
    obtain ⟨-, expired, -, rfl⟩ := reap_run h
    split_ifs at hmem <;> simp at hmem
  | replyExpired _ | publishStatus =>
    cases h
    exact absurd hmem List.not_mem_nil

/-- What the reaper sweeps with is the timeout of the mux. -/
theorem Reachable.timeout_eq {ok : System → Label → Prop} (h : Reachable cfg ok s) {timeout : ℕ}
    (hmem : .reap timeout ∈ s.reaper) : timeout = cfg.state.requestTimeout := by
  have hinv : ∀ timeout, .reap timeout ∈ s.reaper → timeout = cfg.state.requestTimeout := by
    refine h.invariant_of
      (I := fun s => ∀ timeout, .reap timeout ∈ s.reaper → timeout = cfg.state.requestTimeout)
      (J := Reachable cfg ok) (fun _ hr => hr)
      (fun _ hmem => absurd hmem List.not_mem_nil) ?_
    intro s l s' _ hr hs hstep
    cases stepped_of_step hstep with
    | reaperTick => simp
    | @reaper order op rest ops sh hops hrun =>
      intro timeout hmem
      rcases List.mem_append.1 hmem with hmem | hmem
      · rw [ReaperOp.reap_mem hrun hmem]
        exact congrArg Settings.requestTimeout hr.settings_eq
      · exact hs timeout (hops ▸ List.mem_cons_of_mem _ hmem)
    | handler | writer | routerTurn | router | heartbeat | manager | connect | receive
    | disconnect | decodeError | handshakeTimeout | handshakeTick | writerFails | heartbeatTick
    | heartbeatEvent | childOutput | readerEnds | childExits | shutdown | elapse => exact hs
  exact hinv timeout hmem

/-! ## Every run -/

/-- **What is pending is not older than the last sweep allows.** -/
structure System.Swept (cfg : Config) (s : System) (sweep : ℕ) : Prop where
  sweep_le : sweep ≤ s.shared.now
  pending : ∀ k p, s.shared.st.pending.get k = some p →
    sweep ≤ p.startedAt + cfg.state.requestTimeout

theorem System.Swept.of_step {ok : System → Label → Prop} {sweep : ℕ} (hs : s.Swept cfg sweep)
    (hr : Reachable cfg ok s) (hstep : s.step cfg l = some s') :
    s'.Swept cfg (noteSweep sweep s l) := by
  have hstepped := stepped_of_step hstep
  -- where nothing is swept, an entry is old or made after the last sweep
  have hkept : s'.Swept cfg sweep := by
    refine ⟨Nat.le_trans hs.sweep_le hstepped.now_le, fun k p hp => ?_⟩
    rcases hstepped.entries_timed hp with hold | hnew
    · exact hs.pending k p hold
    · rw [hnew]
      exact Nat.le_add_right_of_le hs.sweep_le
  unfold noteSweep
  cases hstepped with
  | @reaper order op rest ops sh hops hrun =>
    dsimp only
    rw [hops]
    cases op with
    | reap timeout =>
      have htimeout := hr.timeout_eq (hops ▸ List.mem_cons_self)
      have hnow : sh.now = s.shared.now := by rw [ReaperOp.run_frame hrun]
      refine ⟨Nat.le_of_eq hnow.symm, fun k p hp => ?_⟩
      obtain ⟨-, hle⟩ := ((ReaperOp.reap_run hrun).1 k p).1 hp
      dsimp only
      omega
    | readTimeout | replyExpired _ | publishStatus => exact hkept
  | handler | writer | routerTurn | router | reaperTick | heartbeat | manager | connect | receive
  | disconnect | decodeError | handshakeTimeout | handshakeTick | writerFails | heartbeatTick
  | heartbeatEvent | childOutput | readerEnds | childExits | shutdown | elapse => exact hkept

theorem swept_init (cfg : Config) : (System.init cfg).Swept cfg 0 where
  sweep_le := Nat.le_refl 0
  pending := fun _ _ _ => Nat.zero_le _

/-- **No request outlives its timeout, and none is timed out before it.** In every run what is
pending is at most as old as the timeout and the time since the last sweep; and a sweep takes
out exactly what is older than the timeout, and goes on to answer that. -/
theorem reaped_in_time {ok : System × ℕ → Label → Prop} {sweep : ℕ}
    (h : Run.Reach (Run.track (System.step cfg) noteSweep) ok (System.init cfg, 0) (s, sweep)) :
    (∀ k p, s.shared.st.pending.get k = some p →
      s.shared.now - p.startedAt ≤ cfg.state.requestTimeout + (s.shared.now - sweep)) ∧
    ∀ order timeout rest s', s.reaper = .reap timeout :: rest →
      s.step cfg (.reaper order) = some s' →
      (∀ k p, s'.shared.st.pending.get k = some p ↔ s.shared.st.pending.get k = some p ∧
        s.shared.now - p.startedAt ≤ cfg.state.requestTimeout) ∧
      ∃ expired, (∀ c lid, (c, lid) ∈ expired ↔ ∃ k p, s.shared.st.pending.get k = some p ∧
          cfg.state.requestTimeout < s.shared.now - p.startedAt ∧ p.clientId = c ∧
          p.localId = lid) ∧
        s'.reaper = (if expired.isEmpty then [] else [.replyExpired expired]) ++
          .publishStatus :: rest := by
  have hr : Reachable cfg Run.Any s := h.untrack
  constructor
  · have hswept : s.Swept cfg sweep := by
      refine h.invariant_of (I := fun q => q.1.Swept cfg q.2)
        (J := fun q => Reachable cfg Run.Any q.1) (fun _ hq => hq.untrack) (swept_init cfg) ?_
      intro q l q' _ hq hs hstep
      obtain ⟨hstep', hnote⟩ := Run.track_eq_some.1 hstep
      rw [hnote]
      exact hs.of_step hq hstep'
    intro k p hp
    have hle := hswept.pending k p hp
    have hnow := hswept.sweep_le
    omega
  · intro order timeout rest s' hops hstep
    obtain rfl := hr.timeout_eq (hops ▸ List.mem_cons_self)
    cases stepped_of_step hstep with
    | @reaper _ op rest' ops sh hops' hrun =>
      rw [hops] at hops'
      cases hops'
      obtain ⟨hkeeps, expired, hexpired, rfl⟩ := ReaperOp.reap_run hrun
      refine ⟨hkeeps, expired, hexpired, ?_⟩
      dsimp only
      rw [List.append_assoc, List.singleton_append]

/-- A client sends its `initialize`, and half a minute later there is a sweep. -/
def sweptRun : List Label :=
  [.connect, .handler 1,
    .receive 1 (.object [("id", .number (.posInt 7)), ("method", .string "initialize")]),
    .handler 1, .handler 1, .elapse 30001, .reaperTick, .reaper []]

/-- The request is the one that sweep takes out. -/
theorem reaped_in_time_sweptRun :
    (Config.small.tracked noteSweep 0 sweptRun).1.shared.st.pending.keys = ["c1:1"] ∧
      ∀ k p, (Config.small.tracked noteSweep 0 sweptRun).1.shared.st.pending.get k = some p →
        (Config.small.tracked noteSweep 0 sweptRun).1.shared.now - p.startedAt ≤
          Config.small.state.requestTimeout +
            ((Config.small.tracked noteSweep 0 sweptRun).1.shared.now -
              (Config.small.tracked noteSweep 0 sweptRun).2) := by
  have htracks : Config.small.tracks noteSweep 0 sweptRun = true := by decide +kernel
  have hreach := Config.small.reachable_tracked (fun _ _ => true) htracks (by decide +kernel)
  exact ⟨by decide +kernel, (reaped_in_time hreach).1⟩

end Mux

end VcOperator
