import VcOperator.Mux.Helpers.Moves
/-!
# What the child is fed

The queue to the child, and the flag that says whether a
`notifications/initialized` was forwarded, change in few places: two
operations of a handler enqueue, one of the inspector does, one lock
section sets the flag, and the manager takes messages off the queue.
`Unfed` is the frame all other operations keep.
-/

namespace VcOperator

namespace Mux

/-- **Nothing is enqueued for the child.** -/
structure Unfed (sh sh' : Shared) : Prop where
  toServer : sh'.toServer = sh.toServer
  toServerOpen : sh'.toServerOpen = sh.toServerOpen
  put : sh'.put = sh.put
  children : sh'.children = sh.children
  serverInitialized : sh'.st.serverInitialized = sh.st.serverInitialized

variable {sh sh' : Shared} {c : ℕ}

@[refl] theorem Unfed.refl (sh : Shared) : Unfed sh sh := ⟨rfl, rfl, rfl, rfl, rfl⟩

namespace ClientOp

variable {enc : Value → ℕ} {op : ClientOp} {ops : List ClientOp}

theorem Forwarded.unfed {msg : Tagged Value} (h : Forwarded c msg sh sh' ops) :
    Unfed sh sh' := by
  cases h with
  | noId hid => exact .refl sh
  | refused hid | forwarded hid => exact ⟨rfl, rfl, rfl, rfl, rfl⟩

theorem unfed_initializePending (sh : Shared) (c : ℕ) : Unfed sh (initializePending sh c) := by
  refine ⟨rfl, rfl, rfl, rfl, ?_⟩
  simp only [initializePending, MuxState.markInitializePending]
  split <;> rfl

theorem Initialized.unfed {val : Value} {lid : Tagged Value}
    (h : Initialized c val lid (initializePending sh c) sh' ops) : Unfed sh sh' := by
  have hflag := (unfed_initializePending sh c).serverInitialized
  cases h with
  | cached hcached | parked hcached hinit | refused hcached hinit | forwarded hcached hinit =>
    exact ⟨rfl, rfl, rfl, rfl, hflag⟩

/-- **What a handler's operation feeds the child.** -/
inductive Feeds (sh : Shared) : ClientOp → Shared → Prop
  | nothing {op : ClientOp} {sh' : Shared} (h : Unfed sh sh') : Feeds sh op sh'
  | trySend {msg : Tagged Value} (hroom : sh.hasRoom = true) :
      Feeds sh (.trySend msg) (sh.enqueue ⟨msg.val, .client msg.occ⟩)
  | send {msg : Tagged Value} {isInitialize : Bool} {sh' : Shared} (hroom : sh.hasRoom = true)
      (h : Unfed (sh.enqueue ⟨msg.val, .client msg.occ⟩) sh') :
      Feeds sh (.send msg isInitialize) sh'
  | flag {msg : Tagged Value} (hflag : sh.st.serverInitialized = false) :
      Feeds sh (.markServerInitialized msg)
        { sh with st := { sh.st with serverInitialized := true } }

theorem feeds_run (h : op.run enc c sh = some (sh', ops)) : Feeds sh op sh' := by
  cases op with
  | trySend msg =>
    simp only [run] at h
    split at h
    · rename_i hroom; cases h; exact .trySend hroom
    · cases h; exact .nothing (.refl sh)
  | send msg isInitialize =>
    simp only [run] at h
    split at h
    · cases h; exact .nothing (.refl sh)
    · split at h
      · rename_i hroom
        cases h
        refine .send hroom ?_
        cases isInitialize <;> exact ⟨rfl, rfl, rfl, rfl, rfl⟩
      · cases h
  | markServerInitialized msg =>
    simp only [run] at h
    split at h
    · cases h; exact .nothing (.refl sh)
    · rename_i hflag
      cases h
      exact .flag (by simpa using hflag)
  | forwardRequest msg =>
    rw [run, Option.some.injEq] at h
    exact .nothing (forwarded_of_run h).unfed
  | flushBuffered buffered =>
    cases buffered with
    | nil => cases h; exact .nothing (.refl sh)
    | cons msg buffered =>
      cases hr : runForwardRequest c msg sh with
      | mk sh₁ ops₁ =>
        rw [run, hr] at h
        cases h
        exact .nothing (forwarded_of_run hr).unfed
  | handleInitialize val lid =>
    rw [run, Option.some.injEq] at h
    exact .nothing (initialized_of_run h).unfed
  | checkHandshake msg =>
    simp only [run] at h
    split at h <;> cases h <;> exact .nothing (.refl sh)
  | completeHandshake =>
    cases h
    refine .nothing ⟨rfl, rfl, rfl, rfl, ?_⟩
    simp only [MuxState.markHandshakeComplete]
    split <;> rfl
  | bufferMessage msg =>
    cases h
    refine .nothing ⟨rfl, rfl, rfl, rfl, ?_⟩
    simp only [MuxState.bufferMessage]
    split <;> rfl
  | handleClientMessage _ | rejectTooLarge _ | rejectHandshakeTimeout | unregisterClient
  | updateQueueDepth | publishStatus | releasePermit =>
    cases h; exact .nothing ⟨rfl, rfl, rfl, rfl, rfl⟩

end ClientOp

/-- The router feeds the child nothing. -/
theorem RouterOp.unfed_run {order : List String} {op : RouterOp} {ops : List RouterOp}
    (h : op.run order sh = some (sh', ops)) : Unfed sh sh' := by
  rw [run_frame h]
  exact ⟨rfl, rfl, rfl, rfl, rfl⟩

/-- Nor does the reaper. -/
theorem ReaperOp.unfed_run {order : List String} {op : ReaperOp} {ops : List ReaperOp}
    (h : op.run order sh = some (sh', ops)) : Unfed sh sh' := by
  rw [run_frame h]
  exact ⟨rfl, rfl, rfl, rfl, rfl⟩

/-- Nor does taking an event. -/
theorem unfed_dispatch (event : ServerEvent) (rest : List ServerEvent) (sh : Shared) :
    Unfed sh (RouterOp.dispatch event { sh with serverEvents := rest }).1 := by
  rw [RouterOp.dispatch_frame]
  exact ⟨rfl, rfl, rfl, rfl, rfl⟩

/-- **What the inspector feeds the child**: nothing, or a probe. -/
inductive HeartbeatOp.Feeds (sh : Shared) : HeartbeatOp → Shared → Prop
  | nothing {op : HeartbeatOp} {sh' : Shared} (h : Unfed sh sh') : Feeds sh op sh'
  | probe {n startedAt : ℕ} (hroom : sh.hasRoom = true) :
      Feeds sh (.sendProbe n startedAt) (sh.enqueue ⟨pingMessage n, .heartbeat n⟩)

theorem HeartbeatOp.feeds_run {hb hb' : HeartbeatState} {op : HeartbeatOp}
    {ops : List HeartbeatOp} (h : op.run hb sh = some (hb', sh', ops)) : Feeds sh op sh' := by
  cases op with
  | sendProbe n startedAt =>
    simp only [run] at h
    split at h
    · cases h; exact .nothing (.refl sh)
    · split at h
      · rename_i hroom; cases h; exact .probe hroom
      · cases h
  | probe =>
    simp only [run] at h
    split at h <;> cases h <;> exact .nothing (.refl sh)
  | awaitResponse n startedAt deadline =>
    simp only [run] at h
    split at h
    · cases h; exact .nothing (.refl sh)
    · split at h
      · cases h; exact .nothing (.refl sh)
      · cases h
  | checkRestart =>
    simp only [run] at h
    split at h <;> cases h <;> exact .nothing ⟨rfl, rfl, rfl, rfl, rfl⟩
  | updateStateMetrics | publishStatus => cases h; exact .nothing ⟨rfl, rfl, rfl, rfl, rfl⟩

/-- The manager enqueues nothing, and leaves the flag alone. -/
structure Unput (sh sh' : Shared) : Prop where
  put : sh'.put = sh.put
  serverInitialized : sh'.st.serverInitialized = sh.st.serverInitialized

theorem ManagerOp.unput_run {cfg : ManagerConfig} {choice : Choice} {loc loc' : ManagerLocals}
    {op : ManagerOp} {ops : List ManagerOp}
    (h : op.run cfg choice loc sh = some (loc', sh', ops)) : Unput sh sh' := by
  rw [run_frame h]
  exact ⟨rfl, rfl⟩

end Mux

end VcOperator
