import VcOperator.Mux.Helpers.Moves
/-!
# Settings and snapshots

What the configuration of a mux has put into its state is there in every
state, and a snapshot that is published is the one of the state it is
published at. One lemma for each task.
-/

namespace VcOperator

namespace Mux

/-- What a mux is configured with. -/
structure Settings where
  maxActiveClients : ℕ
  serviceName : String
  maxRequestBytes : ℕ
  requestTimeout : ℕ
  restartBackoff : ℕ
  restartBackoffMax : ℕ
  maxRestarts : ℕ
  deriving DecidableEq

/-- The fields of a state that no task sets. -/
def MuxState.settings (st : MuxState) : Settings where
  maxActiveClients := st.maxActiveClients
  serviceName := st.serviceName
  maxRequestBytes := st.maxRequestBytes
  requestTimeout := st.requestTimeout
  restartBackoff := st.restartBackoff
  restartBackoffMax := st.restartBackoffMax
  maxRestarts := st.maxRestarts

/-- **Nothing is published, or what the state is.** -/
inductive Publishes (sh sh' : Shared) : Prop
  | aside (hpublished : sh'.published = sh.published)
      (hsettings : sh'.st.settings = sh.st.settings) : Publishes sh sh'
  | snapshot (h : sh' = sh.publishStatus) : Publishes sh sh'

variable {sh sh' : Shared} {c : ℕ}

theorem Publishes.settings (h : Publishes sh sh') : sh'.st.settings = sh.st.settings := by
  cases h with
  | aside _ hsettings => exact hsettings
  | snapshot h =>
    rw [h]
    rfl

theorem settings_markHandshakeComplete (st : MuxState) (c : ℕ) :
    (st.markHandshakeComplete c).settings = st.settings := by
  obtain ⟨hs, hst, -⟩ := st.markHandshakeComplete_spec c
  rw [hst]
  rfl

theorem settings_bufferMessage (st : MuxState) (c : ℕ) (msg : Tagged Value) :
    (st.bufferMessage c msg).settings = st.settings := by
  obtain ⟨hs, hst, -⟩ := st.bufferMessage_spec c msg
  rw [hst]
  rfl

theorem settings_markInitializePending (st : MuxState) (c : ℕ) :
    (st.markInitializePending c).settings = st.settings := by
  unfold MuxState.markInitializePending
  split <;> rfl

namespace ClientOp

variable {ops : List ClientOp}

theorem Forwarded.publishes {msg : Tagged Value} (h : Forwarded c msg sh sh' ops) :
    Publishes sh sh' := by
  cases h <;> exact .aside rfl rfl

theorem Initialized.publishes {val : Value} {lid : Tagged Value}
    (h : Initialized c val lid (initializePending sh c) sh' ops) : Publishes sh sh' := by
  have hsettings := settings_markInitializePending sh.st c
  cases h <;> exact .aside rfl hsettings

theorem publishes_run {enc : Value → ℕ} {op : ClientOp}
    (h : op.run enc c sh = some (sh', ops)) : Publishes sh sh' := by
  cases op with
  | forwardRequest msg =>
    rw [run, Option.some.injEq] at h
    exact (forwarded_of_run h).publishes
  | flushBuffered buffered =>
    cases buffered with
    | nil =>
      cases h
      exact .aside rfl rfl
    | cons msg buffered =>
      cases hr : runForwardRequest c msg sh with
      | mk sh₁ ops₁ =>
        rw [run, hr] at h
        cases h
        exact (forwarded_of_run hr).publishes
  | handleInitialize val lid =>
    rw [run, Option.some.injEq] at h
    exact (initialized_of_run h).publishes
  | send msg isInitialize =>
    simp only [run] at h
    split at h
    · cases h
      exact .aside rfl rfl
    · split at h <;> cases h
      cases isInitialize <;> exact .aside rfl rfl
  | markServerInitialized msg | trySend msg | checkHandshake msg =>
    simp only [run] at h
    split at h <;> cases h <;> exact .aside rfl rfl
  | completeHandshake =>
    cases h
    exact .aside rfl (settings_markHandshakeComplete sh.st c)
  | bufferMessage msg =>
    cases h
    exact .aside rfl (settings_bufferMessage sh.st c msg)
  | publishStatus =>
    cases h
    exact .snapshot rfl
  | handleClientMessage _ | rejectTooLarge _ | rejectHandshakeTimeout | updateQueueDepth
  | unregisterClient | releasePermit =>
    cases h
    exact .aside rfl rfl

end ClientOp

theorem RouterOp.publishes_run {order : List String} {op : RouterOp} {ops : List RouterOp}
    (h : op.run order sh = some (sh', ops)) : Publishes sh sh' := by
  cases op with
  | publishStatus =>
    cases h
    exact .snapshot rfl
  | takePending _ _ | findTarget _ _ | resetState _ =>
    simp only [run] at h
    split at h <;> cases h <;> exact .aside rfl rfl
  | broadcast _ | cacheInitialize _ _ | sendTarget _ _ =>
    cases h
    exact .aside rfl rfl

theorem publishes_dispatch (event : ServerEvent) (rest : List ServerEvent) (sh : Shared) :
    Publishes sh (RouterOp.dispatch event { sh with serverEvents := rest }).1 := by
  rw [RouterOp.dispatch_frame event rest sh]
  exact .aside rfl rfl

theorem ReaperOp.publishes_run {order : List String} {op : ReaperOp} {ops : List ReaperOp}
    (h : op.run order sh = some (sh', ops)) : Publishes sh sh' := by
  cases op with
  | publishStatus =>
    cases h
    exact .snapshot rfl
  | reap timeout =>
    simp only [run] at h
    split at h <;> cases h
    exact .aside rfl rfl
  | readTimeout | replyExpired _ =>
    cases h
    exact .aside rfl rfl

theorem HeartbeatOp.publishes_run {hb hb' : HeartbeatState} {op : HeartbeatOp}
    {ops : List HeartbeatOp} (h : op.run hb sh = some (hb', sh', ops)) : Publishes sh sh' := by
  cases op with
  | publishStatus =>
    cases h
    exact .snapshot rfl
  | probe | checkRestart =>
    simp only [run] at h
    split at h <;> cases h <;> exact .aside rfl rfl
  | sendProbe _ _ | awaitResponse _ _ _ =>
    simp only [run] at h
    split at h
    · cases h
      exact .aside rfl rfl
    · split at h <;> cases h
      exact .aside rfl rfl
  | updateStateMetrics =>
    cases h
    exact .aside rfl rfl

theorem ManagerOp.publishes_runSelect {choice : Choice} {ops : List ManagerOp}
    (h : runSelect choice sh = some (sh', ops)) : Publishes sh sh' := by
  rw [runSelect_frame h]
  exact .aside rfl rfl

theorem ManagerOp.publishes_run {cfg : ManagerConfig} {choice : Choice}
    {loc loc' : ManagerLocals} {op : ManagerOp} {ops : List ManagerOp}
    (h : op.run cfg choice loc sh = some (loc', sh', ops)) : Publishes sh sh' := by
  cases op with
  | publishStatus | publishHoldingGuard =>
    cases h
    exact .snapshot rfl
  | loopHead =>
    simp only [run] at h
    split at h
    · cases h
      exact .aside rfl rfl
    · split at h <;> cases h <;> exact .aside rfl rfl
  | awaitFirst =>
    simp only [run] at h
    split at h
    · split at h <;> cases h <;> exact .aside rfl rfl
    · cases h
      exact .aside rfl rfl
    · split at h <;> cases h
      exact .aside rfl rfl
    · cases h
  | spawn _ | takePipes _ | writeFirst _ | writeMessage _ =>
    simp only [run] at h
    split at h <;> cases h <;> exact .aside rfl rfl
  | select =>
    rw [run, Option.map_eq_some_iff] at h
    obtain ⟨⟨sh₁, ops₁⟩, hselect, hr⟩ := h
    cases hr
    exact publishes_runSelect hselect
  | checkLimit _ | afterReset _ | sleep _ =>
    simp only [run] at h
    split at h <;> cases h <;> exact .aside rfl rfl
  | markRunning _ | writeLoop | markFailed _ _ | cleanup _ | resetFields _ | updateQueueDepth =>
    cases h
    exact .aside rfl rfl

variable {cfg : Config} {ok : System → Label → Prop} {s s' : System} {l : Label}

/-- **Every step** publishes the snapshot of the state, or none. -/
theorem Stepped.publishes (h : Stepped cfg s l s') : Publishes s.shared s'.shared := by
  cases h with
  | handler _ hrun | writer _ hrun => exact ClientOp.publishes_run hrun
  | routerTurn => exact publishes_dispatch _ _ _
  | router _ hrun => exact RouterOp.publishes_run hrun
  | reaper _ hrun => exact ReaperOp.publishes_run hrun
  | heartbeat _ hrun => exact HeartbeatOp.publishes_run hrun
  | manager _ _ hrun => exact ManagerOp.publishes_run hrun
  | connect | receive | disconnect | decodeError | handshakeTimeout | handshakeTick | writerFails
  | reaperTick | heartbeatTick | heartbeatEvent | childOutput | readerEnds | childExits
  | shutdown | elapse => exact .aside rfl rfl

/-- **The settings stay what the mux was configured with.** -/
theorem Reachable.settings_eq (h : Reachable cfg ok s) :
    s.shared.st.settings = (MuxState.new cfg.state).settings :=
  h.invariant (I := fun s => s.shared.st.settings = (MuxState.new cfg.state).settings) rfl
    fun _ _ _ _ hs hstep => (stepped_of_step hstep).publishes.settings.trans hs

end Mux

end VcOperator
