import VcOperator.Mux.Model.Step
/-!
# What a task leaves alone

One equation for each task but the handlers: the state after one of its
operations is the state before it, but for the fields the equation names.
That any other field is unchanged is read off the equation.
-/

namespace VcOperator

namespace Mux

variable {sh sh' : Shared}

/-- **What the inspector touches**: its metrics, the queue, the restart signals and the
watch channel. -/
theorem HeartbeatOp.run_frame {hb hb' : HeartbeatState} {op : HeartbeatOp}
    {ops : List HeartbeatOp} (h : op.run hb sh = some (hb', sh', ops)) :
    sh' = { sh with
      st := { sh.st with heartbeatMetrics := sh'.st.heartbeatMetrics }
      published := sh'.published
      toServer := sh'.toServer
      put := sh'.put
      restartRx := sh'.restartRx } := by
  cases op with
  | probe | checkRestart =>
    simp only [run] at h
    split at h <;> cases h <;> rfl
  | sendProbe _ _ | awaitResponse _ _ _ =>
    simp only [run] at h
    split at h
    · cases h; rfl
    · split at h <;> cases h
      rfl
  | updateStateMetrics | publishStatus => cases h; rfl

/-- **What the reaper touches**: the pending entries, what is sent, and the watch
channel. -/
theorem ReaperOp.run_frame {order : List String} {op : ReaperOp} {ops : List ReaperOp}
    (h : op.run order sh = some (sh', ops)) :
    sh' = { sh with
      st := { sh.st with pending := sh'.st.pending }
      published := sh'.published
      sent := sh'.sent
      initEvents := sh'.initEvents } := by
  cases op with
  | reap timeout =>
    simp only [run] at h
    split at h <;> cases h
    rfl
  | readTimeout | replyExpired _ | publishStatus => cases h; rfl

/-- **What the router touches**: the pending entries and the `initialize` in flight, what
is sent, and on a reset what the manager set. -/
theorem RouterOp.run_frame {order : List String} {op : RouterOp} {ops : List RouterOp}
    (h : op.run order sh = some (sh', ops)) :
    sh' = { sh with
      st := { sh.st with
        pending := sh'.st.pending
        initWaiting := sh'.st.initWaiting
        cachedInitialize := sh'.st.cachedInitialize
        initializing := sh'.st.initializing
        lastReset := sh'.st.lastReset
        queueDepth := sh'.st.queueDepth
        childPid := sh'.st.childPid }
      published := sh'.published
      sent := sh'.sent
      initEvents := sh'.initEvents } := by
  cases op with
  | takePending _ _ | findTarget _ _ | resetState _ =>
    simp only [run] at h
    split at h <;> cases h <;> rfl
  | broadcast _ | cacheInitialize _ _ | sendTarget _ _ | publishStatus => cases h; rfl

/-- Taking an event touches the events alone, those of the inspector included. -/
theorem RouterOp.dispatch_frame (event : ServerEvent) (rest : List ServerEvent) (sh : Shared) :
    let sh' := (RouterOp.dispatch event { sh with serverEvents := rest }).1
    sh' = { sh with serverEvents := rest, heartbeatRx := sh'.heartbeatRx } := by
  cases event with
  | message msg =>
    simp only [RouterOp.dispatch]
    split <;> rfl
  | reset reason => rfl

/-- **What the manager's `select!` touches**: the queue and the restart signals. -/
theorem ManagerOp.runSelect_frame {choice : Choice} {ops : List ManagerOp}
    (h : runSelect choice sh = some (sh', ops)) :
    sh' = { sh with toServer := sh'.toServer, restartRx := sh'.restartRx } := by
  cases choice with
  | received | heartbeatRestart | queueClosed | shutdown | childExited =>
    simp only [runSelect] at h
    split at h <;> cases h
    rfl
  | waitError _ | joinError => cases h; rfl
  | go | spawned _ | spawnFailed | pipeMissing | written | writeFailed _ => cases h

/-- **What the manager touches**: nothing of a client but the cached handshake. -/
theorem ManagerOp.run_frame {cfg : ManagerConfig} {choice : Choice} {loc loc' : ManagerLocals}
    {op : ManagerOp} {ops : List ManagerOp}
    (h : op.run cfg choice loc sh = some (loc', sh', ops)) :
    sh' = { sh with
      st := { sh.st with
        cachedInitialize := sh'.st.cachedInitialize
        initializing := sh'.st.initializing
        serverStatus := sh'.st.serverStatus
        restarts := sh'.st.restarts
        lastReset := sh'.st.lastReset
        queueDepth := sh'.st.queueDepth
        childPid := sh'.st.childPid }
      stateLocked := sh'.stateLocked
      published := sh'.published
      toServer := sh'.toServer
      toServerOpen := sh'.toServerOpen
      serverEvents := sh'.serverEvents
      restartRx := sh'.restartRx
      children := sh'.children
      initEvents := sh'.initEvents } := by
  cases op with
  | loopHead =>
    simp only [run] at h
    split at h
    · cases h; rfl
    · split at h <;> cases h <;> rfl
  | awaitFirst =>
    simp only [run] at h
    split at h
    · split at h <;> cases h <;> rfl
    · cases h; rfl
    · split at h <;> cases h
      rfl
    · cases h
  | checkLimit _ | spawn _ | takePipes _ | writeFirst _ | writeMessage _ | afterReset _
  | sleep _ =>
    simp only [run] at h
    split at h <;> cases h <;> rfl
  | select =>
    obtain ⟨⟨sh₁, ops₁⟩, hsel, heq⟩ := Option.map_eq_some_iff.1 h
    cases heq
    rw [runSelect_frame hsel]
  | writeLoop | cleanup _ | markRunning _ | markFailed _ _ | resetFields _ | updateQueueDepth
  | publishStatus | publishHoldingGuard => cases h; rfl

end Mux

end VcOperator
