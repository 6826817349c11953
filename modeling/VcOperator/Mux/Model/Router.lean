import VcOperator.Mux.Model.Shared
/-!
# The event router and the timeout reaper

`handle_server_message` (`mux-agent/src/runtime/server.rs`),
`reset_state` (`state.rs`), and the two loops of `runtime/mod.rs` that
answer clients: `handle_server_events_with_heartbeat` and
`reap_timeouts`. As for the client's handler, an operation is the code
between two points where another task may run.

`reset_state` and the reaper enumerate a hash map, in an order the
standard library does not fix. The order is an argument of `run`, and
`run` accepts any enumeration of the keys.
-/

namespace VcOperator

namespace Mux

/-- The operations of the event router. -/
inductive RouterOp where
  /-- A message with no id, or a null one, goes to every client. -/
  | broadcast (msg : Value)
  /-- The entry of a response is taken out of `pending`. -/
  | takePending (msg : Value) (id : String)
  /-- The response of an `initialize` is cached and fanned out. -/
  | cacheInitialize (msg : Value) (pending : Pending)
  /-- The sender of the client that asked is looked up. -/
  | findTarget (msg : Value) (pending : Pending)
  /-- The response is sent to it, outside the lock. -/
  | sendTarget (msg : Value) (pending : Pending)
  | resetState (reason : String)
  | publishStatus

namespace RouterOp

/-- The operation is a lock section. -/
def locks : RouterOp → Bool
  | sendTarget _ _ => false
  | _ => true

/-- `handle_server_message`, up to its first lock section. -/
def handleServerMessage (msg : Value) : List RouterOp :=
  match msg.get "id" with
  | none => [broadcast msg]
  | some id =>
    if id.isNull then [broadcast msg]
    else
      match idStr id with
      | none => []
      | some s => [takePending msg s]

/-- The id of a message the router keeps for the heartbeat inspector. -/
def heartbeatResponse (msg : Value) : Option String :=
  ((msg.get "id").bind Value.asStr).filter isHeartbeatResponse

/-- One turn of the router's loop, up to the first lock section: a
heartbeat response goes to the inspector, anything else is handled. -/
def dispatch (event : ServerEvent) (sh : Shared) : Shared × List RouterOp :=
  match event with
  | .message msg =>
    match heartbeatResponse msg with
    | some id => ({ sh with heartbeatRx := sh.heartbeatRx ++ [id] }, [])
    | none => (sh, handleServerMessage msg)
  | .reset reason => (sh, [resetState reason, publishStatus])

/-- The request a response answers, for the history. -/
def addressee (p : Pending) : Option (Occ × Bool) := some (p.localId.occ, p.isInitialize)

/-- The response carries an `error` member. -/
def isError (msg : Value) : Bool := (msg.get "error").isSome

/-- The copies of an `initialize` response made for the waiters. -/
def waiterReplies (msg : Value) (p : Pending) (waiters : List (ℕ × Tagged Value)) :
    List Delivery :=
  waiters.map fun w =>
    ⟨w.1, setId msg w.2.val, some w.2.occ, .child msg (addressee p)⟩

/-- An `initialize` response is cached, and the waiters are taken. -/
def storeInitialize (msg : Value) (sh : Shared) : Shared :=
  { sh with
    st := { sh.st with
      cachedInitialize := some msg
      initializing := false
      initWaiting := [] } }

/-- The lock section that caches an `initialize` response. -/
def runCacheInitialize (msg : Value) (p : Pending) (sh : Shared) : Shared :=
  (storeInitialize msg sh).replyAll (waiterReplies msg p sh.st.initWaiting)

/-- The errors `reset_state` answers with: the pending requests in the
order they are enumerated, then the waiters. -/
def resetReplies (reason : String) (pending : List Pending)
    (waiters : List (ℕ × Tagged Value)) : List Delivery :=
  pending.map (fun p => Shared.errorReply p.localId reason p.clientId) ++
    waiters.map fun w => Shared.errorReply w.2 reason w.1

/-- The pending requests and the waiters are taken, and the rest is reset. -/
def clearState (reason : String) (sh : Shared) : Shared :=
  { sh with
    st := { sh.st with
      pending := ∅
      initWaiting := []
      cachedInitialize := none
      initializing := false
      lastReset := some reason
      queueDepth := 0
      childPid := none }
    initEvents := sh.initEvents ++
      (Shared.initOccs sh.st.pending.values).map (.answered · true) ++ [.reset] }

/-- The lock section of `reset_state`. -/
def runResetState (reason : String) (order : List String) (sh : Shared) : Shared :=
  (clearState reason sh).replyAll
    (resetReplies reason (sh.st.pending.valuesIn order) sh.st.initWaiting)

/-- One operation of the router. -/
def run (order : List String) (sh : Shared) : RouterOp → Option (Shared × List RouterOp)
  | broadcast msg =>
    some (sh.replyAll (sh.st.clients.map fun c => ⟨c, msg, none, .child msg none⟩), [])
  | takePending msg id =>
    match sh.st.pending.get id with
    | none => some (sh, [])
    | some p =>
      some ({ sh with
          st := { sh.st with pending := sh.st.pending.remove id }
          initEvents := sh.initEvents ++
            if p.isInitialize then [.answered p.localId.occ (isError msg)] else [] },
        (if p.isInitialize then [cacheInitialize msg p] else []) ++ [findTarget msg p])
  | cacheInitialize msg p => some (runCacheInitialize msg p sh, [])
  | findTarget msg p =>
    if p.clientId ∈ sh.st.clients then some (sh, [sendTarget msg p, publishStatus])
    else some (sh, [publishStatus])
  | sendTarget msg p =>
    some ({ sh with
      sent := sh.sent ++ [⟨p.clientId, setId msg p.localId.val, some p.localId.occ,
        .child msg (addressee p)⟩] }, [])
  | resetState reason =>
    if order.Perm sh.st.pending.keys then some (runResetState reason order sh, []) else none
  | publishStatus => some (sh.publishStatus, [])

end RouterOp

/-- The operations of the timeout reaper. -/
inductive ReaperOp where
  | readTimeout
  /-- The expired entries are taken out of `pending`. -/
  | reap (timeout : ℕ)
  /-- They are answered, in a lock section of its own. -/
  | replyExpired (expired : List (ℕ × Tagged Value))
  | publishStatus

namespace ReaperOp

/-- An entry is older than the timeout. -/
def isExpired (now timeout : ℕ) (p : Pending) : Bool := decide (timeout < now - p.startedAt)

/-- The lock section of the reaper's `retain`. -/
def runReap (timeout : ℕ) (order : List String) (sh : Shared) : Shared × List ReaperOp :=
  let expired := (sh.st.pending.valuesIn order).filter (isExpired sh.now timeout)
  ({ sh with
      st := { sh.st with
        pending := sh.st.pending.retain fun _ p => !isExpired sh.now timeout p }
      initEvents := sh.initEvents ++ (Shared.initOccs expired).map .timedOut },
    (if expired.isEmpty then [] else
      [replyExpired (expired.map fun p => (p.clientId, p.localId))]) ++ [publishStatus])

/-- One operation of the reaper. -/
def run (order : List String) (sh : Shared) : ReaperOp → Option (Shared × List ReaperOp)
  | readTimeout => some (sh, [reap sh.st.requestTimeout])
  | reap timeout =>
    if order.Perm sh.st.pending.keys then some (runReap timeout order sh) else none
  | replyExpired expired =>
    some (sh.replyAll (expired.map fun e => Shared.errorReply e.2 "request timeout" e.1), [])
  | publishStatus => some (sh.publishStatus, [])

end ReaperOp

end Mux

end VcOperator
