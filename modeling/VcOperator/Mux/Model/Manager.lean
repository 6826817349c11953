import VcOperator.Mux.Model.Shared
/-!
# The server manager

`server_manager` of `mux-agent/src/runtime/server.rs`: spawn the child,
write the queue to it, and restart it when its incarnation ends. What the
environment decides (whether a spawn or a write succeeds, which branch of
a `select!` is taken) is the `Choice` of an operation, and an operation
accepts a choice only where the source could take it.

The child's handle is moved into a wait task and its stdout into a reader
task. Aborting the first drops the handle, which kills nothing, since
`kill_on_drop` is not set; aborting the second is a request, and the
reader may still forward what it has at hand. So neither abort changes
the child: a process ends by itself (`Label.childExits`), and a reader
task ends by itself too (`Label.readerEnds`).
-/

namespace VcOperator

namespace Mux

/-- What the environment decides for one operation of the manager. -/
inductive Choice where
  /-- Nothing is decided. -/
  | go
  | spawned (pid : ℕ)
  | spawnFailed
  | pipeMissing
  | written
  | writeFailed (error : String)
  /-- The branches of the two `select!`s. -/
  | received
  | queueClosed
  | childExited
  | waitError (error : String)
  | joinError
  | heartbeatRestart
  | shutdown

/-- The operations of the server manager. -/
inductive ManagerOp where
  /-- The head of the outer loop. -/
  | loopHead
  /-- The first message a lazy start waits for. -/
  | awaitFirst
  /-- The restart limit. -/
  | checkLimit (firstMsg : Option Value)
  /-- `publish_status`, called with the guard of the limit branch alive. -/
  | publishHoldingGuard
  | spawn (firstMsg : Option Value)
  | markRunning (pid : ℕ)
  | takePipes (firstMsg : Option Value)
  | writeFirst (msg : Value)
  /-- The condition of the write loop. -/
  | writeLoop
  /-- Its `select!`. -/
  | select
  | writeMessage (msg : Value)
  | markFailed (status lastReset : String)
  /-- The aborts, and the `Reset` event. -/
  | cleanup (shouldRestart : Bool)
  /-- The lock section of the cleanup. -/
  | resetFields (shouldRestart : Bool)
  | afterReset (shouldRestart : Bool)
  | sleep (until' : ℕ)
  | updateQueueDepth
  | publishStatus

/-- `ServerManagerConfig`, what the loop reads of it. -/
structure ManagerConfig where
  lazyStart : Bool
  restartBackoff : ℕ
  restartBackoffMax : ℕ
  maxRestarts : ℕ

/-- The locals of `server_manager`. -/
structure ManagerLocals where
  restarts : ℕ
  backoff : ℕ

namespace ManagerOp

/-- The operation is a lock section. -/
def locks : ManagerOp → Bool
  | markRunning _ | markFailed _ _ | resetFields _ | updateQueueDepth | publishStatus
  | publishHoldingGuard | checkLimit _ => true
  | _ => false

/-- The restart limit is reached. -/
def limitReached (cfg : ManagerConfig) (loc : ManagerLocals) : Bool :=
  decide (0 < cfg.maxRestarts) && decide (cfg.maxRestarts ≤ loc.restarts)

/-- `server_manager` returns: its receivers are dropped. -/
def returned (sh : Shared) : Shared × List ManagerOp := ({ sh with toServerOpen := false }, [])

/-- The child's stdin takes one more message. -/
def writeToChild (msg : Value) (children : List Child) : List Child :=
  children.modify (children.length - 1) fun ch => { ch with written := ch.written ++ [msg] }

/-- The reader task of the newest child is spawned. -/
def startReader (children : List Child) : List Child :=
  children.modify (children.length - 1) fun ch => { ch with reading := true }

/-- The process of the newest child exists. -/
def childAlive (children : List Child) : Bool :=
  match children.getLast? with
  | some ch => ch.alive
  | none => false

/-- The operations that leave the write loop. -/
def leave (shouldRestart : Bool) : List ManagerOp := [cleanup shouldRestart]

/-- The `select!` of the write loop. `recv` answers `None` once every
sender of the queue is gone; the manager holds one itself, and the branch
is kept as a choice of the environment. -/
def runSelect (choice : Choice) (sh : Shared) : Option (Shared × List ManagerOp) :=
  match choice with
  | .received =>
    match sh.toServer with
    | [] => none
    | msg :: rest =>
      some ({ sh with toServer := rest }, [updateQueueDepth, writeMessage msg])
  | .queueClosed =>
    if sh.toServer.isEmpty then some (sh, updateQueueDepth :: leave false) else none
  | .childExited =>
    if childAlive sh.children then none else some (sh, publishStatus :: leave true)
  | .waitError e => some (sh, [markFailed e "wait error", publishStatus] ++ leave true)
  | .joinError => some (sh, publishStatus :: leave true)
  | .heartbeatRestart =>
    match sh.restartRx with
    | [] => none
    | reason :: rest =>
      some ({ sh with restartRx := rest },
        [markFailed reason reason, publishStatus] ++ leave true)
  | .shutdown => if sh.shutdown then some (sh, leave true) else none
  | _ => none

/-- The lock section of the cleanup. -/
def runResetFields (shouldRestart : Bool) (sh : Shared) : Shared :=
  { sh with
    st := { sh.st with
      cachedInitialize := none
      initializing := false
      childPid := none
      serverStatus := if sh.shutdown || !shouldRestart then .stopped else .restarting
      restarts := if sh.shutdown || !shouldRestart then sh.st.restarts else sh.st.restarts + 1 }
    initEvents := sh.initEvents ++ [InitEvent.reset] }

/-- One operation of the manager. -/
def run (cfg : ManagerConfig) (choice : Choice) (loc : ManagerLocals) (sh : Shared) :
    ManagerOp → Option (ManagerLocals × Shared × List ManagerOp)
  | loopHead =>
    if sh.shutdown then some (loc, returned sh)
    else if cfg.lazyStart && loc.restarts == 0 then some (loc, sh, [awaitFirst])
    else some (loc, sh, [checkLimit none])
  | awaitFirst =>
    match choice, sh.toServer with
    | .received, msg :: rest =>
      -- a message taken when the shutdown has come is dropped with the loop
      if sh.shutdown then some (loc, returned { sh with toServer := rest })
      else some (loc, { sh with toServer := rest }, [updateQueueDepth, checkLimit (some msg)])
    | .queueClosed, [] => some (loc, returned sh)
    | .shutdown, _ => if sh.shutdown then some (loc, returned sh) else none
    | _, _ => none
  | checkLimit firstMsg =>
    if limitReached cfg loc then
      -- the guard is a local of the branch: it is alive when the snapshot is published
      some (loc, { sh with
        st := { sh.st with
          serverStatus := .failed "max restarts reached"
          lastReset := some "max restarts reached"
          childPid := none }
        stateLocked := true }, [publishHoldingGuard])
    else some (loc, sh, [spawn firstMsg])
  | publishHoldingGuard => some (loc, sh.publishStatus, [])
  | spawn firstMsg =>
    match choice with
    | .spawned pid =>
      some (loc, { sh with children := sh.children ++ [⟨pid, true, [], false⟩] },
        [markRunning pid, publishStatus, takePipes firstMsg])
    | .spawnFailed => some (loc, returned sh)
    | _ => none
  | markRunning pid =>
    some (loc, { sh with
      st := { sh.st with serverStatus := .running, childPid := some pid } }, [])
  | takePipes firstMsg =>
    match choice with
    | .go =>
      some (loc, { sh with children := startReader sh.children },
        (match firstMsg with | some msg => [writeFirst msg] | none => []) ++ [writeLoop])
    | .pipeMissing => some (loc, returned sh)
    | _ => none
  | writeFirst msg =>
    match choice with
    | .written => some (loc, { sh with children := writeToChild msg sh.children }, [])
    | .writeFailed _ => some (loc, sh, [])
    | _ => none
  | writeLoop => some (loc, sh, if sh.shutdown then leave true else [select])
  | select => (runSelect choice sh).map fun r => (loc, r)
  | writeMessage msg =>
    match choice with
    | .written =>
      some (loc, { sh with children := writeToChild msg sh.children }, [writeLoop])
    | .writeFailed e =>
      some (loc, sh, [markFailed e "write failure", publishStatus] ++ leave true)
    | _ => none
  | markFailed status lastReset =>
    some (loc, { sh with
      st := { sh.st with
        serverStatus := .failed status
        lastReset := some lastReset } }, [])
  | cleanup shouldRestart =>
    some (loc, { sh with serverEvents := sh.serverEvents ++ [.reset "MCP server restarted"] },
      [resetFields shouldRestart, updateQueueDepth, publishStatus, afterReset shouldRestart])
  | resetFields shouldRestart => some (loc, runResetFields shouldRestart sh, [])
  | afterReset shouldRestart =>
    if sh.shutdown || !shouldRestart then some (loc, returned sh)
    else some ({ loc with restarts := loc.restarts + 1 }, sh, [sleep (sh.now + loc.backoff)])
  | sleep until' =>
    if until' ≤ sh.now then
      some ({ loc with backoff := min (loc.backoff * 2) cfg.restartBackoffMax }, sh, [loopHead])
    else none
  | updateQueueDepth => some (loc, sh.updateQueueDepth, [])
  | publishStatus => some (loc, sh.publishStatus, [])

end ManagerOp

end Mux

end VcOperator
