import VcOperator.Common.LockProgram
import VcOperator.Mux.Model.Manager
/-!
# Where the tasks lock

The tasks of one mux again, as far as the mutex around `MuxState` can
tell: every `state.lock().await` of `mux-agent/src`, in the block its
guard is a local of, with the branches, loops and early exits around it.
Each function keeps its name. What a branch depends on is left to the
environment, except at the restart limit of `server_manager`, whose test
reads the manager's locals.

A guard bound by `let` in a block lives to the end of that block, or to
the early exit that leaves it; `drop(st)` ends the block of its guard
here. Anything else a task does, waiting included, is `work`. A task that
has not been spawned yet, or was aborted, is one that takes no step.
-/

namespace VcOperator

namespace Mux

open LockProgram LockProgram.Prog

/-- What a task of the mux is, to the mutex. -/
abbrev Code := Prog ManagerLocals

/-- The tasks of one mux: a handler and a writer for each connection, and
the four loops of the daemon. -/
inductive Task where
  | serverManager
  | serverEvents
  | reapTimeouts
  | heartbeatInspector
  | handleClient (connection : ℕ)
  | clientWriter (connection : ℕ)
  deriving DecidableEq

namespace Task

/-! ## `state.rs` and the helpers -/

/-- `publish_status`: the guard is dropped before the snapshot is sent. -/
def publishStatus : Code := call (block [locked work, work])

/-- `update_queue_depth`. -/
def updateQueueDepth : Code := call (locked work)

/-- `reset_state`. -/
def resetState : Code := call (block [locked work, publishStatus])

/-! ## `client.rs` -/

/-- `forward_request`. -/
def forwardRequest : Code := call (block [
  -- a message without an id
  may ret,
  -- overloaded, or the entry is inserted
  locked (block [may (block [work, ret]), work]),
  -- the channel is closed
  may ret,
  updateQueueDepth, publishStatus])

/-- The branch of `notifications/initialized`. -/
def completeHandshake : Code := block [
  locked work,
  may work,
  locked work,
  may (loop (block [may brk, forwardRequest])),
  updateQueueDepth, publishStatus, ret]

/-- The branch of `initialize`: the guard lives to `drop(st)`, and the
three early returns leave with it. -/
def handleInitialize : Code := block [
  locked (block [
    -- served from the cache
    may (block [work, ret]),
    -- parked
    may (block [work, ret]),
    -- overloaded
    may (block [work, ret]),
    work]),
  may ret,
  updateQueueDepth, publishStatus, ret]

/-- `handle_client_message`. -/
def handleClientMessage : Code := call (block [
  may ret,
  -- too large
  may (locked (block [work, ret])),
  may completeHandshake,
  -- no id
  may (block [work, updateQueueDepth, publishStatus, ret]),
  may ret,
  may handleInitialize,
  locked work,
  -- the handshake is not complete
  may (locked (block [work, ret])),
  forwardRequest])

/-- `handle_client`: the reader loop of a connection, and what is around it. -/
def handleClientBody : Code := call (block [
  may ret,
  locked work,
  publishStatus,
  loop (choose
    -- shutdown
    brk
    (choose
      -- the handshake check: its second guard lives to the `break`
      (block [locked work, may (locked (block [work, brk]))])
      -- a frame
      (block [may brk, may ret, locked work, handleClientMessage]))),
  locked work,
  publishStatus,
  work])

/-- The writer task of a connection. -/
def clientWriterBody : Code := call (block [
  loop (block [may brk, may brk]),
  locked work,
  publishStatus])

/-! ## `server.rs` and `mod.rs` -/

/-- `handle_server_message`. -/
def handleServerMessage : Code := call (block [
  -- a notification, and a null id
  may (locked (block [work, ret])),
  may ret,
  may (locked (block [work, ret])),
  may ret,
  locked work,
  may ret,
  -- an `initialize` response
  may (locked work),
  locked work,
  may work,
  publishStatus])

/-- `handle_server_events_with_heartbeat`. -/
def serverEventsBody : Code := call (loop (block [
  may brk,
  choose (block [may (block [work, cont]), handleServerMessage]) resetState]))

/-- `reap_timeouts`. -/
def reapTimeoutsBody : Code := call (loop (choose
  brk
  (block [locked work, locked work, may (locked work), publishStatus])))

/-! ## `heartbeat.rs` -/

/-- `update_state_metrics`. -/
def updateStateMetrics : Code := call (block [locked work, publishStatus])

/-- The task of `spawn_heartbeat_inspector`. -/
def heartbeatInspectorBody : Code := call (block [
  may ret,
  loop (choose
    brk
    (choose
      -- a tick: the guard of the check lives to its `continue`s
      (block [
        locked (block [may cont, may cont]),
        work,
        -- the channel is closed
        may (block [work, updateStateMetrics, work, cont]),
        work,
        updateStateMetrics,
        work])
      -- an event
      work))])

/-! ## `server_manager` -/

/-- The `select!` of the write loop. -/
def writeLoopSelect : Code :=
  choose
    -- a message to write, or the end of the queue
    (block [
      may (block [updateQueueDepth, brk]),
      updateQueueDepth,
      may (block [locked work, publishStatus, brk])])
    (choose
      -- the child has exited; the guard of the wait error lives to the end of its arm
      (block [may (locked work), publishStatus, brk])
      (choose
        -- a heartbeat restart
        (block [locked work, publishStatus, brk])
        -- shutdown
        brk))

/-- The restart limit: the guard is a local of the branch, and is alive
when `publish_status` is called. -/
def restartLimit : Code := locked (block [work, publishStatus, brk])

/-- `server_manager`. -/
def serverManagerBody (cfg : ManagerConfig) : Code := call (loop (block [
  -- shutdown
  may brk,
  -- lazy start
  may (block [work, may brk, choose updateQueueDepth brk]),
  test (ManagerOp.limitReached cfg) restartLimit work,
  -- the spawn fails
  may ret,
  locked work,
  publishStatus,
  -- a pipe is missing
  may ret,
  may ret,
  may work,
  loop (block [may brk, writeLoopSelect]),
  -- the aborts, the `Reset` event, and the cleanup
  work,
  locked work,
  updateQueueDepth,
  publishStatus,
  may brk,
  act fun loc => { loc with restarts := loc.restarts + 1 },
  -- the backoff
  act fun loc => { loc with backoff := min (loc.backoff * 2) cfg.restartBackoffMax }]))

/-- What each task runs. -/
def body (cfg : ManagerConfig) : Task → Code
  | serverManager => serverManagerBody cfg
  | serverEvents => serverEventsBody
  | reapTimeouts => reapTimeoutsBody
  | heartbeatInspector => heartbeatInspectorBody
  | handleClient _ => handleClientBody
  | clientWriter _ => clientWriterBody

/-- The tasks at the start of a mux. -/
def start (cfg : ManagerConfig) : State Task ManagerLocals where
  data := ⟨0, cfg.restartBackoff⟩
  owner := none
  todo := fun t => [.prog (body cfg t)]

end Task

end Mux

end VcOperator
