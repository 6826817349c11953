import VcOperator.Mux.Model.State
import VcOperator.Control.Model.Startup
/-!
# The producers of a status

The three ways in which the mux reports a state: `publish_status`, whose
snapshot goes to the watch channel and from there to the status file;
`GetStatus` of the control socket; and `collect_status` of the daemon's
status socket. All of them read the state at one moment.
-/

namespace VcOperator

namespace Status

open Mux Control

/-- `StatusLevel`. -/
inductive StatusLevel where
  | ok
  | warn
  | error
  | lazy
  deriving DecidableEq, Repr

/-- `StatusSnapshot`, with all of its fields. -/
structure Snapshot extends StatusSnapshot where
  statusText : String
  level : StatusLevel

/-- `{:?}` of a status, when `debugStr` is that of a string. -/
def debugStatus (debugStr : String → String) : ServerStatus → String
  | .starting => "Starting"
  | .running => "Running"
  | .restarting => "Restarting"
  | .failed reason => "Failed(" ++ debugStr reason ++ ")"
  | .stopped => "Stopped"
  | .lazy => "Lazy"
  | .backoff => "Backoff"

/-- `snapshot_for_state`. -/
def snapshotForState (debugStr : String → String) (st : MuxState) (now activeClients : ℕ) :
    Snapshot :=
  { Mux.snapshotForState st now activeClients with
    statusText := debugStatus debugStr st.serverStatus
    level := .ok }

/-- A mux for at most two clients, before its server is there. -/
def idleState : MuxState := .new
  { maxActiveClients := 2, serviceName := "memory", maxRequestBytes := 1048576,
    requestTimeout := 30000, restartBackoff := 1000, restartBackoffMax := 30000, maxRestarts := 5,
    queueDepth := 0, childPid := none }

/-- `publish_status`: what goes to the watch channel, and the event. The status file is
written from what the channel holds. -/
def publishStatus (debugStr : String → String) (st : MuxState) (now availablePermits : ℕ) :
    Snapshot × IpcEvent :=
  (snapshotForState debugStr st now (st.maxActiveClients - availablePermits),
    .stateChange st.serviceName "Unknown" (debugStatus debugStr st.serverStatus))

/-- `handle_command`, at a state: the semaphore is not at hand. -/
def handleCommand (debugStr : String → String) (st : MuxState) (now : ℕ)
    (verify : ClientKind → VerifyResult) :
    MuxControlCommand → MuxControlResponse Snapshot IpcEvent :=
  Control.handleCommand (snapshotForState debugStr st now st.maxActiveClients) verify

/-- `MultiServerStatus`. -/
structure MultiServerStatus where
  name : String
  level : StatusLevel
  statusText : String
  connectedClients : ℕ
  activeClients : ℕ
  maxActiveClients : ℕ
  pendingRequests : ℕ
  restarts : ℕ
  uptimeMs : ℕ
  inBackoff : Bool
  heartbeatLatencyMs : Option ℕ
  deriving DecidableEq

/-- `ServerRef`, with what is behind its two handles. -/
structure ServerRef where
  name : String
  state : MuxState
  availablePermits : ℕ
  maxActiveClients : ℕ

/-- The reference `run_mux_internal_with_status` registers: the mux's own name and limit. -/
def ServerRef.of (st : MuxState) (availablePermits : ℕ) : ServerRef where
  name := st.serviceName
  state := st
  availablePermits := availablePermits
  maxActiveClients := st.maxActiveClients

/-- The servers of `StatusState`. -/
abbrev Servers := HashMap String ServerRef

/-- `register_server`. -/
def Servers.registerServer (servers : Servers) (serverRef : ServerRef) : Servers :=
  HashMap.insert servers serverRef.name serverRef

/-- The level and the text `collect_status` gives a state. -/
def levelAndText (st : MuxState) : StatusLevel × String :=
  match st.serverStatus with
  | .running =>
    if 0 < st.heartbeatMetrics.consecutiveFailures then (.warn, "Running (heartbeat issues)")
    else (.ok, "Running")
  | .starting => (.ok, "Starting")
  | .restarting => (.warn, "Restarting")
  | .failed reason => (.error, "Failed: " ++ reason)
  | .stopped => (.lazy, "Stopped")
  | .lazy => (.lazy, "Lazy (not started)")
  | .backoff => (.error, "Backoff (restarting)")

/-- What `collect_status` reports of one server. -/
def collectServer (now : ℕ) (name : String) (serverRef : ServerRef) : MultiServerStatus :=
  let st := serverRef.state
  { name := name
    level := (levelAndText st).1
    statusText := (levelAndText st).2
    connectedClients := st.clients.length
    activeClients := serverRef.maxActiveClients - serverRef.availablePermits
    maxActiveClients := serverRef.maxActiveClients
    pendingRequests := st.pending.len
    restarts := st.restarts
    uptimeMs := (st.startedAt.map (now - ·)).getD 0
    inBackoff := st.inBackoff
    heartbeatLatencyMs := st.heartbeatMetrics.avgResponseMs }

/-- A server that counts as running. -/
def countsRunning : ServerStatus → Bool
  | .running | .starting | .restarting => true
  | _ => false

/-- A server that counts as an error. -/
def countsError : ServerStatus → Bool
  | .failed _ | .backoff => true
  | _ => false

/-- `DaemonStatus` of `runtime/status.rs`. -/
structure DaemonStatus where
  version : String
  uptimeMs : ℕ
  uptime : String
  serverCount : ℕ
  runningCount : ℕ
  errorCount : ℕ
  servers : List MultiServerStatus

/-- `format_uptime`. -/
def formatUptime (ms : ℕ) : String :=
  let secs := ms / 1000
  let mins := secs / 60
  let hours := mins / 60
  let days := hours / 24
  if 0 < days then toString days ++ "d " ++ toString (hours % 24) ++ "h"
  else if 0 < hours then toString hours ++ "h " ++ toString (mins % 60) ++ "m"
  else if 0 < mins then toString mins ++ "m " ++ toString (secs % 60) ++ "s"
  else toString secs ++ "s"

/-- `collect_status`. The sort by name makes the order of the enumeration immaterial: no
two servers have one name. -/
def collectStatus (servers : Servers) (startTime now : ℕ) : DaemonStatus where
  version := "0.4.0"
  uptimeMs := now - startTime
  uptime := formatUptime (now - startTime)
  serverCount := servers.len
  runningCount := servers.values.countP fun r => countsRunning r.state.serverStatus
  errorCount := servers.values.countP fun r => countsError r.state.serverStatus
  servers := (servers.entries.map fun entry => collectServer now entry.1 entry.2).mergeSort
    fun a b => decide (a.name ≤ b.name)

end Status

end VcOperator
