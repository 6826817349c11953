import VcOperator.Common.HashMap
import VcOperator.Json.Value
/-!
# The shared state of the mux

`MuxState` and its operations, after `mux-agent/src/state.rs`: what the
async loops share behind one mutex. Times are milliseconds of one clock.
The counters are `u64` in the source; they are `ℕ` here, and no operation
but the two `+ 1` reads their width.

The sender stored under a client id is the sending half of the channel
made for that client, so `clients` is the list of its keys: the client a
sender belongs to is the key it is found under.

A client message is held together with the *occurrence* it came in as
(`Tagged`). The occurrence is history, not program: it names the n-th
frame read from a client's socket, it is copied wherever the source
copies the message or its id, and no function reads it.
-/

namespace VcOperator

namespace Mux

/-- One frame read from one client's socket. -/
structure Occ where
  client : ℕ
  seq : ℕ
  deriving DecidableEq, Repr

/-- A value, with the occurrence it came in as. -/
structure Tagged (α : Type) where
  val : α
  occ : Occ

/-- `ServerStatus`. -/
inductive ServerStatus where
  | starting
  | running
  | restarting
  | failed (reason : String)
  | stopped
  | lazy
  | backoff
  deriving DecidableEq, Repr

/-- `HANDSHAKE_TIMEOUT`, ten seconds. -/
def handshakeTimeout : ℕ := 10000

/-- `MAX_QUEUE`. -/
def maxQueue : ℕ := 1024

/-- `MAX_PENDING`. -/
def maxPending : ℕ := 2048

/-- `Pending`: where the answer to a forwarded request goes. -/
structure Pending where
  clientId : ℕ
  localId : Tagged Value
  isInitialize : Bool
  startedAt : ℕ

/-- `ClientHandshake`. -/
structure ClientHandshake where
  connectedAt : ℕ
  initialized : Bool
  initializePending : Bool
  bufferedMessages : List (Tagged Value)

/-- `HeartbeatMetrics`. -/
structure HeartbeatMetrics where
  enabled : Bool
  latencyMs : Option ℕ
  lastHeartbeatMs : Option ℕ
  avgResponseMs : Option ℕ
  totalSuccess : ℕ
  totalFailures : ℕ
  consecutiveFailures : ℕ
  deriving DecidableEq, Repr

/-- `HeartbeatMetrics::default`. -/
def HeartbeatMetrics.default : HeartbeatMetrics :=
  ⟨false, none, none, none, 0, 0, 0⟩

/-- `MuxState`: the state the async loops share. -/
structure MuxState where
  nextClientId : ℕ
  nextGlobalId : ℕ
  clients : List ℕ
  pending : HashMap String Pending
  cachedInitialize : Option Value
  initWaiting : List (ℕ × Tagged Value)
  initializing : Bool
  serverStatus : ServerStatus
  restarts : ℕ
  lastReset : Option String
  maxActiveClients : ℕ
  serviceName : String
  maxRequestBytes : ℕ
  requestTimeout : ℕ
  restartBackoff : ℕ
  restartBackoffMax : ℕ
  maxRestarts : ℕ
  queueDepth : ℕ
  childPid : Option ℕ
  heartbeatMetrics : HeartbeatMetrics
  clientHandshakes : HashMap ℕ ClientHandshake
  serverInitialized : Bool
  startedAt : Option ℕ
  inBackoff : Bool

/-- `MuxStateConfig`. -/
structure MuxStateConfig where
  maxActiveClients : ℕ
  serviceName : String
  maxRequestBytes : ℕ
  requestTimeout : ℕ
  restartBackoff : ℕ
  restartBackoffMax : ℕ
  maxRestarts : ℕ
  queueDepth : ℕ
  childPid : Option ℕ

/-- `StatusSnapshot`, without the two fields that only render
`serverStatus` (`status_text` and the constant `level`). -/
structure StatusSnapshot where
  serviceName : String
  name : String
  serverStatus : ServerStatus
  restarts : ℕ
  connectedClients : ℕ
  activeClients : ℕ
  maxActiveClients : ℕ
  pendingRequests : ℕ
  cachedInitialize : Bool
  initializing : Bool
  lastReset : Option String
  queueDepth : ℕ
  childPid : Option ℕ
  maxRequestBytes : ℕ
  healthStatus : ServerStatus
  heartbeatLatencyMs : Option ℕ
  heartbeat : HeartbeatMetrics
  uptimeMs : ℕ
  inBackoff : Bool
  restartBackoffMs : ℕ
  restartBackoffMaxMs : ℕ
  maxRestarts : ℕ

namespace MuxState

/-- `MuxState::new`. -/
def new (config : MuxStateConfig) : MuxState where
  nextClientId := 1
  nextGlobalId := 1
  clients := []
  pending := ∅
  cachedInitialize := none
  initWaiting := []
  initializing := false
  serverStatus := .starting
  restarts := 0
  lastReset := none
  maxActiveClients := config.maxActiveClients
  serviceName := config.serviceName
  maxRequestBytes := config.maxRequestBytes
  requestTimeout := config.requestTimeout
  restartBackoff := config.restartBackoff
  restartBackoffMax := config.restartBackoffMax
  maxRestarts := config.maxRestarts
  queueDepth := config.queueDepth
  childPid := config.childPid
  heartbeatMetrics := .default
  clientHandshakes := ∅
  serverInitialized := false
  startedAt := none
  inBackoff := false

/-- `register_client`, at time `now`: the id it returns is `st.nextClientId`. -/
def registerClient (st : MuxState) (now : ℕ) : MuxState :=
  { st with
    nextClientId := st.nextClientId + 1
    clients := st.clients.insert st.nextClientId
    clientHandshakes := st.clientHandshakes.insert st.nextClientId
      { connectedAt := now, initialized := false, initializePending := false,
        bufferedMessages := [] } }

/-- `unregister_client`. -/
def unregisterClient (st : MuxState) (clientId : ℕ) : MuxState :=
  { st with
    clients := st.clients.filter (· ≠ clientId)
    clientHandshakes := st.clientHandshakes.remove clientId
    pending := st.pending.retain fun _ p => p.clientId ≠ clientId
    initWaiting := st.initWaiting.filter fun w => w.1 ≠ clientId }

/-- `next_request_id`: the id it returns is `st.nextGlobalId`. -/
def nextRequestId (st : MuxState) : MuxState :=
  { st with nextGlobalId := st.nextGlobalId + 1 }

/-- The messages `mark_handshake_complete` takes. -/
def bufferedMessages (st : MuxState) (clientId : ℕ) : List (Tagged Value) :=
  match st.clientHandshakes.get clientId with
  | some h => h.bufferedMessages
  | none => []

/-- `mark_handshake_complete`, also under the name `complete_handshake`:
it returns `st.bufferedMessages clientId`. -/
def markHandshakeComplete (st : MuxState) (clientId : ℕ) : MuxState :=
  match st.clientHandshakes.get clientId with
  | some h =>
    { st with
      clientHandshakes := st.clientHandshakes.insert clientId
        { h with initialized := true, bufferedMessages := [] } }
  | none => st

/-- `is_handshake_complete`: a client without a handshake counts as complete. -/
def isHandshakeComplete (st : MuxState) (clientId : ℕ) : Bool :=
  match st.clientHandshakes.get clientId with
  | some h => h.initialized
  | none => true

/-- `is_handshake_timed_out`, at time `now`. -/
def isHandshakeTimedOut (st : MuxState) (now clientId : ℕ) : Bool :=
  match st.clientHandshakes.get clientId with
  | some h => !h.initialized && decide (handshakeTimeout < now - h.connectedAt)
  | none => false

/-- `buffer_message`. -/
def bufferMessage (st : MuxState) (clientId : ℕ) (msg : Tagged Value) : MuxState :=
  match st.clientHandshakes.get clientId with
  | some h =>
    { st with
      clientHandshakes := st.clientHandshakes.insert clientId
        { h with bufferedMessages := h.bufferedMessages ++ [msg] } }
  | none => st

/-- What `handle_client_message` does through `get_handshake_mut` on an
`initialize`: it marks the handshake as pending. -/
def markInitializePending (st : MuxState) (clientId : ℕ) : MuxState :=
  match st.clientHandshakes.get clientId with
  | some h =>
    { st with
      clientHandshakes := st.clientHandshakes.insert clientId
        { h with initializePending := true } }
  | none => st

end MuxState

/-- `set_id`: an object gets the id, anything else is left alone. -/
def setId (msg : Value) (id : Value) : Value :=
  match msg with
  | .object ms => .object (Value.insertMember "id" id ms)
  | v => v

/-- `error_response`. -/
def errorResponse (id : Value) (message : String) : Value :=
  .object [
    ("error", .object [("code", .number (.negInt (-32000))), ("message", .string message)]),
    ("id", id),
    ("jsonrpc", .string "2.0")]

/-- `snapshot_for_state`, at time `now`. -/
def snapshotForState (st : MuxState) (now activeClients : ℕ) : StatusSnapshot where
  serviceName := st.serviceName
  name := st.serviceName
  serverStatus := st.serverStatus
  restarts := st.restarts
  connectedClients := st.clients.length
  activeClients := activeClients
  maxActiveClients := st.maxActiveClients
  pendingRequests := st.pending.len
  cachedInitialize := st.cachedInitialize.isSome
  initializing := st.initializing
  lastReset := st.lastReset
  queueDepth := st.queueDepth
  childPid := st.childPid
  maxRequestBytes := st.maxRequestBytes
  healthStatus := st.serverStatus
  heartbeatLatencyMs := st.heartbeatMetrics.latencyMs
  heartbeat := st.heartbeatMetrics
  uptimeMs := (st.startedAt.map (now - ·)).getD 0
  inBackoff := st.inBackoff
  restartBackoffMs := st.restartBackoff
  restartBackoffMaxMs := st.restartBackoffMax
  maxRestarts := st.maxRestarts

/-- `format!("c{client_id}:{}", n)`, the id a forwarded request carries. -/
def globalId (clientId n : ℕ) : String := "c" ++ toString clientId ++ ":" ++ toString n

/-- `format!("__heartbeat_{}", n)`. -/
def heartbeatId (n : ℕ) : String := "__heartbeat_" ++ toString n

/-- `is_heartbeat_response`. -/
def isHeartbeatResponse (id : String) : Bool := "__heartbeat_".toList.isPrefixOf id.toList

/-- The `method` of a message, empty where there is none. -/
def method (msg : Value) : String := ((msg.get "method").bind Value.asStr).getD ""

/-- The id under which `handle_server_message` looks a response up. -/
def idStr (id : Value) : Option String :=
  id.asStr.orElse fun _ => (id.asI64.map toString).orElse fun _ => id.asU64.map toString

/-! ## Reading an id back -/

@[simp] theorem get_id_setId_object (ms : List (String × Value)) (id : Value) :
    (setId (.object ms) id).get "id" = some id :=
  Value.member_insertMember "id" id ms

/-- A value with an id still has one after `set_id`, and it is the new one. -/
theorem get_id_setId {msg old : Value} (h : msg.get "id" = some old) (id : Value) :
    (setId msg id).get "id" = some id := by
  obtain ⟨ms, rfl⟩ := Value.exists_members_of_get h
  exact get_id_setId_object ms id

@[simp] theorem get_id_errorResponse (id : Value) (message : String) :
    (errorResponse id message).get "id" = some id := by
  simp [errorResponse, Value.get, Value.member]

/-- `set_id` leaves every other member alone. -/
theorem get_setId_of_ne {key : String} (h : key ≠ "id") (msg id : Value) :
    (setId msg id).get key = msg.get key := by
  cases msg with
  | object ms => exact Value.member_insertMember_ne h id ms
  | null | bool _ | number _ | string _ | array _ => rfl

/-- So a message keeps its method. -/
@[simp] theorem method_setId (msg id : Value) : method (setId msg id) = method msg := by
  rw [method, method, get_setId_of_ne (by decide)]

end Mux

end VcOperator
