import VcOperator.Json.Text
import VcOperator.Status.Model.Snapshot
/-!
# A status file and its reader

What `write_status_file` writes of a snapshot, and what the operator
console's `MuxStatusSnapshot::from_json` makes of a text. Between the two
stands a document: the members of an object are held in the order of the
text. `usize` has 64 bits.
-/

namespace VcOperator

namespace Status

open Mux

/-! ## The writer -/

/-- The counters of a snapshot are within their types. -/
structure Snapshot.Fits (s : Snapshot) : Prop where
  restarts : s.restarts < 2 ^ 64
  connectedClients : s.connectedClients < 2 ^ 64
  activeClients : s.activeClients < 2 ^ 64
  maxActiveClients : s.maxActiveClients < 2 ^ 64
  pendingRequests : s.pendingRequests < 2 ^ 64
  queueDepth : s.queueDepth < 2 ^ 64
  childPid : ∀ pid, s.childPid = some pid → pid < 2 ^ 32
  maxRequestBytes : s.maxRequestBytes < 2 ^ 64
  heartbeatLatencyMs : ∀ ms, s.heartbeatLatencyMs = some ms → ms < 2 ^ 64
  latencyMs : ∀ ms, s.heartbeat.latencyMs = some ms → ms < 2 ^ 64
  lastHeartbeatMs : ∀ ms, s.heartbeat.lastHeartbeatMs = some ms → ms < 2 ^ 64
  avgResponseMs : ∀ ms, s.heartbeat.avgResponseMs = some ms → ms < 2 ^ 64
  totalSuccess : s.heartbeat.totalSuccess < 2 ^ 64
  totalFailures : s.heartbeat.totalFailures < 2 ^ 64
  consecutiveFailures : s.heartbeat.consecutiveFailures < 2 ^ 32
  uptimeMs : s.uptimeMs < 2 ^ 64
  restartBackoffMs : s.restartBackoffMs < 2 ^ 64
  restartBackoffMaxMs : s.restartBackoffMaxMs < 2 ^ 64
  maxRestarts : s.maxRestarts < 2 ^ 64

/-- A value of `StatusSnapshot`. -/
def EncodableSnapshot : Type := { s : Snapshot // s.Fits }

/-- An unsigned integer. -/
def unsigned (n : ℕ) : Value := .number (.posInt (UInt64.ofNat n))

/-- An `Option`: `None` is `null`. -/
def optional {α : Type} (write : α → Value) : Option α → Value
  | none => .null
  | some a => write a

/-- `Serialize` of `ServerStatus`: the externally tagged form. -/
def serverStatusValue : ServerStatus → Value
  | .starting => .string "Starting"
  | .running => .string "Running"
  | .restarting => .string "Restarting"
  | .failed reason => .object [("Failed", .string reason)]
  | .stopped => .string "Stopped"
  | .lazy => .string "Lazy"
  | .backoff => .string "Backoff"

/-- `Serialize` of `StatusLevel`. -/
def levelValue : StatusLevel → Value
  | .ok => .string "Ok"
  | .warn => .string "Warn"
  | .error => .string "Error"
  | .lazy => .string "Lazy"

/-- `Serialize` of `HeartbeatMetrics`. -/
def heartbeatValue (m : HeartbeatMetrics) : Value :=
  .object [
    ("enabled", .bool m.enabled),
    ("latency_ms", optional unsigned m.latencyMs),
    ("last_heartbeat_ms", optional unsigned m.lastHeartbeatMs),
    ("avg_response_ms", optional unsigned m.avgResponseMs),
    ("total_success", unsigned m.totalSuccess),
    ("total_failures", unsigned m.totalFailures),
    ("consecutive_failures", unsigned m.consecutiveFailures)]

/-- `Serialize` of `StatusSnapshot`: the members, in the order of the fields. -/
def Snapshot.members (s : Snapshot) : List (String × Value) := [
  ("service_name", .string s.serviceName),
  ("name", .string s.name),
  ("server_status", serverStatusValue s.serverStatus),
  ("status_text", .string s.statusText),
  ("level", levelValue s.level),
  ("restarts", unsigned s.restarts),
  ("connected_clients", unsigned s.connectedClients),
  ("active_clients", unsigned s.activeClients),
  ("max_active_clients", unsigned s.maxActiveClients),
  ("pending_requests", unsigned s.pendingRequests),
  ("cached_initialize", .bool s.cachedInitialize),
  ("initializing", .bool s.initializing),
  ("last_reset", optional .string s.lastReset),
  ("queue_depth", unsigned s.queueDepth),
  ("child_pid", optional unsigned s.childPid),
  ("max_request_bytes", unsigned s.maxRequestBytes),
  ("health_status", serverStatusValue s.healthStatus),
  ("heartbeat_latency_ms", optional unsigned s.heartbeatLatencyMs),
  ("heartbeat", heartbeatValue s.heartbeat),
  ("uptime_ms", unsigned s.uptimeMs),
  ("in_backoff", .bool s.inBackoff),
  ("restart_backoff_ms", unsigned s.restartBackoffMs),
  ("restart_backoff_max_ms", unsigned s.restartBackoffMaxMs),
  ("max_restarts", unsigned s.maxRestarts)]

/-- `write_status_file`: the text. -/
def statusFile (floats : Json.Floats) (s : EncodableSnapshot) : String :=
  Json.toVecPretty floats (.object s.1.members)

/-! ## The reader -/

/-- `MuxServerStatus`. -/
inductive MuxServerStatus where
  | starting
  | running
  | restarting
  | failed (reason : String)
  | stopped
  deriving DecidableEq, Repr

/-- `MuxStatusSnapshot`. -/
structure MuxStatusSnapshot where
  serviceName : String
  serverStatus : MuxServerStatus
  restarts : ℕ
  connectedClients : ℕ
  activeClients : ℕ
  maxActiveClients : ℕ
  pendingRequests : ℕ
  cachedInitialize : Bool
  initializing : Bool
  lastReset : Option String
  queueDepth : ℕ
  childPid : Option ℕ
  maxRequestBytes : ℕ
  restartBackoffMs : ℕ
  restartBackoffMaxMs : ℕ
  maxRestarts : ℕ
  deriving DecidableEq, Repr

/-- `Deserialize` of `bool`. -/
def readBool : Value → Option Bool
  | .bool b => some b
  | _ => none

/-- `Deserialize` of `u32`. -/
def readU32 (v : Value) : Option ℕ := v.asU64.filter (· < 2 ^ 32)

/-- `Deserialize` of `MuxServerStatus`: a name, or an object with one member. The content of
a variant without any is `null`. -/
def readServerStatus : Value → Option MuxServerStatus
  | .string "Starting" => some .starting
  | .string "Running" => some .running
  | .string "Restarting" => some .restarting
  | .string "Stopped" => some .stopped
  | .object [("Starting", .null)] => some .starting
  | .object [("Running", .null)] => some .running
  | .object [("Restarting", .null)] => some .restarting
  | .object [("Failed", .string reason)] => some (.failed reason)
  | .object [("Stopped", .null)] => some .stopped
  | _ => none

/-- A field that has to be there, once. -/
def readField {α : Type} (read : Value → Option α) (name : String)
    (members : List (String × Value)) : Option α :=
  match members.filter (·.1 = name) with
  | [(_, v)] => read v
  | _ => none

/-- A field of an `Option`, which may be missing. -/
def readOptional {α : Type} (read : Value → Option α) (name : String)
    (members : List (String × Value)) : Option (Option α) :=
  match members.filter (·.1 = name) with
  | [] => some none
  | [(_, .null)] => some none
  | [(_, v)] => (read v).map some
  | _ => none

/-- `Deserialize` of `MuxStatusSnapshot`, from an object. Unknown fields are ignored. -/
def MuxStatusSnapshot.ofMembers (members : List (String × Value)) : Option MuxStatusSnapshot := do
  let serviceName ← readField Value.asStr "service_name" members
  let serverStatus ← readField readServerStatus "server_status" members
  let restarts ← readField Value.asU64 "restarts" members
  let connectedClients ← readField Value.asU64 "connected_clients" members
  let activeClients ← readField Value.asU64 "active_clients" members
  let maxActiveClients ← readField Value.asU64 "max_active_clients" members
  let pendingRequests ← readField Value.asU64 "pending_requests" members
  let cachedInitialize ← readField readBool "cached_initialize" members
  let initializing ← readField readBool "initializing" members
  let lastReset ← readOptional Value.asStr "last_reset" members
  let queueDepth ← readField Value.asU64 "queue_depth" members
  let childPid ← readOptional readU32 "child_pid" members
  let maxRequestBytes ← readField Value.asU64 "max_request_bytes" members
  let restartBackoffMs ← readField Value.asU64 "restart_backoff_ms" members
  let restartBackoffMaxMs ← readField Value.asU64 "restart_backoff_max_ms" members
  let maxRestarts ← readField Value.asU64 "max_restarts" members
  return {
    serviceName, serverStatus, restarts, connectedClients, activeClients, maxActiveClients,
    pendingRequests, cachedInitialize, initializing, lastReset, queueDepth, childPid,
    maxRequestBytes, restartBackoffMs, restartBackoffMaxMs, maxRestarts }

/-- The names of the fields of `MuxStatusSnapshot`, in order. -/
def MuxStatusSnapshot.fields : List String := [
  "service_name", "server_status", "restarts", "connected_clients", "active_clients",
  "max_active_clients", "pending_requests", "cached_initialize", "initializing", "last_reset",
  "queue_depth", "child_pid", "max_request_bytes", "restart_backoff_ms",
  "restart_backoff_max_ms", "max_restarts"]

/-- `MuxStatusSnapshot::from_json`. An array is taken for the values of the fields. -/
def MuxStatusSnapshot.fromJson (floats : Json.Floats) (raw : String) :
    Option MuxStatusSnapshot :=
  match Json.fromStr floats raw with
  | some (.object members) => ofMembers members
  | some (.array elements) =>
    if elements.length = fields.length then ofMembers (fields.zip elements) else none
  | _ => none

end Status

end VcOperator
