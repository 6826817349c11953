import VcOperator.Json.Print
import VcOperator.Status.Model.Document
/-!
# The lines of the control protocol

What `Serialize` and `Deserialize` make of the messages of `ipc/command.rs`
and `ipc/event.rs`. A message is one line: `send_response` writes the
compact text and a newline, and the other ends write their commands alike.
`usize` has 64 bits.
-/

namespace VcOperator

namespace Control

open Mux Status

/-! ## The forms of a value -/

/-- An adjacently tagged variant: `#[serde(tag, content)]`. -/
def tagged (tag content name : String) : Option Value → Value
  | none => .object [(tag, .string name)]
  | some v => .object [(tag, .string name), (content, v)]

/-- A variant by its name, with the content it has in the externally tagged form. -/
def readVariant : Value → Option (String × Option Value)
  | .string name => some (name, none)
  | .object [(name, v)] => some (name, some v)
  | _ => none

/-- The content of a variant without any: nothing, or `null`. -/
def readUnit : Option Value → Option Unit
  | none | some .null => some ()
  | _ => none

/-- The tag of the adjacently tagged form: the name of a variant without content. -/
def readTag (v : Value) : Option String := do
  let (name, content) ← readVariant v
  readUnit content
  return name

/-- An adjacently tagged variant: an object, whose unknown members are ignored, or an array
of the tag and the content. -/
def readTagged (tag content : String) : Value → Option (String × Option Value)
  | .object members => do
    let name ← readField readTag tag members
    match members.filter (·.1 = content) with
    | [] => return (name, none)
    | [(_, v)] => return (name, some v)
    | _ => none
  | .array [t, v] => (readTag t).map fun name => (name, some v)
  | _ => none

/-- `Deserialize` of a struct: an object, or an array of the values of its fields. -/
def readStruct {α : Type} (fields : List String) (ofMembers : List (String × Value) → Option α) :
    Value → Option α
  | .object members => ofMembers members
  | .array elements =>
    if elements.length = fields.length then ofMembers (fields.zip elements) else none
  | _ => none

/-- `Deserialize` of a `Vec`. -/
def readVec {α : Type} (read : Value → Option α) : Value → Option (List α)
  | .array elements => elements.mapM read
  | _ => none

/-! ## A status snapshot -/

/-- `Deserialize` of `ServerStatus`. -/
def readStatus (v : Value) : Option ServerStatus :=
  match readVariant v with
  | some ("Starting", content) => (readUnit content).map fun _ => .starting
  | some ("Running", content) => (readUnit content).map fun _ => .running
  | some ("Restarting", content) => (readUnit content).map fun _ => .restarting
  | some ("Failed", some content) => content.asStr.map .failed
  | some ("Stopped", content) => (readUnit content).map fun _ => .stopped
  | some ("Lazy", content) => (readUnit content).map fun _ => .lazy
  | some ("Backoff", content) => (readUnit content).map fun _ => .backoff
  | _ => none

/-- `Deserialize` of `StatusLevel`. -/
def readLevel (v : Value) : Option StatusLevel :=
  match readVariant v with
  | some ("Ok", content) => (readUnit content).map fun _ => .ok
  | some ("Warn", content) => (readUnit content).map fun _ => .warn
  | some ("Error", content) => (readUnit content).map fun _ => .error
  | some ("Lazy", content) => (readUnit content).map fun _ => .lazy
  | _ => none

/-- `Deserialize` of `HeartbeatMetrics`. -/
def readHeartbeat : Value → Option HeartbeatMetrics :=
  readStruct ["enabled", "latency_ms", "last_heartbeat_ms", "avg_response_ms", "total_success",
      "total_failures", "consecutive_failures"] fun members => do
    let enabled ← readField readBool "enabled" members
    let latencyMs ← readOptional Value.asU64 "latency_ms" members
    let lastHeartbeatMs ← readOptional Value.asU64 "last_heartbeat_ms" members
    let avgResponseMs ← readOptional Value.asU64 "avg_response_ms" members
    let totalSuccess ← readField Value.asU64 "total_success" members
    let totalFailures ← readField Value.asU64 "total_failures" members
    let consecutiveFailures ← readField readU32 "consecutive_failures" members
    return {
      enabled, latencyMs, lastHeartbeatMs, avgResponseMs, totalSuccess, totalFailures,
      consecutiveFailures }

/-- `Deserialize` of `StatusSnapshot`. -/
def readSnapshot : Value → Option Snapshot :=
  readStruct ["service_name", "name", "server_status", "status_text", "level", "restarts",
      "connected_clients", "active_clients", "max_active_clients", "pending_requests",
      "cached_initialize", "initializing", "last_reset", "queue_depth", "child_pid",
      "max_request_bytes", "health_status", "heartbeat_latency_ms", "heartbeat", "uptime_ms",
      "in_backoff", "restart_backoff_ms", "restart_backoff_max_ms", "max_restarts"]
    fun members => do
      let serviceName ← readField Value.asStr "service_name" members
      let name ← readField Value.asStr "name" members
      let serverStatus ← readField readStatus "server_status" members
      let statusText ← readField Value.asStr "status_text" members
      let level ← readField readLevel "level" members
      let restarts ← readField Value.asU64 "restarts" members
      let connectedClients ← readField Value.asU64 "connected_clients" members
      let activeClients ← readField Value.asU64 "active_clients" members
      let maxActiveClients ← readField Value.asU64 "max_active_clients" members
      let pendingRequests ← readField Value.asU64 "pending_requests" members
      let cachedInitialize ← readField readBool "cached_initialize" members
      let initializing ← readField readBool "initializing" members
      let lastReset ← readOptional Value.asStr "last_reset" members
      let queueDepth ← readField Value.asU64 "queue_depth" members
      let childPid ← readOptional readU32 "child_pid" members
      let maxRequestBytes ← readField Value.asU64 "max_request_bytes" members
      let healthStatus ← readField readStatus "health_status" members
      let heartbeatLatencyMs ← readOptional Value.asU64 "heartbeat_latency_ms" members
      let heartbeat ← readField readHeartbeat "heartbeat" members
      let uptimeMs ← readField Value.asU64 "uptime_ms" members
      let inBackoff ← readField readBool "in_backoff" members
      let restartBackoffMs ← readField Value.asU64 "restart_backoff_ms" members
      let restartBackoffMaxMs ← readField Value.asU64 "restart_backoff_max_ms" members
      let maxRestarts ← readField Value.asU64 "max_restarts" members
      return {
        serviceName, name, serverStatus, statusText, level, restarts, connectedClients,
        activeClients, maxActiveClients, pendingRequests, cachedInitialize, initializing,
        lastReset, queueDepth, childPid, maxRequestBytes, healthStatus, heartbeatLatencyMs,
        heartbeat, uptimeMs, inBackoff, restartBackoffMs, restartBackoffMaxMs, maxRestarts }

/-! ## Commands -/

/-- `Serialize` of `ClientKind`. -/
def clientKindValue : ClientKind → Value
  | .claude => .string "claude"
  | .codex => .string "codex"
  | .gemini => .string "gemini"
  | .junie => .string "junie"
  | .generic name => .object [("generic", .object [("name", .string name)])]

/-- `Deserialize` of `ClientKind`. -/
def readClientKind (v : Value) : Option ClientKind :=
  match readVariant v with
  | some ("claude", content) => (readUnit content).map fun _ => .claude
  | some ("codex", content) => (readUnit content).map fun _ => .codex
  | some ("gemini", content) => (readUnit content).map fun _ => .gemini
  | some ("junie", content) => (readUnit content).map fun _ => .junie
  | some ("generic", some content) =>
    (readStruct ["name"] (readField Value.asStr "name") content).map .generic
  | _ => none

/-- `Serialize` of `MuxControlCommand`. -/
def commandValue : MuxControlCommand → Value
  | .subscribe => tagged "cmd" "args" "Subscribe" none
  | .unsubscribe => tagged "cmd" "args" "Unsubscribe" none
  | .getStatus => tagged "cmd" "args" "GetStatus" none
  | .verify clientKind =>
    tagged "cmd" "args" "Verify" (some (.object [("client_kind", clientKindValue clientKind)]))
  | .routeSnapshot => tagged "cmd" "args" "RouteSnapshot" none
  | .restartService name =>
    tagged "cmd" "args" "RestartService" (some (.object [("name", .string name)]))
  | .reloadConfig => tagged "cmd" "args" "ReloadConfig" none
  | .shutdown graceful =>
    tagged "cmd" "args" "Shutdown" (some (.object [("graceful", .bool graceful)]))

/-- `Deserialize` of `MuxControlCommand`. -/
def readCommand (v : Value) : Option MuxControlCommand :=
  match readTagged "cmd" "args" v with
  | some ("Subscribe", content) => (readUnit content).map fun _ => .subscribe
  | some ("Unsubscribe", content) => (readUnit content).map fun _ => .unsubscribe
  | some ("GetStatus", content) => (readUnit content).map fun _ => .getStatus
  | some ("Verify", some content) =>
    (readStruct ["client_kind"] (readField readClientKind "client_kind") content).map .verify
  | some ("RouteSnapshot", content) => (readUnit content).map fun _ => .routeSnapshot
  | some ("RestartService", some content) =>
    (readStruct ["name"] (readField Value.asStr "name") content).map .restartService
  | some ("ReloadConfig", content) => (readUnit content).map fun _ => .reloadConfig
  | some ("Shutdown", some content) =>
    (readStruct ["graceful"] (readField readBool "graceful") content).map .shutdown
  | _ => none

/-! ## Events -/

/-- The counters of an event are within their types. -/
def IpcEvent.Fits : IpcEvent → Prop
  | .routeUpdate _ _ count p99Ms => count < 2 ^ 64 ∧ p99Ms < 2 ^ 64
  | .serverHealth _ rssMb restarts _ => rssMb < 2 ^ 64 ∧ restarts < 2 ^ 64
  | .stateChange .. | .clientDrift .. => True

/-- `Serialize` of `IpcEvent`. -/
def eventValue : IpcEvent → Value
  | .stateChange service old new =>
    tagged "type" "payload" "StateChange"
      (some (.object [("service", .string service), ("from", .string old), ("to", .string new)]))
  | .routeUpdate client server count p99Ms =>
    tagged "type" "payload" "RouteUpdate"
      (some (.object [("client", .string client), ("server", .string server),
        ("count", unsigned count), ("p99_ms", unsigned p99Ms)]))
  | .serverHealth name rssMb restarts lastError =>
    tagged "type" "payload" "ServerHealth"
      (some (.object [("name", .string name), ("rss_mb", unsigned rssMb),
        ("restarts", unsigned restarts), ("last_error", optional .string lastError)]))
  | .clientDrift client nonMuxPaths =>
    tagged "type" "payload" "ClientDrift"
      (some (.object [("client", .string client),
        ("non_mux_paths", .array (nonMuxPaths.map .string))]))

/-- `Deserialize` of `IpcEvent`. -/
def readEvent (v : Value) : Option IpcEvent :=
  match readTagged "type" "payload" v with
  | some ("StateChange", some content) =>
    content |> readStruct ["service", "from", "to"] fun members => do
      let service ← readField Value.asStr "service" members
      let old ← readField Value.asStr "from" members
      let new ← readField Value.asStr "to" members
      return .stateChange service old new
  | some ("RouteUpdate", some content) =>
    content |> readStruct ["client", "server", "count", "p99_ms"] fun members => do
      let client ← readField Value.asStr "client" members
      let server ← readField Value.asStr "server" members
      let count ← readField Value.asU64 "count" members
      let p99Ms ← readField Value.asU64 "p99_ms" members
      return .routeUpdate client server count p99Ms
  | some ("ServerHealth", some content) =>
    content |> readStruct ["name", "rss_mb", "restarts", "last_error"] fun members => do
      let name ← readField Value.asStr "name" members
      let rssMb ← readField Value.asU64 "rss_mb" members
      let restarts ← readField Value.asU64 "restarts" members
      let lastError ← readOptional Value.asStr "last_error" members
      return .serverHealth name rssMb restarts lastError
  | some ("ClientDrift", some content) =>
    content |> readStruct ["client", "non_mux_paths"] fun members => do
      let client ← readField Value.asStr "client" members
      let nonMuxPaths ← readField (readVec Value.asStr) "non_mux_paths" members
      return .clientDrift client nonMuxPaths
  | _ => none

/-! ## Responses -/

/-- `Serialize` of `NonMuxEntry`. -/
def entryValue (entry : NonMuxEntry) : Value :=
  .object [("client", .string entry.client), ("path", .string entry.path),
    ("line", unsigned entry.line), ("server_name", .string entry.serverName)]

/-- `Deserialize` of `NonMuxEntry`. -/
def readEntry : Value → Option NonMuxEntry :=
  readStruct ["client", "path", "line", "server_name"] fun members => do
    let client ← readField Value.asStr "client" members
    let path ← readField Value.asStr "path" members
    let line ← readField Value.asU64 "line" members
    let serverName ← readField Value.asStr "server_name" members
    return { client, path, line, serverName }

/-- `Serialize` of `VerifyResult`. -/
def verifyResultValue (res : VerifyResult) : Value :=
  .object [("ok", .bool res.ok), ("non_mux_servers", .array (res.nonMuxServers.map entryValue))]

/-- `Deserialize` of `VerifyResult`. -/
def readVerifyResult : Value → Option VerifyResult :=
  readStruct ["ok", "non_mux_servers"] fun members => do
    let ok ← readField readBool "ok" members
    let nonMuxServers ← readField (readVec readEntry) "non_mux_servers" members
    return { ok, nonMuxServers }

/-- `Serialize` of `Route`. -/
def routeValue (route : Route) : Value :=
  .object [("client", .string route.client), ("server", .string route.server),
    ("status", .string route.status)]

/-- `Deserialize` of `Route`. -/
def readRoute : Value → Option Route :=
  readStruct ["client", "server", "status"] fun members => do
    let client ← readField Value.asStr "client" members
    let server ← readField Value.asStr "server" members
    let status ← readField Value.asStr "status" members
    return { client, server, status }

/-- The counters of a response are within their types. -/
def MuxControlResponse.Fits : MuxControlResponse Snapshot IpcEvent → Prop
  | .status snapshot => snapshot.Fits
  | .verifyResult res => ∀ entry ∈ res.nonMuxServers, entry.line < 2 ^ 64
  | .event e => e.Fits
  | .ok | .routes _ | .error _ | .unimplemented => True

/-- `Serialize` of `MuxControlResponse`. -/
def responseValue : MuxControlResponse Snapshot IpcEvent → Value
  | .ok => tagged "status" "payload" "Ok" none
  | .status snapshot => tagged "status" "payload" "Status" (some (.object snapshot.members))
  | .verifyResult res => tagged "status" "payload" "VerifyResult" (some (verifyResultValue res))
  | .routes routes =>
    tagged "status" "payload" "Routes" (some (.array (routes.map routeValue)))
  | .event event => tagged "status" "payload" "Event" (some (eventValue event))
  | .error message => tagged "status" "payload" "Error" (some (.string message))
  | .unimplemented => tagged "status" "payload" "Unimplemented" none

/-- `Deserialize` of `MuxControlResponse`. -/
def readResponse (v : Value) : Option (MuxControlResponse Snapshot IpcEvent) :=
  match readTagged "status" "payload" v with
  | some ("Ok", content) => (readUnit content).map fun _ => .ok
  | some ("Status", some content) => (readSnapshot content).map .status
  | some ("VerifyResult", some content) => (readVerifyResult content).map .verifyResult
  | some ("Routes", some content) => (readVec readRoute content).map .routes
  | some ("Event", some content) => (readEvent content).map .event
  | some ("Error", some content) => content.asStr.map .error
  | some ("Unimplemented", content) => (readUnit content).map fun _ => .unimplemented
  | _ => none

/-! ## Lines -/

/-- `serde_json::to_vec`. -/
def toVec (floats : Json.Floats) (v : Value) : Bytes := (Json.toText floats v).toUTF8.data.toList

/-- `serde_json::from_slice`, and `from_str`, at a type that is read this way. -/
def fromSlice {α : Type} (floats : Json.Floats) (read : Value → Option α) (line : Bytes) :
    Option α := do
  let text ← String.fromUTF8? ⟨line.toArray⟩
  read (← Json.fromStr floats text)

/-- A line: the text, and a newline. -/
def toLine (floats : Json.Floats) (v : Value) : Bytes := toVec floats v ++ [10]

/-- `send_response`: what is written. -/
def sendResponse (floats : Json.Floats) (resp : MuxControlResponse Snapshot IpcEvent) : Bytes :=
  toLine floats (responseValue resp)

end Control

end VcOperator
