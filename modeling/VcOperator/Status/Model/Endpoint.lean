import VcOperator.Control.Model.Protocol
/-!
# The status socket of the daemon

`handle_status_connection` writes one line, the `DaemonStatus` of the
moment, and shuts its side of the connection down. `query_status` reads a
line, and decodes it. What arrives of the line is what the connection lets
through.
-/

namespace VcOperator

namespace Status

open Control (Bytes fromSlice readLevel readStruct readVec toLine)

/-- The counters of a server's entry are within their types. -/
structure MultiServerStatus.Fits (s : MultiServerStatus) : Prop where
  connectedClients : s.connectedClients < 2 ^ 64
  activeClients : s.activeClients < 2 ^ 64
  maxActiveClients : s.maxActiveClients < 2 ^ 64
  pendingRequests : s.pendingRequests < 2 ^ 64
  restarts : s.restarts < 2 ^ 64
  uptimeMs : s.uptimeMs < 2 ^ 64
  heartbeatLatencyMs : ∀ ms, s.heartbeatLatencyMs = some ms → ms < 2 ^ 64

/-- The counters of a status are within their types. -/
structure DaemonStatus.Fits (s : DaemonStatus) : Prop where
  uptimeMs : s.uptimeMs < 2 ^ 64
  serverCount : s.serverCount < 2 ^ 64
  runningCount : s.runningCount < 2 ^ 64
  errorCount : s.errorCount < 2 ^ 64
  servers : ∀ entry ∈ s.servers, entry.Fits

/-- `Serialize` of `MultiServerStatus`: the members, in the order of the fields. -/
def MultiServerStatus.members (s : MultiServerStatus) : List (String × Value) := [
  ("name", .string s.name),
  ("level", levelValue s.level),
  ("status_text", .string s.statusText),
  ("connected_clients", unsigned s.connectedClients),
  ("active_clients", unsigned s.activeClients),
  ("max_active_clients", unsigned s.maxActiveClients),
  ("pending_requests", unsigned s.pendingRequests),
  ("restarts", unsigned s.restarts),
  ("uptime_ms", unsigned s.uptimeMs),
  ("in_backoff", .bool s.inBackoff),
  ("heartbeat_latency_ms", optional unsigned s.heartbeatLatencyMs)]

/-- `Serialize` of `DaemonStatus`. -/
def DaemonStatus.members (s : DaemonStatus) : List (String × Value) := [
  ("version", .string s.version),
  ("uptime_ms", unsigned s.uptimeMs),
  ("uptime", .string s.uptime),
  ("server_count", unsigned s.serverCount),
  ("running_count", unsigned s.runningCount),
  ("error_count", unsigned s.errorCount),
  ("servers", .array (s.servers.map fun entry => .object entry.members))]

/-- `Deserialize` of `MultiServerStatus`. -/
def readMultiServerStatus : Value → Option MultiServerStatus :=
  readStruct ["name", "level", "status_text", "connected_clients", "active_clients",
      "max_active_clients", "pending_requests", "restarts", "uptime_ms", "in_backoff",
      "heartbeat_latency_ms"] fun members => do
    let name ← readField Value.asStr "name" members
    let level ← readField readLevel "level" members
    let statusText ← readField Value.asStr "status_text" members
    let connectedClients ← readField Value.asU64 "connected_clients" members
    let activeClients ← readField Value.asU64 "active_clients" members
    let maxActiveClients ← readField Value.asU64 "max_active_clients" members
    let pendingRequests ← readField Value.asU64 "pending_requests" members
    let restarts ← readField Value.asU64 "restarts" members
    let uptimeMs ← readField Value.asU64 "uptime_ms" members
    let inBackoff ← readField readBool "in_backoff" members
    let heartbeatLatencyMs ← readOptional Value.asU64 "heartbeat_latency_ms" members
    return {
      name, level, statusText, connectedClients, activeClients, maxActiveClients,
      pendingRequests, restarts, uptimeMs, inBackoff, heartbeatLatencyMs }

/-- `Deserialize` of `DaemonStatus`. -/
def readDaemonStatus : Value → Option DaemonStatus :=
  readStruct ["version", "uptime_ms", "uptime", "server_count", "running_count", "error_count",
      "servers"] fun members => do
    let version ← readField Value.asStr "version" members
    let uptimeMs ← readField Value.asU64 "uptime_ms" members
    let uptime ← readField Value.asStr "uptime" members
    let serverCount ← readField Value.asU64 "server_count" members
    let runningCount ← readField Value.asU64 "running_count" members
    let errorCount ← readField Value.asU64 "error_count" members
    let servers ← readField (readVec readMultiServerStatus) "servers" members
    return { version, uptimeMs, uptime, serverCount, runningCount, errorCount, servers }

/-- `handle_status_connection`: what is written, to whoever connects. -/
def handleStatusConnection (floats : Json.Floats) (servers : Servers) (startTime now : ℕ) : Bytes :=
  toLine floats (.object (collectStatus servers startTime now).members)

/-- `read_line`: up to the first newline, and with it. -/
def readLine (arrived : Bytes) : Bytes :=
  arrived.takeWhile (· ≠ 10) ++ (arrived.dropWhile (· ≠ 10)).take 1

/-- `query_status`, of what arrives before the connection ends. -/
def queryStatus (floats : Json.Floats) (arrived : Bytes) : Option DaemonStatus :=
  fromSlice floats readDaemonStatus (readLine arrived)

end Status

end VcOperator
