import VcOperator.Common.HashMap
import VcOperator.Config.Model.Services
/-!
# The generated configs

`mux_gen.rs`: the daemon config and the client-facing files that are
built from merged services, for all clients at once or for each kind of
client. A file is modelled by the value that is serialised into it.
-/

namespace VcOperator

namespace Config

/-- `ServerConfig`: one upstream server of the daemon. -/
structure ServerConfig where
  socket : Option String
  cmd : Option String
  args : Option (List String)
  cwd : Option String
  maxActiveClients : Option ℕ
  tray : Option Bool
  serviceName : Option String
  logLevel : Option String
  lazyStart : Option Bool
  maxRequestBytes : Option ℕ
  requestTimeoutMs : Option ℕ
  restartBackoffMs : Option ℕ
  restartBackoffMaxMs : Option ℕ
  maxRestarts : Option ℕ
  statusFile : Option String
  env : Option Env
  heartbeatIntervalMs : Option ℕ
  heartbeatTimeoutMs : Option ℕ
  heartbeatMaxFailures : Option ℕ
  heartbeatEnabled : Option Bool
  deriving DecidableEq

/-- `Config`: the daemon's servers by name. -/
structure DaemonConfig where
  servers : HashMap String ServerConfig

/-- `Path::join`, on texts: an absolute file replaces the directory. -/
def joinPath (dir file : String) : String :=
  if file.toList.head? = some '/' then file
  else if dir.toList.getLast? = some '/' ∨ dir = "" then dir ++ file
  else dir ++ "/" ++ file

/-- `expand_path`. -/
def expandPath (home : Option String) (raw : String) : String :=
  match raw.toList, home with
  | '~' :: '/' :: stripped, some home =>
    if stripped.head? = some '/' then String.ofList stripped
    else joinPath home (String.ofList stripped)
  | _, _ => raw

/-- `default_socket_dir`. -/
def defaultSocketDir (muxDir : String) : String := joinPath muxDir "sockets"

/-- The socket of a service: its own, or `<socket_dir>/<name>.sock`. -/
def socketOf (socketDir : String) (svc : HostService) : String :=
  svc.socket.getD (joinPath socketDir (svc.name ++ ".sock"))

/-- The entry `build_daemon_config` makes of a service. -/
def serverConfig (socketDir : String) (svc : HostService) : ServerConfig where
  socket := some (socketOf socketDir svc)
  cmd := some svc.command
  args := some svc.args
  cwd := svc.cwd
  maxActiveClients := some 5
  tray := some false
  serviceName := some svc.name
  logLevel := some "info"
  lazyStart := some false
  maxRequestBytes := some 1048576
  requestTimeoutMs := some 30000
  restartBackoffMs := some 1000
  restartBackoffMaxMs := some 30000
  maxRestarts := some 5
  statusFile := none
  env := svc.env
  heartbeatIntervalMs := some 30000
  heartbeatTimeoutMs := some 30000
  heartbeatMaxFailures := some 3
  heartbeatEnabled := some true

/-- `build_daemon_config`. -/
def buildDaemonConfig (services : List HostService) (socketDir : String) : DaemonConfig :=
  ⟨.fill HostService.name (serverConfig socketDir) services⟩

/-- `ClientServerJson` and `ClientServerToml`: a server as a client launches it. -/
structure ClientServer where
  command : String
  args : List String
  env : Option Env
  deriving DecidableEq

/-- The proxy's arguments for a socket. -/
def proxyArgs (args : List String) (socket : String) : List String :=
  args ++ ["--socket", socket]

theorem proxyArgs_inj {args : List String} {socket socket' : String} :
    proxyArgs args socket = proxyArgs args socket' ↔ socket = socket' := by
  simp [proxyArgs]

/-- The entry of a client file for a service: the proxy, on the service's socket. -/
def clientServer (socketDir proxyCmd : String) (args : List String) (svc : HostService) :
    ClientServer :=
  ⟨proxyCmd, proxyArgs args (socketOf socketDir svc), svc.env⟩

/-- `ClientJsonRoot`. -/
structure ClientJsonRoot where
  mcpServers : HashMap String ClientServer

/-- `ClientTomlRoot`. -/
structure ClientTomlRoot where
  mcpServers : HashMap String ClientServer

/-- `build_client_json`. -/
def buildClientJson (services : List HostService) (socketDir proxyCmd : String)
    (args : List String) : ClientJsonRoot :=
  ⟨.fill HostService.name (clientServer socketDir proxyCmd args) services⟩

/-- `build_client_toml`. -/
def buildClientToml (services : List HostService) (socketDir proxyCmd : String)
    (args : List String) : ClientTomlRoot :=
  ⟨.fill HostService.name (clientServer socketDir proxyCmd args) services⟩

/-- `MuxOutputs`, with the values that are serialised. -/
structure MuxOutputs where
  socketDir : String
  configToml : DaemonConfig
  mcpJson : ClientJsonRoot
  mcpToml : ClientTomlRoot
  services : List HostService
  conflicts : List ConflictReport

/-- `build_mux_outputs`. -/
def buildMuxOutputs (merge : MergeOutcome) (muxDir proxyCmd : String) (args : List String) :
    MuxOutputs where
  socketDir := defaultSocketDir muxDir
  configToml := buildDaemonConfig merge.services (defaultSocketDir muxDir)
  mcpJson := buildClientJson merge.services (defaultSocketDir muxDir) proxyCmd args
  mcpToml := buildClientToml merge.services (defaultSocketDir muxDir) proxyCmd args
  services := merge.services
  conflicts := merge.conflicts

/-! ## Per-client outputs -/

/-- What is serialised into a per-client file, in the client's native format. -/
inductive ClientPayload where
  | toml (root : ClientTomlRoot)
  | json (root : ClientJsonRoot)

/-- The server map of a per-client file. -/
def ClientPayload.servers : ClientPayload → HashMap String ClientServer
  | toml root => root.mcpServers
  | json root => root.mcpServers

/-- `PerClientFile`. -/
structure PerClientFile where
  kind : HostKind
  path : String
  format : HostFormat
  contents : ClientPayload
  services : List HostService

/-- `PerClientOutputs`. -/
structure PerClientOutputs where
  socketDir : String
  configToml : DaemonConfig
  clients : List PerClientFile
  totalServices : ℕ
  conflicts : List ConflictReport

/-- One scan joins the group of its kind, or starts one. -/
def joinGroup (scan : ScanResult) :
    List (HostFile × List ScanResult) → List (HostFile × List ScanResult)
  | [] => [(scan.host, [scan])]
  | (host, grouped) :: groups =>
    if host.kind = scan.host.kind then (host, grouped ++ [scan]) :: groups
    else (host, grouped) :: joinGroup scan groups

/-- `group_scans_by_kind`: one scan for each kind, merged over the scans of that kind. -/
def groupScansByKind (scans : List ScanResult) : List ScanResult :=
  (scans.foldl (fun groups scan => joinGroup scan groups) []).map fun g =>
    ⟨g.1, (mergeServices g.2).services⟩

/-- `client_native_payload`: file name, format and contents. -/
def clientNativePayload (scan : ScanResult) (socketDir proxyCmd : String) (args : List String) :
    String × HostFormat × ClientPayload :=
  match scan.host.kind with
  | .codex =>
    ("codex.toml", .toml, .toml (buildClientToml scan.services socketDir proxyCmd args))
  | kind =>
    (kind.asLabel ++ ".json", .json,
      .json (buildClientJson scan.services socketDir proxyCmd args))

/-- `build_per_client_outputs`. -/
def buildPerClientOutputs (scans : List ScanResult) (muxDir proxyCmd : String)
    (args : List String) : PerClientOutputs :=
  let socketDir := defaultSocketDir muxDir
  let merged := mergeServices scans
  let clients := (groupScansByKind scans).filterMap fun scan =>
    if scan.services.isEmpty then none
    else
      let (filename, format, contents) := clientNativePayload scan socketDir proxyCmd args
      some ⟨scan.host.kind, joinPath muxDir filename, format, contents, scan.services⟩
  { socketDir := socketDir
    configToml := buildDaemonConfig merged.services socketDir
    clients := clients
    totalServices := merged.services.length
    conflicts := merged.conflicts }

end Config

end VcOperator
