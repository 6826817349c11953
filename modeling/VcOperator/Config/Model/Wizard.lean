import Mathlib.Data.List.Infix
import VcOperator.Config.Model.Generate
/-!
# The wizard's services

`wizard/services.rs`, `wizard/types.rs` and the part of `wizard/keys.rs`
and `wizard/persist.rs` that turns what was discovered into the input of
the generators: the entries of STEP 2 come from the merged scans, the
first-party default server and the running processes, in this order, and
the operator ticks and unticks them.

What the environment answers is a parameter: whether the default server
is installed, which MCP-shaped processes run (with the names
`list_running_mcp_processes` gives them), and which sockets accept a
connection.
-/

namespace VcOperator

namespace Config

/-- `ServiceSource`: where an entry comes from. -/
inductive ServiceSource where
  /-- Discovered inside a client config file. -/
  | client (kind : HostKind) (path : Path)
  /-- Built-in default discovered outside a client config. -/
  | default (label : String) (path : Option String)
  /-- Running, but not in any scanned config. -/
  | detectedRunning
  deriving DecidableEq

/-- `HealthStatus`. -/
inductive HealthStatus where
  | unknown
  | healthy
  | unhealthy
  deriving DecidableEq

/-- `ServiceEntry`: one service surfaced in STEP 2. -/
structure ServiceEntry where
  name : String
  config : ServerConfig
  health : HealthStatus
  source : ServiceSource
  pid : Option ℕ
  /-- Whether this server is selected for inclusion in the mux config. -/
  selected : Bool
  deriving DecidableEq

/-- The `ServerConfig` the wizard makes of what it found, under a name. -/
def entryConfig (name : String) (socket : Option String) (cmd : String) (args : List String)
    (cwd : Option String) (env : Option Env) : ServerConfig where
  socket := socket
  cmd := some cmd
  args := some args
  cwd := cwd
  maxActiveClients := some 5
  tray := some false
  serviceName := some name
  logLevel := some "info"
  lazyStart := some false
  maxRequestBytes := some 1048576
  requestTimeoutMs := some 30000
  restartBackoffMs := some 1000
  restartBackoffMaxMs := some 30000
  maxRestarts := some 5
  statusFile := none
  env := env
  heartbeatIntervalMs := some 30000
  heartbeatTimeoutMs := some 30000
  heartbeatMaxFailures := some 3
  heartbeatEnabled := some true

/-! ## From the scans -/

/-- `env_signature`. -/
def envSignature : Option Env → String
  | none => ""
  | some env => ",".intercalate (env.entries.map fun e => e.1 ++ "=" ++ e.2)

/-- `svc_key`. -/
def svcKey (svc : HostService) : String :=
  svc.command ++ "|" ++ " ".intercalate svc.args ++ "|" ++ envSignature svc.env

/-- `origin_index`: the first source of each command line. -/
def originIndex (scans : List ScanResult) : HashMap String (HostKind × Path) :=
  scans.foldl
    (fun m scan => scan.services.foldl
      (fun m svc =>
        if (m.get (svcKey svc)).isSome then m
        else m.insert (svcKey svc) (scan.host.kind, scan.host.path)) m) ∅

/-- `build_services_from_scans`. -/
def buildServicesFromScans (scans : List ScanResult) : List ServiceEntry :=
  (mergeServices scans).services.map fun svc =>
    { name := svc.name
      config := entryConfig svc.name svc.socket svc.command svc.args svc.cwd svc.env
      health := .unknown
      source :=
        match (originIndex scans).get (svcKey svc) with
        | some (kind, path) => .client kind path
        | none => .detectedRunning
      pid := none
      selected := true }

/-! ## The default server -/

/-- `DiscoveredMcpSource`. -/
inductive DiscoveredMcpSource where
  | vibecraftedMcpDevPath
  | vibecraftedMcpPipInstall
  deriving DecidableEq

/-- `DiscoveredMcp`. -/
structure DiscoveredMcp where
  name : String
  source : DiscoveredMcpSource
  command : String
  args : List String
  cwd : Option String

/-- `discover_vibecrafted_mcp_with`: `devProject` says that the `pyproject.toml`
under the search root names the project. -/
def discoverVibecraftedMcp (searchRoot : String) (devProject pipInstalled : Bool) :
    Option DiscoveredMcp :=
  if devProject then
    some ⟨"vibecrafted-mcp", .vibecraftedMcpDevPath, "python", ["-m", "vibecrafted_mcp"],
      some searchRoot⟩
  else if pipInstalled then
    some ⟨"vibecrafted-mcp", .vibecraftedMcpPipInstall, "vibecrafted-mcp", [], none⟩
  else none

/-- `append_default_services`. -/
def appendDefaultServices (services : List ServiceEntry) :
    Option DiscoveredMcp → List ServiceEntry
  | none => services
  | some discovered =>
    services ++
      [{ name := discovered.name
         config := entryConfig discovered.name none discovered.command discovered.args
           discovered.cwd none
         health := .unknown
         source := .default
           (match discovered.source with
             | .vibecraftedMcpDevPath => "vibecrafted-mcp dev path"
             | .vibecraftedMcpPipInstall => "vibecrafted-mcp pip install") discovered.cwd
         pid := none
         selected := true }]

/-! ## Running processes -/

/-- `RunningMcpProcess`. -/
structure RunningMcpProcess where
  pid : ℕ
  cmd : String
  args : List String
  syntheticName : String

/-- The part of a command after its last slash. -/
def basename (s : String) : List Char := (s.toList.reverse.takeWhile (· ≠ '/')).reverse

/-- `cmds_equivalent`. -/
def cmdsEquivalent (a b : String) : Bool := a = b || basename a = basename b

/-- `str::contains`. -/
def containsText (s probe : String) : Bool := decide (probe.toList <:+: s.toList)

/-- `proc_matches_entry`. -/
def procMatchesEntry (proc : RunningMcpProcess) (svc : ServiceEntry) : Bool :=
  cmdsEquivalent proc.cmd (svc.config.cmd.getD "") &&
    match (svc.config.args.getD []).find? (· ≠ "") with
    | some probe => proc.args.any fun a => containsText a probe
    | none => true

/-- The first entry a process matches takes its pid. -/
def stampPid (proc : RunningMcpProcess) : List ServiceEntry → Option (List ServiceEntry)
  | [] => none
  | svc :: svcs =>
    if procMatchesEntry proc svc then some ({ svc with pid := some proc.pid } :: svcs)
    else (stampPid proc svcs).map (svc :: ·)

/-- The entry of a process that no entry accounts for. -/
def orphan (proc : RunningMcpProcess) : ServiceEntry where
  name := proc.syntheticName
  config := entryConfig proc.syntheticName none proc.cmd proc.args none none
  health := .healthy
  source := .detectedRunning
  pid := some proc.pid
  selected := false

/-- `enrich_running_state`. -/
def enrichRunningState (services : List ServiceEntry) (running : List RunningMcpProcess) :
    List ServiceEntry :=
  running.foldl (fun svcs proc => (stampPid proc svcs).getD (svcs ++ [orphan proc])) services

/-! ## STEP 1 to STEP 2, and the selection -/

/-- `check_health`: `listens` says which sockets accept a connection. -/
def checkHealth (listens : String → Bool) (config : ServerConfig) : HealthStatus :=
  match config.socket with
  | none => .unknown
  | some socket => if listens socket then .healthy else .unhealthy

/-- What the environment answers while the wizard leaves STEP 1. -/
structure Surroundings where
  discovered : Option DiscoveredMcp
  running : List RunningMcpProcess
  listens : String → Bool

/-- `advance_to_step2`, on the scans of the selected sources. -/
def advanceToStep2 (scans : List ScanResult) (env : Surroundings) : List ServiceEntry :=
  let services := appendDefaultServices (buildServicesFromScans scans) env.discovered
  (enrichRunningState services env.running).map fun svc =>
    { svc with health := checkHealth env.listens svc.config }

/-- Space on STEP 2, at a row. -/
def toggleSelected (services : List ServiceEntry) (idx : ℕ) : List ServiceEntry :=
  services.modify idx fun svc => { svc with selected := !svc.selected }

/-- **The service lists a wizard can have**: what leaving STEP 1 computes, under any
sequence of ticks. -/
inductive Discovered : List ServiceEntry → Prop
  | advance (scans : List ScanResult) (root : String) (devProject pipInstalled : Bool)
      (running : List RunningMcpProcess) (listens : String → Bool) :
      Discovered (advanceToStep2 scans
        ⟨discoverVibecraftedMcp root devProject pipInstalled, running, listens⟩)
  | toggle {services : List ServiceEntry} (idx : ℕ) :
      Discovered services → Discovered (toggleSelected services idx)

/-- The service an entry stands for. -/
def ServiceEntry.toHostService (svc : ServiceEntry) : HostService where
  name := svc.name
  command := svc.config.cmd.getD ""
  args := svc.config.args.getD []
  cwd := svc.config.cwd
  socket := svc.config.socket
  env := svc.config.env
  enabled := none

/-- `build_merge_from_services`: the selected entries, as they are. -/
def buildMergeFromServices (services : List ServiceEntry) : MergeOutcome where
  services := (services.filter (·.selected)).map ServiceEntry.toHostService
  conflicts := []

end Config

end VcOperator
