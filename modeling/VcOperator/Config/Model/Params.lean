import VcOperator.Config.Model.Generate
/-!
# The parameters of the services

`resolve_params` and `resolve_params_multi` of `config.rs`, and the test of
`bin/rust-mux.rs` that picks between them. What the command line says is a
record of the answers of `CliOptions`; `home` is the variable `HOME`.

`resolve_params_multi` goes over the keys of a hash map, in an order the
standard library does not fix, and so the order is an argument.
-/

namespace VcOperator

namespace Config

/-! ## Paths -/

/-- `Path::components`, which is what two paths are compared by. -/
def components (path : String) : List String :=
  match path.toList.splitOn '/' with
  | [] => []
  | first :: rest =>
    (if first ≠ [] then [String.ofList first] else if rest ≠ [] then ["/"] else []) ++
      (rest.filter fun part => part ≠ [] ∧ part ≠ ['.']).map String.ofList

/-- `Path::file_name`. -/
def fileName (path : String) : Option String :=
  (components path).getLast?.filter fun part => part ≠ "/" ∧ part ≠ "." ∧ part ≠ ".."

/-- The name a service has after its socket: the file's, up to the first dot. -/
def socketStem (socket : String) : Option String :=
  (fileName socket).map fun name => String.ofList (name.toList.takeWhile (· ≠ '.'))

/-! ## One service -/

/-- `CliOptions`: what the command line says. -/
structure CliOptions where
  socket : Option String
  cmd : Option String
  args : List String
  maxActiveClients : ℕ
  lazyStart : Option Bool
  maxRequestBytes : Option ℕ
  requestTimeoutMs : Option ℕ
  restartBackoffMs : Option ℕ
  restartBackoffMaxMs : Option ℕ
  maxRestarts : Option ℕ
  logLevel : String
  tray : Bool
  serviceName : Option String
  service : Option String
  statusFile : Option String
  heartbeatIntervalMs : Option ℕ
  heartbeatTimeoutMs : Option ℕ
  heartbeatMaxFailures : Option ℕ
  heartbeatEnabled : Option Bool
  only : Option (List String)
  except : Option (List String)

/-- `ResolvedParams`. The times are in milliseconds. -/
structure ResolvedParams where
  socket : String
  cmd : String
  args : List String
  cwd : Option String
  maxClients : ℕ
  trayEnabled : Bool
  logLevel : String
  serviceName : String
  lazyStart : Bool
  maxRequestBytes : ℕ
  requestTimeout : ℕ
  restartBackoff : ℕ
  restartBackoffMax : ℕ
  maxRestarts : ℕ
  statusFile : Option String
  env : Option Env
  heartbeatInterval : ℕ
  heartbeatTimeout : ℕ
  heartbeatMaxFailures : ℕ
  heartbeatEnabled : Bool
  deriving DecidableEq

/-- The entry of the config that the command line names. -/
def serviceCfg (cli : CliOptions) : Option DaemonConfig → Except String (Option ServerConfig)
  | none => .ok none
  | some cfg =>
    match cli.service with
    | none => .ok none
    | some name =>
      match cfg.servers.get name with
      | some found => .ok (some found)
      | none => .error ("service '" ++ name ++ "' not found in config")

/-- `resolve_params`. -/
def resolveParams (home : Option String) (cli : CliOptions) (config : Option DaemonConfig) :
    Except String ResolvedParams :=
  match serviceCfg cli config with
  | .error e => .error e
  | .ok service =>
    if config.isSome && cli.service.isNone then .error "--service is required when using --config"
    else
      match cli.socket.or ((service.bind (·.socket)).map (expandPath home)) with
      | none => .error "socket path not provided (use --socket or config)"
      | some socket =>
        match cli.cmd.or (service.bind (·.cmd)) with
        | none => .error "cmd not provided (use --cmd or config)"
        | some cmd => .ok
          { socket := socket
            cmd := cmd
            args := if !cli.args.isEmpty then cli.args else (service.bind (·.args)).getD []
            cwd := (service.bind (·.cwd)).map (expandPath home)
            -- here the config comes first, and the command line has a default
            maxClients := (service.bind (·.maxActiveClients)).getD cli.maxActiveClients
            trayEnabled := if cli.tray then true else (service.bind (·.tray)).getD false
            logLevel := (service.bind (·.logLevel)).getD cli.logLevel
            lazyStart := cli.lazyStart.getD ((service.bind (·.lazyStart)).getD false)
            maxRequestBytes :=
              cli.maxRequestBytes.getD ((service.bind (·.maxRequestBytes)).getD 1048576)
            requestTimeout :=
              cli.requestTimeoutMs.getD ((service.bind (·.requestTimeoutMs)).getD 30000)
            restartBackoff :=
              (cli.restartBackoffMs.or (service.bind (·.restartBackoffMs))).getD 1000
            restartBackoffMax :=
              (cli.restartBackoffMaxMs.or (service.bind (·.restartBackoffMaxMs))).getD 30000
            maxRestarts := (cli.maxRestarts.or (service.bind (·.maxRestarts))).getD 5
            statusFile := cli.statusFile.or ((service.bind (·.statusFile)).map (expandPath home))
            env := service.bind (·.env)
            serviceName :=
              ((cli.serviceName.or (service.bind (·.serviceName))).or (socketStem socket)).getD
                "rust_mux"
            heartbeatInterval :=
              (cli.heartbeatIntervalMs.or (service.bind (·.heartbeatIntervalMs))).getD 30000
            heartbeatTimeout :=
              (cli.heartbeatTimeoutMs.or (service.bind (·.heartbeatTimeoutMs))).getD 30000
            heartbeatMaxFailures :=
              (cli.heartbeatMaxFailures.or (service.bind (·.heartbeatMaxFailures))).getD 3
            heartbeatEnabled :=
              (cli.heartbeatEnabled.or (service.bind (·.heartbeatEnabled))).getD true }

/-! ## Several services -/

namespace CliOptions

/-- `SingleCli`: the same command line, for one service. -/
def single (cli : CliOptions) (name : String) : CliOptions :=
  { cli with service := some name, only := none, except := none }

/-- The service passes `--only` and `--except`. -/
def selects (cli : CliOptions) (name : String) : Bool :=
  cli.only.all (·.contains name) && !cli.except.any (·.contains name)

/-- `is_multi_mode`. -/
def isMultiMode (cli : CliOptions) (config : Option DaemonConfig) : Bool :=
  config.isSome && cli.service.isNone &&
    (cli.only.isSome || cli.except.isSome || cli.socket.isNone)

end CliOptions

/-- `resolve_params_multi`, which returns at the first service that fails. -/
def resolveParamsMulti (home : Option String) (cli : CliOptions) (config : DaemonConfig)
    (order : List String) : Except String (List ResolvedParams) :=
  (order.filter cli.selects).mapM fun name => resolveParams home (cli.single name) (some config)

end Config

end VcOperator
