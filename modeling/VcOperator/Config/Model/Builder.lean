import VcOperator.Config.Model.Params
/-!
# The library's builder

`MuxConfig` of `lib.rs`: the calls of the builder, and what a config becomes
when it is run. The times are counted in any unit; `second` is a second in it.
-/

namespace VcOperator

namespace Config

/-- `MuxConfig`. -/
structure MuxConfig where
  socket : String
  cmd : String
  args : List String
  env : Env
  maxClients : ℕ
  serviceName : Option String
  logLevel : String
  lazyStart : Bool
  maxRequestBytes : ℕ
  requestTimeout : ℕ
  restartBackoff : ℕ
  restartBackoffMax : ℕ
  maxRestarts : ℕ
  statusFile : Option String
  trayEnabled : Bool
  heartbeatInterval : ℕ
  heartbeatTimeout : ℕ
  heartbeatMaxFailures : ℕ
  heartbeatEnabled : Bool
  deriving DecidableEq

namespace MuxConfig

/-- `MuxConfig::new`. -/
def new (second : ℕ) (socket cmd : String) : MuxConfig where
  socket := socket
  cmd := cmd
  args := []
  env := ∅
  maxClients := 5
  serviceName := none
  logLevel := "info"
  lazyStart := false
  maxRequestBytes := 1048576
  requestTimeout := 30 * second
  restartBackoff := second
  restartBackoffMax := 30 * second
  maxRestarts := 5
  statusFile := none
  trayEnabled := false
  heartbeatInterval := 30 * second
  heartbeatTimeout := 30 * second
  heartbeatMaxFailures := 3
  heartbeatEnabled := true

/-- A call of the builder: `with_args` and the rest. -/
inductive Call where
  | withArgs (args : List String)
  | withEnv (env : Env)
  | withEnvVar (key value : String)
  | withMaxClients (max : ℕ)
  | withServiceName (name : String)
  | withLogLevel (level : String)
  | withLazyStart (isLazy : Bool)
  | withMaxRequestBytes (bytes : ℕ)
  | withRequestTimeout (timeout : ℕ)
  | withRestartBackoff (initial max : ℕ)
  | withMaxRestarts (max : ℕ)
  | withStatusFile (path : String)
  | withTray (enabled : Bool)
  | withHeartbeat (interval timeout : ℕ)
  | withHeartbeatMaxFailures (maxFailures : ℕ)
  | withHeartbeatEnabled (enabled : Bool)
  deriving DecidableEq

/-- The config after a call. -/
def apply (cfg : MuxConfig) : Call → MuxConfig
  | .withArgs args => { cfg with args := args }
  | .withEnv env => { cfg with env := env }
  | .withEnvVar key value => { cfg with env := cfg.env.insert key value }
  | .withMaxClients max => { cfg with maxClients := max }
  | .withServiceName name => { cfg with serviceName := some name }
  | .withLogLevel level => { cfg with logLevel := level }
  | .withLazyStart isLazy => { cfg with lazyStart := isLazy }
  | .withMaxRequestBytes bytes => { cfg with maxRequestBytes := bytes }
  | .withRequestTimeout timeout => { cfg with requestTimeout := timeout }
  | .withRestartBackoff initial max =>
    { cfg with restartBackoff := initial, restartBackoffMax := max }
  | .withMaxRestarts max => { cfg with maxRestarts := max }
  | .withStatusFile path => { cfg with statusFile := some path }
  | .withTray enabled => { cfg with trayEnabled := enabled }
  | .withHeartbeat interval timeout =>
    { cfg with heartbeatInterval := interval, heartbeatTimeout := timeout }
  | .withHeartbeatMaxFailures maxFailures => { cfg with heartbeatMaxFailures := maxFailures }
  | .withHeartbeatEnabled enabled => { cfg with heartbeatEnabled := enabled }

/-- A chain of calls. -/
def built (second : ℕ) (socket cmd : String) (calls : List Call) : MuxConfig :=
  calls.foldl apply (new second socket cmd)

/-- `MuxConfig::service_name`. -/
def resolvedName (cfg : MuxConfig) : String :=
  cfg.serviceName.getD ((socketStem cfg.socket).getD "rust_mux")

/-- `From<MuxConfig> for ResolvedParams`. -/
def resolved (second : ℕ) (cfg : MuxConfig) : ResolvedParams where
  socket := cfg.socket
  cmd := cfg.cmd
  args := cfg.args
  cwd := none
  env := none
  maxClients := cfg.maxClients
  trayEnabled := cfg.trayEnabled
  logLevel := cfg.logLevel
  serviceName := cfg.resolvedName
  lazyStart := cfg.lazyStart
  maxRequestBytes := cfg.maxRequestBytes
  requestTimeout := cfg.requestTimeout
  restartBackoff := cfg.restartBackoff
  restartBackoffMax := cfg.restartBackoffMax
  maxRestarts := cfg.maxRestarts
  statusFile := cfg.statusFile
  -- constants, whatever the config says
  heartbeatInterval := 30 * second
  heartbeatTimeout := 30 * second
  heartbeatMaxFailures := 3
  heartbeatEnabled := true

end MuxConfig

end Config

end VcOperator
