import VcOperator.Config.Model.Files
import VcOperator.Config.Model.Wizard
import VcOperator.Control.Model.Command
/-!
# The verify gate

`handle_verify` with the scan it rests on, and the client side of the gate,
`pre_launch_verify`. The gate is to let a client launch only when all its
servers go through the mux.
-/

namespace VcOperator

namespace Control

open Config

/-! ## The sources -/

/-- A well-known source under the home directory. -/
def source (home : String) (kind : HostKind) (dir fileName : String) (format : HostFormat)
    (schema : ConfigSchema) (eligible : Bool) : HostFile where
  kind := kind
  path := ⟨if dir = "" then home else joinPath home dir, some fileName⟩
  format := format
  schema := schema
  eligibleForDanger := eligible

/-- `default_sources`. -/
def defaultSources (home : String) : List HostFile :=
  [source home .claude "" ".claude.json" .json .mcpServersJson true,
    source home .claudeDesktop "Library/Application Support/Claude" "claude_desktop_config.json"
      .json .mcpServersJson true,
    source home .codex ".codex" "config.toml" .toml .mcpServersToml true,
    source home .junie ".junie/mcp" "mcp.json" .json .mcpServersJson true,
    source home .junie ".agents" "mcp.json" .json .autoJson true,
    source home .junie ".ai" "mcp.json" .json .autoJson true,
    source home .gemini ".gemini" "settings.json" .json .autoJson false,
    source home .cursor "Library/Application Support/Cursor/User" "settings.json" .json
      .autoJson true,
    source home .cursor ".config/Cursor/User" "settings.json" .json .autoJson true,
    source home .vsCode "Library/Application Support/Code/User" "settings.json" .json
      .autoJson true,
    source home .vsCode ".config/Code/User" "settings.json" .json .autoJson true,
    source home .jetBrains "Library/Application Support/JetBrains/LLM" "mcp.json" .json
      .autoJson true]

/-- What is on the disk: which paths exist, and what the readable files hold. -/
structure Home where
  dir : String
  exist : Path → Bool
  files : Files

/-- `discover_hosts`. -/
def discoverHosts (home : Home) : List HostFile :=
  (defaultSources home.dir).filter fun file => home.exist file.path

/-- `scan_hosts`: a source that cannot be scanned is skipped. -/
def scanHosts (home : Home) : List ScanResult := scanAll home.files (discoverHosts home)

/-! ## The answer -/

/-- The kind of host a kind of client is, if it has one. -/
def ClientKind.host : ClientKind → Option HostKind
  | claude => some .claude
  | codex => some .codex
  | gemini => some .gemini
  | junie => some .junie
  | generic _ => none

/-- A server's command line contains `rust-mux` or `mux-agent`. -/
def namesMux (srv : HostService) : Bool :=
  let cmdStr := srv.command ++ " " ++ " ".intercalate srv.args
  containsText cmdStr "rust-mux" || containsText cmdStr "mux-agent"

/-- `to_string_lossy` of a path. -/
def pathText (path : Path) : String :=
  match path.fileName with
  | none => path.parent
  | some fileName => joinPath path.parent fileName

/-- `handle_verify`. -/
def handleVerify (home : Home) (kind : ClientKind) : VerifyResult :=
  match kind.host with
  | none => ⟨true, []⟩
  | some clientType =>
    let nonMux := (scanHosts home).flatMap fun scanRes =>
      if scanRes.host.kind.asLabel ≠ clientType.asLabel then []
      else
        (scanRes.services.filter fun srv => !namesMux srv).map fun srv =>
          ⟨clientType.asLabel, pathText scanRes.host.path, 0, srv.name⟩
    ⟨nonMux.isEmpty, nonMux⟩

/-! ## Before a launch -/

/-- `VerifyHalt`. -/
inductive VerifyHalt where
  | drift (entries : List NonMuxEntry)
  | timeout
  deriving DecidableEq

/-- What the client meets on the control socket. -/
inductive Peer where
  /-- The connection is not accepted. -/
  | down
  /-- The command cannot be written. -/
  | deaf
  /-- The peer answers some bytes, and then closes or goes quiet. -/
  | answers (bytes : List UInt8) (closes : Bool)

/-- The bytes up to a newline, or up to the end if the end comes. -/
def readLine (bytes : List UInt8) (closes : Bool) : Option (List UInt8) :=
  match bytes.span (· ≠ 10) with
  | (line, newline :: _) => some (line ++ [newline])
  | (line, []) => if closes then some line else none

/-- What `read_line` leaves in `response_line`: nothing on a read error, a read timeout
and bytes that are not UTF-8. -/
def responseLine : Peer → Option String
  | .answers bytes closes =>
    (readLine bytes closes).bind fun line => String.fromUTF8? ⟨line.toArray⟩
  | _ => none

/-- `pre_launch_verify`; `decode` is `serde_json::from_str::<MuxControlResponse>`, and a
command is always serialised. -/
def preLaunchVerify {σ ε : Type} (decode : String → Option (MuxControlResponse σ ε))
    (peer : Peer) : Except VerifyHalt Unit :=
  match peer with
  | .down => .ok ()
  | .deaf => .error .timeout
  | .answers bytes closes =>
    match responseLine (.answers bytes closes) with
    | none => .error .timeout
    | some line =>
      if line = "" then .error .timeout
      else
        match decode line with
        | some (.verifyResult res) => if !res.ok then .error (.drift res.nonMuxServers) else .ok ()
        | _ => .ok ()

end Control

end VcOperator
