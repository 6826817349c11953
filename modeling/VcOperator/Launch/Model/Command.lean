import Mathlib.Data.String.Basic
import VcOperator.Common.OrderedMap
import VcOperator.Common.Text
/-!
# Launch commands

The launches of the operator console: the command deck itself, or a terminal
multiplexer with a pane that runs the deck in a shell. What the environment
says, and which files there are, is a parameter.
-/

namespace VcOperator

namespace Launch

/-- `LaunchKind`. -/
inductive LaunchKind where
  | workflow | research | review | marbles
  deriving DecidableEq, Repr

namespace LaunchKind

/-- `LaunchKind::label`. -/
def label : LaunchKind → String
  | workflow => "workflow"
  | research => "research"
  | review => "review"
  | marbles => "marbles"

/-- `LaunchKind::human_title`. -/
def humanTitle : LaunchKind → String
  | workflow => "Workflow"
  | research => "Research swarm"
  | review => "Review"
  | marbles => "Marbles loop"

end LaunchKind

/-- `LaunchRuntime`. -/
inductive LaunchRuntime where
  | headless | terminal | visible
  deriving DecidableEq, Repr

/-- `LaunchRuntime::label`. -/
def LaunchRuntime.label : LaunchRuntime → String
  | headless => "headless"
  | terminal => "terminal"
  | visible => "visible"

/-- Variables for a child. -/
abbrev Env := OrderedMap String OsString

/-- `LaunchRequest`. -/
structure LaunchRequest where
  kind : LaunchKind
  agent : String
  prompt : String
  runtime : LaunchRuntime
  root : Option OsString
  terminalBinary : Option OsString
  env : Env
  count : Option UInt32
  depth : Option UInt32
  sessionName : Option String

/-- `LaunchCommand`. -/
structure LaunchCommand where
  program : OsString
  args : List OsString
  env : Env
  deriving DecidableEq

/-- What the console finds around it. -/
structure Host where
  /-- `env::var_os("ZELLIJ_CONFIG_DIR")`. -/
  zellijConfigDir : Option OsString
  /-- `Path::is_file`. -/
  isFile : OsString → Bool

/-- `resolved_zellij_config_dir`. -/
def resolvedZellijConfigDir (host : Host) (root : Option OsString) : Option OsString :=
  match host.zellijConfigDir.filter (·.bytes ≠ []) with
  | some dir => some dir
  | none => do
    let root ← root
    let repoConfigDir := root.join "config/zellij"
    if host.isFile (repoConfigDir.join "config.kdl") then some repoConfigDir else none

/-! ## The deck -/

/-- The arguments that hand over a prompt, if there is one. -/
def promptArgs (prompt : String) : List OsString :=
  if isBlank prompt then [] else [.ofString "--prompt", .ofString prompt]

/-- The arguments that depend on the kind. -/
def kindArgs (request : LaunchRequest) : List OsString :=
  match request.kind with
  | .workflow | .review => .ofString request.agent :: promptArgs request.prompt
  | .research => promptArgs request.prompt
  | .marbles =>
    [.ofString request.agent,
      .ofString "--count", .ofString (toString (request.count.getD 3).toNat),
      .ofString "--depth", .ofString (toString (request.depth.getD 3).toNat)] ++
      promptArgs request.prompt

/-- `build_deck_launch_command`. -/
def buildDeckLaunchCommand (deck : OsString) (request : LaunchRequest) : LaunchCommand where
  program := deck
  args :=
    .ofString request.kind.label :: kindArgs request ++
      [.ofString "--runtime", .ofString request.runtime.label] ++
      match request.root with
      | some root => [.ofString "--root", root]
      | none => []
  env := request.env

/-! ## Quoting -/

/-- `shell_quote`. -/
def shellQuote (raw : String) : String := "'" ++ replace '\'' "'\"'\"'" raw ++ "'"

/-- `shell_name`. -/
def shellName (raw : String) : String :=
  String.ofList (raw.toList.filter fun ch => ch.isAlphanum || ch = '_')

/-- `shell_join`. -/
def shellJoin (program : OsString) (args : List OsString) : String :=
  " ".intercalate ((program :: args).map fun value => shellQuote value.toStringLossy)

/-- `kdl_quote`. -/
def kdlQuote (raw : String) : String :=
  "\"" ++ replace '\n' "\\n" (replace '"' "\\\"" (replace '\\' "\\\\" raw)) ++ "\""

/-- `tooling_profile_snippets`. -/
def toolingProfileSnippets : List String :=
  ["if command -v starship >/dev/null 2>&1; then eval \"$(starship init bash)\"; fi",
    "if command -v zoxide >/dev/null 2>&1; then eval \"$(zoxide init bash)\"; fi",
    "if command -v atuin >/dev/null 2>&1; then eval \"$(atuin init bash --disable-up-arrow)\"; fi"]

/-! ## The terminal multiplexer -/

/-- `build_pane_shell_command`. -/
def buildPaneShellCommand (host : Host) (deck : OsString) (request : LaunchRequest) : String :=
  let configDir := (resolvedZellijConfigDir host request.root).toList.map fun dir =>
    "export ZELLIJ_CONFIG_DIR=" ++ shellQuote dir.toStringLossy
  let env := request.env.entries.map fun (key, value) =>
    "export " ++ shellName key ++ "=" ++ shellQuote value.toStringLossy
  "; ".intercalate (configDir ++ env ++ toolingProfileSnippets ++
    ["exec " ++ shellJoin deck (buildDeckLaunchCommand deck request).args])

/-- The current directory of a pane. -/
def cwdProp : Option OsString → String
  | some root => "cwd=" ++ kdlQuote root.toStringLossy ++ " "
  | none => ""

/-- `build_zellij_layout_string`. -/
def buildZellijLayoutString (host : Host) (deck : OsString) (request : LaunchRequest) : String :=
  "layout \x7b tab name=" ++ kdlQuote ("Operator " ++ request.kind.humanTitle) ++
    " focus=true \x7b pane name=" ++ kdlQuote "launch" ++ " focus=true command=" ++
    kdlQuote "bash" ++ " " ++ cwdProp request.root ++ "\x7b args " ++ kdlQuote "-lc" ++ " " ++
    kdlQuote (buildPaneShellCommand host deck request) ++ " \x7d \x7d \x7d \x7d"

/-- `build_terminal_launch_command`. -/
def buildTerminalLaunchCommand (host : Host) (deck : OsString) (request : LaunchRequest) :
    LaunchCommand where
  program := request.terminalBinary.getD (.ofString "zellij")
  args :=
    (match request.sessionName with
      | some name => [.ofString "--session", .ofString name]
      | none => []) ++
    .ofString "options" ::
    (match resolvedZellijConfigDir host request.root with
      | some configDir => [.ofString "--config-dir", configDir]
      | none => []) ++
    [.ofString "--layout-string", .ofString (buildZellijLayoutString host deck request)]
  env := request.env

/-- `build_launch_command`. -/
def buildLaunchCommand (host : Host) (deck : OsString) (request : LaunchRequest) :
    LaunchCommand :=
  match request.runtime with
  | .terminal | .visible => buildTerminalLaunchCommand host deck request
  | .headless => buildDeckLaunchCommand deck request

/-! ## The readiness probe -/

/-- `LaunchReadinessProbe`. -/
structure LaunchReadinessProbe where
  program : OsString
  args : List OsString
  env : Env
  sessionName : String
  deriving DecidableEq

/-- The argument after the first one that is this flag. -/
def flagValue (flag : String) : List OsString → Option OsString
  | first :: second :: args =>
    if first = .ofString flag then some second else flagValue flag (second :: args)
  | _ => none

/-- The arguments of a probe. -/
def probeArgs (configDir : Option OsString) : List OsString :=
  (match configDir with
    | some dir => [.ofString "--config-dir", dir]
    | none => []) ++
  [.ofString "list-sessions", .ofString "--short", .ofString "--no-formatting"]

/-- `LaunchCommand::readiness_probe`. -/
def LaunchCommand.readinessProbe (command : LaunchCommand) : Option LaunchReadinessProbe := do
  let sessionName ← flagValue "--session" command.args
  return {
    program := command.program
    args := probeArgs (flagValue "--config-dir" command.args)
    env := command.env
    sessionName := sessionName.toStringLossy }

end Launch

end VcOperator
