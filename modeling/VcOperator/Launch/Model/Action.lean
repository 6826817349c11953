import VcOperator.Control.Model.Command
import VcOperator.Launch.Model.Command
/-!
# Actions and the readiness deadline

`deep_control_command`, `build_skill_launch_command` and
`wait_for_interactive_launch` of the operator console. How the processes
behave comes from outside: what each probe prints, and what becomes of the
child.
-/

namespace VcOperator

namespace Launch

/-! ## Skills -/

/-- `SkillAgent`. -/
inductive SkillAgent where
  | claude | codex | gemini | any
  deriving DecidableEq, Repr

namespace SkillAgent

/-- `SkillAgent::from_cli_token`. -/
def fromCliToken (raw : String) : SkillAgent :=
  if raw = "claude" then claude
  else if raw = "gemini" then gemini
  else if raw = "codex" then codex
  else any

/-- `SkillAgent::resolved_cli_token`. -/
def resolvedCliToken (fallback : SkillAgent) : SkillAgent → String
  | claude => "claude"
  | codex => "codex"
  | gemini => "gemini"
  | any =>
    match fallback with
    | claude => "claude"
    | gemini => "gemini"
    | _ => "codex"

end SkillAgent

/-- `SkillPayload`. -/
inductive SkillPayload where
  | prompt (prompt : String)
  | file (path : OsString)
  | none

/-- The arguments of a payload. -/
def SkillPayload.args : SkillPayload → List OsString
  | prompt text => promptArgs text
  | file path => [.ofString "--file", path]
  | none => []

/-- `skill.strip_prefix("vc-").unwrap_or(skill)`. -/
def commandSkill (skill : String) : String :=
  match skill.toList with
  | 'v' :: 'c' :: '-' :: rest => String.ofList rest
  | _ => skill

/-- `build_skill_launch_command`. -/
def buildSkillLaunchCommand (deck : OsString) (skill : String) (agent fallbackAgent : SkillAgent)
    (payload : SkillPayload) (env : Env) : LaunchCommand where
  program := deck
  args :=
    .ofString (commandSkill skill) :: .ofString (agent.resolvedCliToken fallbackAgent) ::
      payload.args
  env := env

/-! ## Deep control -/

/-- `PolarizeBand`. -/
inductive PolarizeBand where
  | abort | memo | pass | doctrine
  deriving DecidableEq, Repr

/-- `DeepAction`. -/
inductive DeepAction where
  | attachSession (session : String)
  | resumeSession (agent session : String)
  | openReport (path : OsString)
  | openTranscript (path : OsString)
  | openRoot (path : OsString)
  | muxHealth (service : String)
  | muxRestart (service : String)
  | muxVerifyClient (client : Control.ClientKind)
  | muxFixClientDrift (client : Control.ClientKind)
  | polarizeIntent (band : PolarizeBand) (score : UInt8) (runId : String) (prismPath : OsString)
  | skillLaunch (skill : String) (agent : SkillAgent) (payload : SkillPayload)

/-- What the commands depend on of `App`. -/
structure App where
  commandDeck : OsString
  launchRoot : OsString
  stateRoot : OsString
  selectedAgent : String

/-- `App::launch_env`. -/
def App.launchEnv (host : Host) (app : App) : Env :=
  let env := ((∅ : Env).insert "VIBECRAFTED_ROOT" app.launchRoot).insert
    "VIBECRAFT_OPERATOR_STATE_ROOT" app.stateRoot
  match host.zellijConfigDir.filter (·.bytes ≠ []) with
  | some configDir => env.insert "ZELLIJ_CONFIG_DIR" configDir
  | none => env

/-- `deep_control_command`: nothing, where the source says `unreachable!`. -/
def deepControlCommand (host : Host) (app : App) : DeepAction → Option LaunchCommand
  | .attachSession session => some {
      program := app.commandDeck
      args := [.ofString "dashboard", .ofString "attach", .ofString session]
      env := ∅ }
  | .resumeSession agent session => some {
      program := app.commandDeck
      args := [.ofString "resume", .ofString agent, .ofString "--session", .ofString session]
      env := ∅ }
  | .muxHealth service => some {
      program := .ofString "rust-mux"
      args := [.ofString "health", .ofString "--service", .ofString service]
      env := ∅ }
  | .skillLaunch skill agent payload =>
    some (buildSkillLaunchCommand app.commandDeck skill agent
      (SkillAgent.fromCliToken app.selectedAgent) payload (app.launchEnv host))
  | _ => none

/-! ## Waiting for a launch -/

/-- `Output` of a process. -/
structure Output where
  success : Bool
  /-- How the status is displayed. -/
  status : String
  stdout : List UInt8
  stderr : List UInt8

/-- `LaunchReadinessProbe::is_session_visible`, of what running the probe gives. -/
def LaunchReadinessProbe.isSessionVisible (probe : LaunchReadinessProbe) :
    Except String Output → Except String Bool
  | .error error => .error ("failed to run zellij readiness probe: " ++ error)
  | .ok output =>
    if output.success then
      .ok ((textLines (Utf8.fromUtf8Lossy output.stdout)).any fun line =>
        String.ofList (trim line) = probe.sessionName)
    else
      let stderr := Utf8.fromUtf8Lossy output.stderr
      if isBlank stderr then .ok false
      else .error ("zellij readiness probe exited with " ++ output.status ++ ": " ++
        String.ofList (trim stderr.toList))

/-- `LaunchRunError::Exec`. -/
structure ExecError where
  message : String
  stderr : String
  probeError : Option String
  probeErrorAtDeadline : Option String

/-- One round of the loop. -/
structure Tick where
  /-- What running the probe gives. -/
  probe : Except String Output
  /-- `child.try_wait()`: whether it has exited. -/
  exited : Except String Bool

/-- What becomes of a launch. -/
structure Wait where
  /-- `child.kill()` was called. -/
  killed : Bool
  result : Except ExecError Output

/-- `child.wait_with_output()`. -/
def waitWithOutput (finish : Except String Output) (probeError : Option String) :
    Except ExecError Output :=
  match finish with
  | .ok output => .ok output
  | .error err => .error ⟨"launch process failed: " ++ err, "", probeError, none⟩

/-- The loop up to the deadline, which comes after these rounds. -/
def pollReadiness (probe : LaunchReadinessProbe) (finish : Except String Output) :
    List Tick → Option String → Wait
  | [], probeError => {
      killed := true
      result := .error {
        message := "zellij session '" ++ probe.sessionName ++
          "' did not appear within the 2000ms readiness window"
        stderr := ""
        probeError := probeError
        probeErrorAtDeadline := probeError.map fun error =>
          "killed after 2000ms, last probe error: " ++ error } }
  | tick :: ticks, probeError =>
    match probe.isSessionVisible tick.probe with
    | .ok true => ⟨false, waitWithOutput finish probeError⟩
    | seen =>
      -- the first error is the one that is kept
      let probeError :=
        match probeError, seen with
        | none, .error error => some error
        | _, _ => probeError
      match tick.exited with
      | .ok true =>
        ⟨false,
          match waitWithOutput finish probeError with
          | .error error => .error error
          | .ok output =>
            if output.success then
              .error ⟨"zellij session '" ++ probe.sessionName ++
                "' exited before the readiness probe saw it",
                Utf8.fromUtf8Lossy output.stderr, probeError, none⟩
            else .ok output⟩
      | .ok false => pollReadiness probe finish ticks probeError
      | .error err =>
        ⟨false, .error ⟨"failed to inspect launch child: " ++ err, "", probeError, none⟩⟩

/-- `wait_for_interactive_launch`. -/
def waitForInteractiveLaunch (command : LaunchCommand) (ticks : List Tick)
    (finish : Except String Output) : Wait :=
  match command.readinessProbe with
  | some probe => pollReadiness probe finish ticks none
  | none => ⟨false, waitWithOutput finish none⟩

end Launch

end VcOperator
