import VcOperator.Board.Model.Archive
import VcOperator.Board.Model.Render
import VcOperator.Common.Cursor
import VcOperator.Control.Model.Verify
import VcOperator.Launch.Model.Action
/-!
# The operator console

`App` of the operator console: the board of runs, the form of the next
launch, and the actions that can be taken, with a cursor into the runs and
one into the actions. What each operation finds outside of the console comes
with it as a `World`.
-/

namespace VcOperator

namespace Console

open Board (ControlPlaneState Outside RenderedRun RunEvent RunKind RunSnapshot contains)
open Launch (DeepAction ExecError Host LaunchCommand LaunchKind LaunchRequest LaunchRuntime
  PolarizeBand SkillAgent SkillPayload)

/-! ## The parts of the screen -/

/-- `AppTab`. -/
inductive AppTab where
  | monitor | dispatch | controls
  deriving DecidableEq, Repr

namespace AppTab

/-- `AppTab::from_index`. -/
def fromIndex (index : ℕ) : AppTab :=
  match index % 3 with
  | 0 => monitor
  | 1 => dispatch
  | _ => controls

/-- `AppTab::index`. -/
def index : AppTab → ℕ
  | monitor => 0
  | dispatch => 1
  | controls => 2

end AppTab

/-- `DispatchFocus`. -/
inductive DispatchFocus where
  | kind | agent | runtime | prompt
  deriving DecidableEq, Repr

namespace DispatchFocus

/-- `DispatchFocus::COUNT`. -/
def count : ℕ := 4

/-- `DispatchFocus::from_index`. -/
def fromIndex (index : ℕ) : DispatchFocus :=
  match index % count with
  | 0 => kind
  | 1 => agent
  | 2 => runtime
  | _ => prompt

/-- `as usize`. -/
def index : DispatchFocus → ℕ
  | kind => 0
  | agent => 1
  | runtime => 2
  | prompt => 3

end DispatchFocus

/-- `LaunchFocus`. -/
inductive LaunchFocus where
  | browse | editPrompt | help | search | error | artifact
  deriving DecidableEq, Repr

/-- `QueueScope`. -/
inductive QueueScope where
  | live | history | all
  deriving DecidableEq, Repr

namespace QueueScope

/-- `QueueScope::label`. -/
def label : QueueScope → String
  | live => "live"
  | history => "history"
  | all => "all"

/-- `QueueScope::next`. -/
def next : QueueScope → QueueScope
  | live => history
  | history => all
  | all => live

end QueueScope

/-- `PolarizeBand::label`. -/
def bandLabel : PolarizeBand → String
  | .abort => "abort"
  | .memo => "memo"
  | .pass => "pass"
  | .doctrine => "doctrine"

/-- `AppConfig`. -/
structure AppConfig where
  stateRoot : OsString
  commandDeck : OsString
  launchRoot : OsString
  launchRuntime : LaunchRuntime
  terminalBinary : OsString
  noVerifyGate : Bool

/-- `MuxSummary`. -/
structure MuxSummary where
  displayName : String

/-- `PolarizeIntent`. -/
structure PolarizeIntent where
  band : PolarizeBand
  score : UInt8
  runId : String
  prismPath : OsString

/-! ## The catalog of skills -/

/-- `SkillPayloadKind`. -/
inductive SkillPayloadKind where
  | optional | promptOrFile | none
  deriving DecidableEq, Repr

/-- `SkillEntry`. -/
structure SkillEntry where
  slug : String
  defaultAgent : SkillAgent
  accepts : SkillPayloadKind

/-- `CATALOG`. -/
def catalog : List SkillEntry :=
  [⟨"vc-init", .any, .optional⟩,
    ⟨"vc-workflow", .any, .promptOrFile⟩,
    ⟨"vc-research", .any, .promptOrFile⟩,
    ⟨"vc-review", .any, .promptOrFile⟩,
    ⟨"vc-marbles", .any, .promptOrFile⟩,
    ⟨"vc-polarize", .codex, .promptOrFile⟩,
    ⟨"vc-dou", .any, .promptOrFile⟩,
    ⟨"vc-hydrate", .any, .promptOrFile⟩,
    ⟨"vc-decorate", .any, .promptOrFile⟩,
    ⟨"vc-release", .any, .promptOrFile⟩,
    ⟨"vc-ownership", .any, .promptOrFile⟩,
    ⟨"vc-partner", .any, .promptOrFile⟩,
    ⟨"vc-followup", .any, .promptOrFile⟩,
    ⟨"vc-prune", .any, .promptOrFile⟩,
    ⟨"vc-intents", .any, .promptOrFile⟩,
    ⟨"vc-scaffold", .any, .promptOrFile⟩,
    ⟨"vc-implement", .any, .promptOrFile⟩,
    ⟨"vc-justdo", .any, .promptOrFile⟩,
    ⟨"vc-delegate", .any, .promptOrFile⟩,
    ⟨"vc-agents", .any, .promptOrFile⟩]

/-- `resolve_skill_agent`. -/
def resolveSkillAgent (selectedAgent : String) : SkillAgent → SkillAgent
  | .any => SkillAgent.fromCliToken selectedAgent
  | concrete => concrete

/-- `agents`. -/
def agents : List String := ["claude", "codex", "gemini"]

/-- `default_prompt`. -/
def defaultPrompt : LaunchKind → String
  | .workflow => "Plan and implement the task I am looking at now."
  | .research => "Research the task I am looking at now and report the ground truth."
  | .review => "Review the selected surface and call out concrete risks."
  | .marbles => "Run a convergence loop on the selected surface until the lies are exposed."

/-- `default_session_name`, so many milliseconds after the epoch. -/
def defaultSessionName (millis : ℕ) (kind : LaunchKind) : String :=
  let suffix := toString (millis % 100000)
  "vc-op-" ++ kind.label ++ "-" ++ "".pushn '0' (5 - suffix.length) ++ suffix

/-! ## What is outside -/

/-- `LaunchRunError`. -/
inductive LaunchRunError where
  | exec (error : ExecError)
  | clientDrift (halt : Control.VerifyHalt)

/-- `LaunchRunError::detail_lines`. -/
def LaunchRunError.detailLines (summary : String) : LaunchRunError → List String
  | exec error =>
    ["command: " ++ summary, "error: " ++ error.message] ++
    error.probeError.toList.map ("readiness probe: " ++ ·) ++
    error.probeErrorAtDeadline.toList.map ("readiness timeout probe: " ++ ·) ++
    if isBlank error.stderr then []
    else ["", "stderr:"] ++ (textLines error.stderr).map String.ofList
  | clientDrift halt =>
    ["Client drift detected. Dispatch halted.", "Non-mux servers found:"] ++
    (match halt with
      | .drift servers => servers.map fun entry =>
        "  " ++ entry.client ++ " (" ++ entry.path ++ ":" ++ toString entry.line ++ ")"
      | .timeout => ["  Timeout waiting for verify response from rust-mux."]) ++
    ["", "Press F to auto-fix (spawns rust-mux wizard)."]

/-- What one operation finds outside. An error is its text. -/
structure World (τ : Type) where
  /-- `Utc::now()`. -/
  now : τ
  /-- `now` as a text, and in milliseconds since the epoch. -/
  rfc3339 : String
  millis : ℕ
  host : Host
  floats : Json.Floats
  /-- `ControlPlaneState::load`. -/
  load : Option (ControlPlaneState RunSnapshot RunEvent)
  /-- `mux::current_summaries`. -/
  currentSummaries : List MuxSummary
  /-- `polarize::current_intents`. -/
  currentIntents : List PolarizeIntent
  createDirAll : OsString → Except String Unit
  write : OsString → String → Except String Unit
  /-- `Clipboard::new` and `set_text`. -/
  setText : String → Except String Unit
  /-- `artifact_lines`. -/
  artifactLines : OsString → Option String → Except String (List String)
  /-- `polarize::prism_preview_lines`. -/
  prismPreviewLines : OsString → Except String (List String)
  preLaunchVerify : Control.ClientKind → Except Control.VerifyHalt Unit
  /-- The pid, if there is a child. -/
  spawnDetached : LaunchCommand → Except String ℕ
  suspendAndRun : LaunchCommand → Except LaunchRunError Unit

/-- What the console does outside. -/
inductive Effect where
  | createDirAll (path : OsString)
  | write (path : OsString) (text : String)
  | setText (text : String)
  | preLaunchVerify (client : Control.ClientKind)
  | spawnDetached (command : LaunchCommand)
  | suspendAndRun (command : LaunchCommand)
  /-- `zellij run --name auto-rewire -- rust-mux wizard --strategy auto-rewire {agent}`. -/
  | autoRewire (agent : String)

/-! ## The state -/

/-- `App`. The agent is one of `agents`. -/
structure App where
  config : AppConfig
  runs : List RenderedRun
  selected : ℕ
  activeTabIndex : ℕ
  launchKind : LaunchKind
  launchAgent : Fin agents.length
  launchPrompt : String
  launchRuntime : LaunchRuntime
  dispatchSelected : ℕ
  focus : LaunchFocus
  statusLine : String
  launchHistory : List String
  deepSelected : ℕ
  queueScope : QueueScope
  searchQuery : String
  errorTitle : String
  errorLines : List String
  artifactTitle : String
  artifactLines : List String
  muxSummaries : List MuxSummary
  polarizeIntents : List PolarizeIntent

/-! ## The runs that are shown -/

/-- `is_live_run`. -/
def isLiveRun (kind : RunKind) : Bool := kind = .active || kind = .stalled || kind = .paused

/-- `to_ascii_lowercase`. -/
def toAsciiLowercase (text : String) : String := String.ofList (text.toList.map Char.toLower)

/-- `run_matches_query`. -/
def runMatchesQuery (query : String) (run : RenderedRun) : Bool :=
  let snapshot := run.snapshot
  [some snapshot.runId, snapshot.sessionId, snapshot.agent, snapshot.skill, snapshot.mode,
    snapshot.state, snapshot.status, snapshot.root, snapshot.latestReport,
    snapshot.latestTranscript].reduceOption.any fun value =>
      contains (toAsciiLowercase value) query

/-- `apply_run_filters`. -/
def applyRunFilters (runs : List RenderedRun) (queueScope : QueueScope) (searchQuery : String) :
    List RenderedRun :=
  let runs :=
    match queueScope with
    | .live => runs.filter fun run => isLiveRun run.kind
    | .history => runs.filter fun run => !isLiveRun run.kind
    | .all => runs
  let query := toAsciiLowercase (String.ofList (trim searchQuery.toList))
  if query = "" then runs else runs.filter (runMatchesQuery query)

/-! ## The actions -/

/-- A value that is there and not empty. -/
def nonEmpty (value : Option String) : Option String := value.filter (· ≠ "")

/-- The actions of the selected run. -/
def runActions (snapshot : RunSnapshot) : List DeepAction :=
  (nonEmpty snapshot.operatorSession).toList.map .attachSession ++
  (match nonEmpty snapshot.agent, nonEmpty snapshot.sessionId with
    | some agent, some session => [.resumeSession agent session]
    | _, _ => []) ++
  (nonEmpty snapshot.latestReport).toList.map (fun report => .openReport (.ofString report)) ++
  (nonEmpty snapshot.latestTranscript).toList.map
    (fun transcript => .openTranscript (.ofString transcript)) ++
  (nonEmpty snapshot.root).toList.map fun root => .openRoot (.ofString root)

/-- The action of an entry of the catalog. -/
def skillLaunch (selectedAgent launchPrompt : String) (entry : SkillEntry) : DeepAction :=
  let agent := resolveSkillAgent selectedAgent entry.defaultAgent
  let payload :=
    match entry.accepts with
    | .none => .none
    | .optional | .promptOrFile =>
      if isBlank launchPrompt then .none else .prompt launchPrompt
  .skillLaunch entry.slug agent payload

namespace App

/-- `selected_run`. -/
def selectedRun (app : App) : Option RenderedRun := app.runs[app.selected]?

/-- `active_tab`. -/
def activeTab (app : App) : AppTab := AppTab.fromIndex app.activeTabIndex

/-- `selected_agent`. -/
def selectedAgent (app : App) : String := agents.get app.launchAgent

/-- `deep_actions`. -/
def deepActions (app : App) : List DeepAction :=
  (app.selectedRun.elim [] fun run => runActions run.snapshot) ++
  app.muxSummaries.map (fun summary => .muxHealth summary.displayName) ++
  app.polarizeIntents.map (fun intent =>
    .polarizeIntent intent.band intent.score intent.runId intent.prismPath) ++
  catalog.map (skillLaunch app.selectedAgent app.launchPrompt)

/-- `selected_deep_action`. -/
def selectedDeepAction (app : App) : Option DeepAction := app.deepActions[app.deepSelected]?

/-! ## The cursors -/

/-- `move_selection`. -/
def moveSelection (app : App) (delta : ℤ) : App :=
  if app.runs.isEmpty then { app with selected := 0 }
  else { app with selected := Cursor.wrap app.runs.length app.selected delta }

/-- `move_deep_selection`. -/
def moveDeepSelection (app : App) (delta : ℤ) : App :=
  if app.deepActions.length = 0 then { app with deepSelected := 0 }
  else { app with deepSelected := Cursor.wrap app.deepActions.length app.deepSelected delta }

/-- `sync_selection`: the second cursor is brought back for the run that the first selects. -/
def syncSelection (app : App) : App :=
  let app := if app.runs.isEmpty then app
    else { app with selected := Cursor.clamp app.runs.length app.selected }
  if app.deepActions.length = 0 then { app with deepSelected := 0 }
  else { app with deepSelected := Cursor.clamp app.deepActions.length app.deepSelected }

/-! ## Refreshing -/

section

variable {τ : Type} [LinearOrder τ] (out : Outside τ) (world : World τ)

/-- `refresh_mux`. -/
def refreshMux (app : App) : App := { app with muxSummaries := world.currentSummaries }

/-- `refresh_polarize`. -/
def refreshPolarize (app : App) : App := { app with polarizeIntents := world.currentIntents }

/-- `render_runs` of the loaded state, or of the empty one. -/
def renderedRuns : List RenderedRun :=
  match world.load with
  | some state => Board.renderRuns out state world.now
  | none => Board.renderRuns out (.empty []) world.now

/-- `refresh`. -/
def refresh (app : App) : App :=
  let runs := applyRunFilters (renderedRuns out world) app.queueScope app.searchQuery
  (({ app with runs := runs }.syncSelection).refreshMux world).refreshPolarize world

/-- `App::new`. -/
def new (config : AppConfig) : App :=
  let app : App := {
    config := config
    runs := applyRunFilters (renderedRuns out world) .live ""
    selected := 0
    activeTabIndex := AppTab.monitor.index
    launchKind := .workflow
    launchAgent := ⟨0, by decide⟩
    launchPrompt := defaultPrompt .workflow
    launchRuntime := config.launchRuntime
    dispatchSelected := DispatchFocus.kind.index
    focus := .browse
    statusLine := ""
    launchHistory := []
    deepSelected := 0
    queueScope := .live
    searchQuery := ""
    errorTitle := ""
    errorLines := []
    artifactTitle := ""
    artifactLines := []
    muxSummaries := []
    polarizeIntents := [] }
  (app.syncSelection.refreshMux world).refreshPolarize world

end

end App

end Console

end VcOperator
