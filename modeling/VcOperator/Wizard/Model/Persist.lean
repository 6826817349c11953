import VcOperator.Config.Model.Backup
import VcOperator.Wizard.Model.Keys
/-!
# What the wizard does

`wizard/persist.rs`, and the loops of `wizard/mod.rs`: keys are read until a
handler ends the loop, the action that is pending is taken and carried out,
and a strategy is followed by the keys of STEP 5. What an action asks of the
system is kept in order, with the line it reads from the operator.
-/

namespace VcOperator

namespace Wizard

open Config

/-! ## The selection -/

/-- `ServiceShapeKey`. -/
structure ServiceShapeKey where
  command : String
  args : List String
  socket : Option String
  env : List (String × String)
  deriving DecidableEq

/-- `ServiceExactKey`. -/
structure ServiceExactKey where
  name : String
  shape : ServiceShapeKey
  deriving DecidableEq

/-- `sorted_env`. -/
def sortedEnv : Option Env → List (String × String)
  | none => []
  | some env => env.entries

/-- The shape of a service. -/
def shapeOf (svc : HostService) : ServiceShapeKey where
  command := svc.command
  args := svc.args
  socket := svc.socket
  env := sortedEnv svc.env

/-- `SelectedServiceFilter`. -/
structure SelectedServiceFilter where
  exact : List ServiceExactKey
  conflictShapes : List ServiceShapeKey

namespace SelectedServiceFilter

/-- `SelectedServiceFilter::from_app`. -/
def fromApp (app : AppState) : SelectedServiceFilter :=
  let selected := (app.services.filter (·.selected)).map ServiceEntry.toHostService
  { exact := selected.map fun svc => ⟨svc.name, shapeOf svc⟩
    -- The source file of a renamed variant still has it under its first name.
    conflictShapes := (selected.filter fun svc => containsText svc.name "-from-").map shapeOf }

/-- `SelectedServiceFilter::matches`. -/
def matchesService (filter : SelectedServiceFilter) (svc : HostService) : Bool :=
  decide (⟨svc.name, shapeOf svc⟩ ∈ filter.exact) || decide (shapeOf svc ∈ filter.conflictShapes)

end SelectedServiceFilter

/-- `selected_scans`. -/
def selectedScans (files : Files) (app : AppState) : List ScanResult :=
  let filter := SelectedServiceFilter.fromApp app
  (sourceScans files app.sources).map fun scan =>
    { scan with services := scan.services.filter filter.matchesService }

/-- `selected_danger_scans`. -/
def selectedDangerScans (files : Files) (app : AppState) : List ScanResult :=
  (selectedScans files app).filter (·.host.eligibleForDanger)

/-! ## Asking the system -/

/-- What an action asks of the system. -/
inductive Effect where
  | createDirAll (dir : String)
  | writeDaemon (path : String) (contents : DaemonConfig)
  | writeClient (path : String) (contents : ClientPayload)
  /-- `read_line` from the operator; `none` where it fails. -/
  | readLine (line : Option String)
  | executePlan (plan : DangerPlan Text)
  | spawn (program : String) (args : List String)

/-- The effect writes a file or spawns a process. -/
def Effect.acts : Effect → Bool
  | readLine _ => false
  | _ => true

/-- What an action finds outside of the wizard. -/
structure World where
  /-- `HOME`. -/
  home : Option String
  /-- `Path::exists`. -/
  pathExists : Path → Bool
  disk : Disk Text
  /-- The operation at a place of the sequence succeeds. -/
  works : ℕ → Bool
  /-- The outputs are serialised. -/
  serializes : Bool
  /-- The line the operator types. -/
  typed : Option String
  weather : ℕ → Weather Text
  /-- The directory of the running program. -/
  exeDir : Option String
  /-- The pid of a process that is spawned. -/
  pid : Option ℕ

/-- An action that was carried out. -/
structure Ran where
  effects : List Effect
  /-- `none` is an error. -/
  result : Option Summary

/-- Operations in sequence, up to the first that fails. -/
def attempt : List Effect → (ℕ → Bool) → List Effect × Bool
  | [], _ => ([], true)
  | op :: ops, works =>
    if works 0 then
      let rest := attempt ops fun i => works (i + 1)
      (op :: rest.1, rest.2)
    else ([op], false)

/-- What is written, and then its summary. -/
def attempting (world : World) (ops : List Effect) (summary : Summary) : Ran :=
  let attempted := attempt ops world.works
  ⟨attempted.1, if attempted.2 then some summary else none⟩

/-- `default_mux_dir`. -/
def defaultMuxDir (home : Option String) : String := expandPath home "~/.config/mux"

/-! ## The strategies -/

/-- `write_mux_outputs`. -/
def writeMuxOutputs (muxDir : String) (outputs : MuxOutputs) : List Effect :=
  [.createDirAll muxDir, .createDirAll outputs.socketDir,
    .writeDaemon (joinPath muxDir "config.toml") outputs.configToml,
    .writeClient (joinPath muxDir "mcp.json") (.json outputs.mcpJson),
    .writeClient (joinPath muxDir "mcp.toml") (.toml outputs.mcpToml)]

/-- `run_unified_generate`. -/
def runUnifiedGenerate (world : World) (app : AppState) : Ran :=
  let merge := buildMergeFromServices app.services
  if merge.services = [] then ⟨[], some (.nothingSelected .unified)⟩
  else if world.serializes = false then ⟨[], none⟩
  else
    let muxDir := defaultMuxDir world.home
    let outputs := buildMuxOutputs merge muxDir "rust-mux-proxy" []
    if app.dryRun then ⟨[], some (.wouldGenerate outputs)⟩
    else attempting world (writeMuxOutputs muxDir outputs) (.generated outputs)

/-- `write_per_client_outputs`. -/
def writePerClientOutputs (muxDir : String) (outputs : PerClientOutputs) : List Effect :=
  .createDirAll muxDir :: .createDirAll outputs.socketDir ::
    .writeDaemon (joinPath muxDir "config.toml") outputs.configToml ::
    outputs.clients.map fun client => .writeClient client.path client.contents

/-- `run_per_client_generate`. -/
def runPerClientGenerate (world : World) (app : AppState) : Ran :=
  let scans := selectedScans world.disk.files app
  if scans.all (·.services.isEmpty) then ⟨[], some (.nothingSelected .perClient)⟩
  else if world.serializes = false then ⟨[], none⟩
  else
    let muxDir := defaultMuxDir world.home
    let outputs := buildPerClientOutputs scans muxDir "rust-mux-proxy" []
    if app.dryRun then ⟨[], some (.wouldGeneratePerClient outputs)⟩
    else attempting world (writePerClientOutputs muxDir outputs) (.generatedPerClient outputs)

/-- The outcomes of a plan that count as written. -/
def writtenCount (outcomes : List DangerExecutionOutcome) : ℕ :=
  (outcomes.filter fun o => decide (o.status = .planned) && o.written).length

/-- `run_danger_auto_configure`. -/
def runDangerAutoConfigure (world : World) (app : AppState) : Ran :=
  if (buildMergeFromServices app.services).services = [] then
    ⟨[], some (.nothingSelected .autoRewire)⟩
  else
    let scans := selectedDangerScans world.disk.files app
    if scans = [] then ⟨[], some .noEligibleSources⟩
    else
      let plan := planDangerRewriteForScans world.disk.files scans "rust-mux-proxy" []
        (expandPath world.home "~/.config/mux/sockets")
      if plan.actions.any (decide <| ·.status = .planned) = false then
        ⟨[], some .noEligibleFiles⟩
      else if app.dryRun then ⟨[], some .planRendered⟩
      else
        match world.typed with
        | none => ⟨[.readLine none], none⟩
        | some line =>
          if trim line.toList ≠ "CONFIRM".toList then ⟨[.readLine (some line)], some .cancelled⟩
          else
            ⟨[.readLine (some line), .executePlan plan],
              match (executePlan world.disk plan true world.weather).2 with
              | .ok outcomes => some (.rewired (writtenCount outcomes))
              | .error _ => none⟩

/-- `start_tray_daemon`. -/
def startTrayDaemon (world : World) (app : AppState) : Ran :=
  if app.dryRun then ⟨[], some .wouldStartTray⟩
  else
    let muxConfig := joinPath (defaultMuxDir world.home) "config.toml"
    let configArg := if world.pathExists (pathOf muxConfig) then muxConfig else app.configPath
    let beside := (world.exeDir.map fun dir => joinPath dir "rust-mux").filter fun p =>
      world.pathExists (pathOf p)
    ⟨[.spawn (beside.getD "rust-mux") ["--tray", "--config", configArg]],
      some (match world.pid with
        | some pid => .startedTray pid configArg
        | none => .couldNotStartTray configArg)⟩

/-- The action that is pending is carried out. -/
def perform (world : World) (app : AppState) : PendingAction → Ran
  | .generateUnified => runUnifiedGenerate world app
  | .generatePerClient => runPerClientGenerate world app
  | .autoRewire => runDangerAutoConfigure world app
  | .startTrayDaemon => startTrayDaemon world app

/-! ## The wizard from its first key to its end -/

/-- Where the wizard is. -/
inductive Phase where
  /-- The loop of `run_tui`. -/
  | keys
  /-- `drain_pending_actions`. -/
  | drain
  /-- The loop of `advance_to_step5`. -/
  | tray
  /-- What follows the loop of `advance_to_step5`. -/
  | close
  | ended
  deriving DecidableEq, Repr

/-- An action that was taken from `pending_action`, and the state it was carried out in. -/
structure Performed where
  app : AppState
  action : PendingAction
  ran : Ran

/-- The wizard, with the actions it has carried out. -/
structure Session where
  phase : Phase
  app : AppState
  performed : List Performed

/-- `KeyEventKind`. -/
inductive KeyEventKind where
  | press | repeated | release
  deriving DecidableEq, Repr

/-- `KeyEvent`. -/
structure KeyEvent where
  code : KeyCode
  kind : KeyEventKind
  deriving DecidableEq

/-- What happens to the wizard. -/
inductive Input where
  | key (look : Look) (event : KeyEvent)
  /-- A poll without an event, or an event that is no key. -/
  | idle
  /-- The terminal fails. -/
  | broken
  | act (world : World)

namespace Session

/-- A key event in a loop, and the phase after the loop. -/
def read (s : Session) (look : Look) (event : KeyEvent) (next : Phase) : Session :=
  if event.kind = .release then s
  else
    let handled := handleKey look s.app event.code
    { s with app := handled.1, phase := if handled.2 then next else s.phase }

/-- The state `advance_to_step5` shows. -/
def advanceToStep5 (app : AppState) (summary : Summary) : AppState :=
  { app with
    wizardStep := .resultAndTray
    trayChoice := .no
    strategyResult := some summary
    message := "STEP 5: Up/Down to choose, Enter to confirm, q to quit." }

/-- An action is taken and carried out. -/
def take (s : Session) (world : World) (action : PendingAction) : Performed :=
  let app := { s.app with pendingAction := none }
  ⟨app, action, perform world app action⟩

/-- `drain_pending_actions`. -/
def drainPendingActions (s : Session) (world : World) : Session :=
  match s.app.pendingAction with
  | none => { s with phase := .ended }
  | some action =>
    let taken := s.take world action
    let performed := s.performed ++ [taken]
    match action, taken.ran.result with
    | .startTrayDaemon, _ | _, none => ⟨.ended, taken.app, performed⟩
    | _, some summary => ⟨.tray, advanceToStep5 taken.app summary, performed⟩

/-- STEP 5 may have queued the tray daemon. -/
def closeStep5 (s : Session) (world : World) : Session :=
  match s.app.pendingAction with
  | some .startTrayDaemon =>
    let taken := s.take world .startTrayDaemon
    ⟨.ended, taken.app, s.performed ++ [taken]⟩
  | _ => { s with phase := .ended, app.pendingAction := none }

/-- One step of the wizard. -/
def step (s : Session) : Input → Option Session
  | .key look event =>
    match s.phase with
    | .keys => some (s.read look event .drain)
    | .tray => some (s.read look event .close)
    | _ => none
  | .idle =>
    match s.phase with
    | .keys | .tray => some s
    | _ => none
  | .broken => if s.phase = .ended then none else some { s with phase := .ended }
  | .act world =>
    match s.phase with
    | .drain => some (s.drainPendingActions world)
    | .close => some (s.closeStep5 world)
    | _ => none

/-- The wizard as `run_wizard` starts it, on the sources it lists. -/
def start (sources : List SourceEntry) (strategy : Strategy) (configPath : String)
    (dryRun : Bool) : Session where
  phase := .keys
  app := updateStep1Message
    { wizardStep := .discoverySources
      configPath := configPath
      sources := sources
      selectedSource := 0
      customPath := ⟨[], false, none⟩
      services := []
      selectedService := 0
      strategy := strategy
      summaryAction := .confirm
      trayChoice := .no
      message := ""
      dryRun := dryRun
      pendingAction := none
      strategyResult := none }
  performed := []

end Session

end Wizard

end VcOperator
