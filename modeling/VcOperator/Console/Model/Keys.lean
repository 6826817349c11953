import VcOperator.Console.Model.App
/-!
# The keys of the operator console

`handle_key` with the operations it calls, and the turns of the main loop: a
key that is handled, or a refresh, before which events of the mux may have
come. What is read and done outside is in the `World` and the `Effect`s.
-/

namespace VcOperator

namespace Console

open Board (Outside contains)
open Launch (DeepAction LaunchCommand LaunchKind LaunchRequest LaunchRuntime)

/-! ## Keys -/

/-- `KeyCode`. -/
inductive KeyCode where
  | esc | enter | backspace | tab | backTab | up | down | left | right
  | char (c : Char)
  | other
  deriving DecidableEq, Repr

/-- `KeyModifiers`. -/
structure KeyModifiers where
  shift : Bool
  control : Bool
  alt : Bool
  deriving DecidableEq, Repr

/-- `KeyEvent`. -/
structure KeyEvent where
  code : KeyCode
  modifiers : KeyModifiers
  deriving DecidableEq, Repr

/-- What `handle_key` leaves, does outside, and returns: whether to quit, or an error. -/
structure Handled where
  app : App
  effects : List Effect
  outcome : Except String Bool

/-- A key that does nothing outside, and quits nothing. -/
def Handled.within (app : App) : Handled := ⟨app, [], .ok false⟩

/-- `LaunchCommand::command_line`. -/
def commandLine (command : LaunchCommand) : String :=
  " ".intercalate ((command.program :: command.args).map OsString.toStringLossy)

namespace App

/-! ## Operations on the form -/

/-- `append_status`. -/
def appendStatus (status : String) (app : App) : App := { app with statusLine := status }

/-- `show_error`. -/
def showError (title : String) (lines : List String) (app : App) : App :=
  { app with
    errorTitle := title
    errorLines := if lines = [] then ["No error detail was captured."] else lines
    statusLine := title
    focus := .error }

/-- `next_tab`. -/
def nextTab (app : App) : App :=
  { app with activeTabIndex := (app.activeTabIndex + 1) % 3, focus := .browse }

/-- `previous_tab`. -/
def previousTab (app : App) : App :=
  { app with
    activeTabIndex := if app.activeTabIndex = 0 then 3 - 1 else app.activeTabIndex - 1
    focus := .browse }

/-- `set_active_tab`. -/
def setActiveTab (tab : AppTab) (app : App) : App :=
  { app with activeTabIndex := tab.index, focus := .browse }

/-- `set_launch_kind`. -/
def setLaunchKind (kind : LaunchKind) (app : App) : App :=
  { app with
    launchKind := kind
    launchPrompt := defaultPrompt kind
    activeTabIndex := AppTab.dispatch.index
    dispatchSelected := DispatchFocus.kind.index
    focus := .browse }

/-- `shift_agent`. -/
def shiftAgent (delta : ℤ) (app : App) : App :=
  { app with
    launchAgent := ⟨Cursor.rotate agents.length app.launchAgent delta,
      Cursor.rotate_lt (by decide)⟩ }

/-- The runtimes of `shift_runtime`. -/
def runtimes : List LaunchRuntime := [.headless, .terminal, .visible]

/-- `shift_runtime`. -/
def shiftRuntime (delta : ℤ) (app : App) : App :=
  let current := (runtimes.findIdx? (· = app.launchRuntime)).getD 1
  { app with
    launchRuntime := runtimes.get ⟨Cursor.rotate runtimes.length current delta,
      Cursor.rotate_lt (by decide)⟩ }

/-- The kinds of `shift_launch_kind`. -/
def kinds : List LaunchKind := [.workflow, .research, .review, .marbles]

/-- `shift_launch_kind`. -/
def shiftLaunchKind (delta : ℤ) (app : App) : App :=
  let current := (kinds.findIdx? (· = app.launchKind)).getD 0
  let kind := kinds.get ⟨Cursor.rotate kinds.length current delta, Cursor.rotate_lt (by decide)⟩
  { app with launchKind := kind, launchPrompt := defaultPrompt kind }

/-- `dispatch_focus`. -/
def dispatchFocus (app : App) : DispatchFocus := DispatchFocus.fromIndex app.dispatchSelected

/-- `move_dispatch_selection`. -/
def moveDispatchSelection (delta : ℤ) (app : App) : App :=
  { app with
    dispatchSelected := Cursor.rotate DispatchFocus.count app.dispatchSelected delta }

/-- `adjust_dispatch_selection`. -/
def adjustDispatchSelection (delta : ℤ) (app : App) : App :=
  match app.dispatchFocus with
  | .kind => app.shiftLaunchKind delta
  | .agent => app.shiftAgent delta
  | .runtime => app.shiftRuntime delta
  | .prompt => { app with focus := .editPrompt }

/-- `finish_prompt_edit`. -/
def finishPromptEdit (app : App) : App :=
  { app with focus := .browse }.appendStatus
    ("prompt updated: " ++ toString app.launchPrompt.length ++ " chars across " ++
      toString (max (textLines app.launchPrompt).length 1) ++ " line(s)")

/-- `push_launch_history`. -/
def pushLaunchHistory (entry : String) (app : App) : App :=
  let history := app.launchHistory ++ [entry]
  { app with launchHistory := history.drop (history.length - 6) }

section

variable {τ : Type} [LinearOrder τ] (out : Outside τ) (world : World τ)

/-! ## Operations on the board -/

/-- `handle_ipc_event`. -/
def handleIpcEvent (app : App) : App := app.refreshMux world

/-- The events of the mux that have come, one by one. -/
def handleIpcEvents (events : List (World τ)) (app : App) : App :=
  events.foldl (fun app event => app.handleIpcEvent event) app

/-- `toggle_filter`. -/
def toggleFilter (app : App) : App :=
  let app := { app with queueScope := app.queueScope.next }.refresh out world
  app.appendStatus ("queue scope: " ++ app.queueScope.label ++ " (" ++
    toString app.runs.length ++ " runs visible)")

/-- `set_search_query`. -/
def setSearchQuery (query : String) (app : App) : App :=
  { app with searchQuery := query }.refresh out world

/-- `clear_search`. -/
def clearSearch (app : App) : App :=
  if app.searchQuery = "" then app
  else ({ app with searchQuery := "" }.refresh out world).appendStatus "search cleared"

/-- The directory of the markers. -/
def archiveDir (app : App) : OsString := app.config.stateRoot.join "runs/.archived"

/-- `archive_selected_run`. -/
def archiveSelectedRun (app : App) : Handled :=
  match app.selectedRun with
  | none => .within (app.appendStatus "No run selected to archive.")
  | some run =>
    let runId := run.snapshot.runId
    match world.createDirAll app.archiveDir with
    | .error error => ⟨app, [.createDirAll app.archiveDir], .error error⟩
    | .ok () =>
      let markerPath := app.archiveDir.join (Board.markerName runId)
      let text := Board.markerText world.floats runId world.rfc3339
      let effects := [.createDirAll app.archiveDir, .write markerPath text]
      match world.write markerPath text with
      | .error error => ⟨app, effects, .error error⟩
      | .ok () =>
        let marked := (Board.textGet "run_id" (Board.marker runId world.rfc3339)).bind Value.asStr
        ⟨(app.refresh out world).appendStatus
          ("archived run from operator view: " ++ marked.getD "unknown"), effects, .ok false⟩

/-- `clipboard_payload`. -/
def clipboardPayload (app : App) : Option String :=
  app.selectedRun.map fun run =>
    match run.snapshot.agent, run.snapshot.sessionId with
    | some agent, some session => "vibecrafted resume " ++ agent ++ " --session " ++ session
    | _, _ => run.snapshot.latestReport.getD run.snapshot.runId

/-- `copy_selected_run_to_clipboard`, with the error that its caller shows. -/
def copySelectedRunToClipboard (app : App) : Handled :=
  match app.clipboardPayload with
  | none => .within (app.appendStatus "No selected run to copy.")
  | some payload =>
    ⟨match world.setText payload with
      | .ok () => app.appendStatus ("copied to clipboard: " ++ payload)
      | .error error => app.showError "clipboard failed" [error],
      [.setText payload], .ok false⟩

/-! ## Launching -/

/-- What the commands depend on. -/
def forCommands (app : App) : Launch.App where
  commandDeck := app.config.commandDeck
  launchRoot := app.config.launchRoot
  stateRoot := app.config.stateRoot
  selectedAgent := app.selectedAgent

/-- `launch_request`. -/
def launchRequest (app : App) : LaunchRequest where
  kind := app.launchKind
  agent := app.selectedAgent
  prompt := app.launchPrompt
  runtime := app.launchRuntime
  root := some app.config.launchRoot
  terminalBinary := some app.config.terminalBinary
  env := app.forCommands.launchEnv world.host
  count := some 3
  depth := some 3
  sessionName :=
    match app.launchRuntime with
    | .terminal | .visible => some (defaultSessionName world.millis app.launchKind)
    | .headless => none

/-- `launch_command`. -/
def launchCommand (app : App) : LaunchCommand :=
  Launch.buildLaunchCommand world.host app.config.commandDeck (app.launchRequest world)

/-- The kind of client that is asked for before a launch. -/
def clientKind (agent : String) : Control.ClientKind :=
  if agent = "claude" then .claude
  else if agent = "codex" then .codex
  else if agent = "gemini" then .gemini
  else if agent = "junie" then .junie
  else .generic agent

/-- `launch_selected`, after the gate. -/
def launchVerified (app : App) : Handled :=
  let command := app.launchCommand world
  let summary := commandLine command
  if app.launchRuntime = .headless then
    let app :=
      match world.spawnDetached command with
      | .ok pid => (app.pushLaunchHistory summary).appendStatus
          ("spawned pid " ++ toString pid ++ ": " ++ summary)
      | .error error => app.showError "launch failed before spawn" [summary, error]
    ⟨app.refresh out world, [.spawnDetached command], .ok false⟩
  else
    let app :=
      match world.suspendAndRun command with
      | .ok () => (app.pushLaunchHistory summary).appendStatus ("launched: " ++ summary)
      | .error error => app.showError "launch failed" (error.detailLines summary)
    ⟨app.refresh out world, [.suspendAndRun command], .ok false⟩

/-- Whether the gate is asked. -/
def isGated (app : App) : Bool := !app.config.noVerifyGate && app.launchRuntime ≠ .headless

/-- `launch_selected`. -/
def launchSelected (app : App) : Handled :=
  if app.isGated then
    let client := clientKind app.selectedAgent
    match world.preLaunchVerify client with
    | .error halt =>
      let lines := (LaunchRunError.clientDrift halt).detailLines ""
      ⟨app.showError "launch failed: client drift" lines, [.preLaunchVerify client], .ok false⟩
    | .ok () =>
      let handled := app.launchVerified out world
      { handled with effects := .preLaunchVerify client :: handled.effects }
  else app.launchVerified out world

/-! ## Deep control -/

/-- `open_artifact`, with the error that its caller shows. -/
def openArtifact (title : String) (path : OsString) (app : App) : App :=
  let app := { app with artifactTitle := title ++ ": " ++ path.toStringLossy }
  match world.artifactLines path (app.selectedRun.bind (·.snapshot.root)) with
  | .error error => app.showError "artifact open failed" [error]
  | .ok lines =>
    { app with artifactLines := lines, focus := .artifact }.appendStatus
      ("opened " ++ path.toStringLossy ++ " in operator viewer")

/-- `open_polarize_intent`, with the error that its caller shows. -/
def openPolarizeIntent (intent : PolarizeIntent) (app : App) : App :=
  let app := { app with
    artifactTitle := "Polarize prism: " ++ bandLabel intent.band ++ " score " ++
      toString intent.score.toNat ++ " run " ++ intent.runId }
  match world.prismPreviewLines intent.prismPath with
  | .error error => app.showError "polarize prism open failed" [error]
  | .ok lines =>
    { app with artifactLines := lines, focus := .artifact }.appendStatus
      ("opened polarize prism " ++ intent.prismPath.toStringLossy)

/-- `run_selected_deep_control`, of an action with a command. -/
def runCommand (command : LaunchCommand) (app : App) : Handled :=
  let summary := commandLine command
  let app :=
    match world.suspendAndRun command with
    | .error error => app.showError "action failed" (error.detailLines summary)
    | .ok () =>
      { (app.pushLaunchHistory summary).appendStatus ("ran: " ++ summary) with focus := .browse }
  ⟨app.refresh out world, [.suspendAndRun command], .ok false⟩

/-- `run_selected_deep_control`. -/
def runSelectedDeepControl (app : App) : Handled :=
  match app.selectedDeepAction with
  | none =>
    .within { app.appendStatus "No deep action is available for the selected run." with
      focus := .browse }
  | some (.openReport path) => .within (app.openArtifact world "Report" path)
  | some (.openTranscript path) => .within (app.openArtifact world "Transcript" path)
  | some (.openRoot path) => .within (app.openArtifact world "Run root" path)
  | some (.polarizeIntent band score runId prismPath) =>
    .within (app.openPolarizeIntent world ⟨band, score, runId, prismPath⟩)
  | some action =>
    match Launch.deepControlCommand world.host app.forCommands action with
    | some command => app.runCommand out world command
    -- `unreachable!`
    | none => ⟨app, [], .error "artifact actions are handled by the native operator viewer"⟩

/-! ## `handle_key` -/

/-- `handle_key` in the prompt editor. -/
def editPromptKey (key : KeyEvent) (app : App) : App :=
  match key.code with
  | .char '?' => { app with focus := .help }
  | .esc => app.finishPromptEdit
  | .enter => { app with launchPrompt := app.launchPrompt.push '\n' }
  | .backspace => { app with launchPrompt := String.ofList app.launchPrompt.toList.dropLast }
  | .char c =>
    if key.modifiers.control then if c = 's' then app.finishPromptEdit else app
    else { app with launchPrompt := app.launchPrompt.push c }
  | _ => app

/-- `handle_key` in the search. -/
def searchKey (key : KeyEvent) (app : App) : App :=
  match key.code with
  | .esc | .enter =>
    { app with focus := .browse }.appendStatus
      (if app.searchQuery = "" then "search closed"
        else "search: " ++ app.searchQuery ++ " (" ++ toString app.runs.length ++
          " runs visible)")
  | .backspace => app.setSearchQuery out world (String.ofList app.searchQuery.toList.dropLast)
  | .char c =>
    if key.modifiers.control then app else app.setSearchQuery out world (app.searchQuery.push c)
  | _ => app

/-- `handle_key` over an error. -/
def errorKey (key : KeyEvent) (app : App) : Handled :=
  if (key.code = .char 'f' || key.code = .char 'F') &&
      app.errorLines.any fun line => contains line "Client drift detected" then
    ⟨{ app with focus := .browse }, [.autoRewire app.selectedAgent], .ok false⟩
  else if key.code = .esc || key.code = .enter || key.code = .char 'q' then
    .within { app with focus := .browse }
  else .within app

/-- `handle_key` over an artifact. -/
def artifactKey (key : KeyEvent) (app : App) : App :=
  match key.code with
  | .esc | .enter | .char 'q' => { app with focus := .browse }
  | _ => app

/-- `handle_key` over the guide. -/
def helpKey (key : KeyEvent) (app : App) : App :=
  match key.code with
  | .char '?' | .esc | .enter => { app with focus := .browse }
  | _ => app

end

end App

/-- The arms of `handle_key` while browsing. -/
inductive BrowseKey where
  | quit | help | nextTab | previousTab | up | down | clearSearch | left | right
  | launchKind (kind : LaunchKind)
  | agent | runtime | filter | search | archive | copy | refresh | edit | enter | controls | other
  deriving DecidableEq, Repr

/-- The arm of a key. -/
def browseKey (key : KeyEvent) : BrowseKey :=
  match key.code with
  | .char 'q' | .esc => .quit
  | .char '?' => .help
  | .tab => .nextTab
  | .backTab => .previousTab
  | .up | .char 'k' => .up
  | .down | .char 'j' => .down
  | .left | .char 'h' => .left
  | .char 'l' => if key.modifiers.control then .clearSearch else .right
  | .right => .right
  | .char '1' => .launchKind .workflow
  | .char '2' => .launchKind .research
  | .char '3' => .launchKind .review
  | .char '4' => .launchKind .marbles
  | .char 'a' => .agent
  | .char 'v' => .runtime
  | .char 'f' => .filter
  | .char '/' => .search
  | .char 'x' => .archive
  | .char 'y' => .copy
  | .char 'r' => .refresh
  | .char 'e' => .edit
  | .enter => .enter
  | .char 'd' => .controls
  | _ => .other

namespace App

section

variable {τ : Type} [LinearOrder τ] (out : Outside τ) (world : World τ)

/-- `handle_key` while browsing. -/
def browse (key : BrowseKey) (app : App) : Handled :=
  match key with
  | .quit => ⟨app, [], .ok true⟩
  | .help => .within { app with focus := .help }
  | .nextTab => .within app.nextTab
  | .previousTab => .within app.previousTab
  | .up =>
    .within <| match app.activeTab with
      | .monitor => app.moveSelection (-1)
      | .dispatch => app.moveDispatchSelection (-1)
      | .controls => app.moveDeepSelection (-1)
  | .down =>
    .within <| match app.activeTab with
      | .monitor => app.moveSelection 1
      | .dispatch => app.moveDispatchSelection 1
      | .controls => app.moveDeepSelection 1
  | .clearSearch => .within (app.clearSearch out world)
  | .left =>
    .within <| match app.activeTab with
      | .monitor => app
      | .dispatch => app.adjustDispatchSelection (-1)
      | .controls => app.moveSelection (-1)
  | .right =>
    .within <| match app.activeTab with
      | .monitor => app
      | .dispatch => app.adjustDispatchSelection 1
      | .controls => app.moveSelection 1
  | .launchKind kind => .within (app.setLaunchKind kind)
  | .agent =>
    .within ({ app.setActiveTab .dispatch with
      dispatchSelected := DispatchFocus.agent.index }.shiftAgent 1)
  | .runtime =>
    .within ({ app.setActiveTab .dispatch with
      dispatchSelected := DispatchFocus.runtime.index }.shiftRuntime 1)
  | .filter => .within (app.toggleFilter out world)
  | .search =>
    .within ({ app with focus := .search }.appendStatus
      "search: type to filter runs, Enter/Esc closes, Ctrl+L clears")
  | .archive => app.archiveSelectedRun out world
  | .copy => app.copySelectedRunToClipboard world
  | .refresh => .within (app.refresh out world)
  | .edit =>
    .within { app.setActiveTab .dispatch with
      dispatchSelected := DispatchFocus.prompt.index, focus := .editPrompt }
  | .enter =>
    match app.activeTab with
    | .monitor => .within (if app.selectedRun.isSome then app.setActiveTab .controls else app)
    | .dispatch =>
      if app.dispatchFocus = .prompt then .within { app with focus := .editPrompt }
      else app.launchSelected out world
    | .controls => app.runSelectedDeepControl out world
  | .controls =>
    let app := app.setActiveTab .controls
    .within (app.appendStatus
      (if app.deepActions.isEmpty then "No operator actions are available."
        else "Controls ready: ↑/↓ select action, Enter runs it."))
  | .other => .within app

/-- `handle_key`. -/
def handleKey (app : App) (key : KeyEvent) : Handled :=
  if key.modifiers.control && key.code = .char 'c' then ⟨app, [], .ok true⟩
  else
    match app.focus with
    | .editPrompt => .within (app.editPromptKey key)
    | .search => .within (app.searchKey out world key)
    | .error => app.errorKey key
    | .artifact => .within (app.artifactKey key)
    | .browse => app.browse out world (browseKey key)
    | .help => .within (app.helpKey key)

end

end App

/-! ## The main loop -/

/-- One thing the main loop does. -/
inductive Turn (τ : Type) where
  /-- A key is handled. -/
  | key (world : World τ) (key : KeyEvent)
  /-- These events of the mux are handled, if any have come, and then comes a refresh. -/
  | refresh (events : List (World τ)) (world : World τ)

/-- The step function. -/
def App.turn {τ : Type} [LinearOrder τ] (out : Outside τ) (app : App) : Turn τ → Option App
  | .key world key => some (app.handleKey out world key).app
  | .refresh events world =>
    some ((app.handleIpcEvents events).refresh out world)

end Console

end VcOperator
