import VcOperator.Console.Cursors
/-!
# What the console launches

A command is run by Enter alone, on the form or on an action: the one the
form spells out, past the gate, or the one of the action that is selected.
`Handled.Launches` is what such a key does, and `launches_handleKey` that
each key does this, or runs nothing and leaves the history of launches as
it is. From it come the history on the screen, in every run, and when the
main loop is left: `unreachable!` is no way out of it.

The history of a run is what was run and did not fail.
-/

namespace VcOperator

namespace Console

open Board (Outside epoch)
open Launch (LaunchCommand)

/-- The last six entries. -/
def lastSix (entries : List String) : List String := entries.drop (entries.length - 6)

/-- What is dropped is dropped once and for all. -/
theorem lastSix_append_lastSix (entries : List String) (entry : String) :
    lastSix (lastSix entries ++ [entry]) = lastSix (entries ++ [entry]) := by
  unfold lastSix
  have hlength : (entries.drop (entries.length - 6)).length ≤ entries.length := by
    rw [List.length_drop]
    omega
  have hlast : entries.drop (entries.length - 6) ++ [entry] =
      (entries ++ [entry]).drop (entries.length - 6) := by
    rw [List.drop_append_of_le_length (by omega)]
  rw [hlast, List.drop_drop, List.length_drop, List.length_append, List.length_singleton]
  congr 1
  omega

/-- A history that is extended one by one. -/
theorem foldl_lastSix (entries more : List String) :
    more.foldl (fun history entry => lastSix (history ++ [entry])) (lastSix entries) =
      lastSix (entries ++ more) := by
  induction more generalizing entries with
  | nil => rw [List.foldl_nil, List.append_nil]
  | cons entry more ih =>
    rw [List.foldl_cons, lastSix_append_lastSix, ih, List.append_assoc, List.singleton_append]

/-- Enter is a key of its own. -/
theorem browseKey_eq_enter (key : KeyEvent) : browseKey key = .enter ↔ key.code = .enter := by
  unfold browseKey
  split <;> simp_all
  split_ifs <;> simp

section

variable {τ : Type} {world : World τ} {app : App}

/-! ## Commands -/

/-- The command that is run. -/
def Effect.command : Effect → Option LaunchCommand
  | .spawnDetached command | .suspendAndRun command => some command
  | _ => none

/-- The command that was run without an error. -/
def Effect.succeeded (world : World τ) : Effect → Option LaunchCommand
  | .spawnDetached command => if (world.spawnDetached command).isOk then some command else none
  | .suspendAndRun command => if (world.suspendAndRun command).isOk then some command else none
  | _ => none

namespace Handled

/-- The commands a key runs. -/
def commands (handled : Handled) : List LaunchCommand := handled.effects.filterMap Effect.command

/-- Those that do not fail, as they are shown. -/
def ran (world : World τ) (handled : Handled) : List String :=
  (handled.effects.filterMap (Effect.succeeded world)).map commandLine

/-- **What a key does that runs these commands**, and no other. What did not
fail comes into the history. -/
structure Launches (world : World τ) (app : App) (handled : Handled)
    (commands : List LaunchCommand) : Prop where
  commands : handled.commands = commands
  history : handled.app.launchHistory =
    (handled.ran world).foldl (fun history entry => lastSix (history ++ [entry])) app.launchHistory

/-- A key that runs nothing. -/
theorem Launches.nothing {handled : Handled} (heffects : ∀ e ∈ handled.effects, e.command = none)
    (hhistory : handled.app.launchHistory = app.launchHistory) :
    handled.Launches world app [] := by
  have hsucceeded : handled.effects.filterMap (Effect.succeeded world) = [] := by
    refine List.filterMap_eq_nil_iff.2 fun e he => ?_
    have hnone := heffects e he
    cases e with
    | spawnDetached command | suspendAndRun command => cases hnone
    | _ => rfl
  refine ⟨List.filterMap_eq_nil_iff.2 heffects, ?_⟩
  rw [ran, hsucceeded]
  exact hhistory

/-- A key that does nothing outside. -/
theorem Launches.within {app' : App} (hhistory : app'.launchHistory = app.launchHistory) :
    (Handled.within app').Launches world app [] :=
  .nothing (fun _ he => absurd he List.not_mem_nil) hhistory

end Handled

namespace App

/-! ## The history stays -/

theorem launchHistory_moveSelection (delta : ℤ) :
    (app.moveSelection delta).launchHistory = app.launchHistory := by
  unfold moveSelection
  split_ifs <;> rfl

theorem launchHistory_moveDeepSelection (delta : ℤ) :
    (app.moveDeepSelection delta).launchHistory = app.launchHistory := by
  unfold moveDeepSelection
  split_ifs <;> rfl

theorem launchHistory_syncSelection : app.syncSelection.launchHistory = app.launchHistory := by
  unfold syncSelection
  dsimp only
  split_ifs <;> rfl

theorem launchHistory_adjustDispatchSelection (delta : ℤ) :
    (app.adjustDispatchSelection delta).launchHistory = app.launchHistory := by
  unfold adjustDispatchSelection
  split <;> rfl

theorem launchHistory_editPromptKey (key : KeyEvent) :
    (app.editPromptKey key).launchHistory = app.launchHistory := by
  unfold editPromptKey
  split
  case h_5 => split_ifs <;> rfl
  all_goals rfl

variable [LinearOrder τ] {out : Outside τ}

theorem launchHistory_refresh : (app.refresh out world).launchHistory = app.launchHistory := by
  have hruns (runs : List Board.RenderedRun) :
      ({ app with runs := runs }.syncSelection).launchHistory = app.launchHistory :=
    launchHistory_syncSelection
  rw [refresh]
  simp only [refreshPolarize, refreshMux, hruns]

theorem launchHistory_setSearchQuery (query : String) :
    (app.setSearchQuery out world query).launchHistory = app.launchHistory := by
  rw [setSearchQuery, launchHistory_refresh]

theorem launchHistory_toggleFilter :
    (app.toggleFilter out world).launchHistory = app.launchHistory := by
  simp only [toggleFilter, appendStatus, launchHistory_refresh]

theorem launchHistory_clearSearch :
    (app.clearSearch out world).launchHistory = app.launchHistory := by
  unfold clearSearch
  split_ifs
  · rfl
  · simp only [appendStatus, launchHistory_refresh]

theorem launchHistory_searchKey (key : KeyEvent) :
    (app.searchKey out world key).launchHistory = app.launchHistory := by
  unfold searchKey
  cases key.code with
  | backspace => exact launchHistory_setSearchQuery _
  | char c =>
    dsimp only
    split_ifs
    · rfl
    · exact launchHistory_setSearchQuery _
  | _ => rfl

/-! ## The keys that do something outside -/

theorem launches_archiveSelectedRun :
    (app.archiveSelectedRun out world).Launches world app [] := by
  unfold archiveSelectedRun
  cases app.selectedRun with
  | none => exact .within rfl
  | some run =>
    dsimp only
    cases world.createDirAll app.archiveDir with
    | error error => exact .nothing (by simp [Effect.command]) rfl
    | ok done =>
      cases done
      dsimp only
      cases world.write (app.archiveDir.join (Board.markerName run.snapshot.runId))
        (Board.markerText world.floats run.snapshot.runId world.rfc3339) with
      | error error => exact .nothing (by simp [Effect.command]) rfl
      | ok done =>
        refine .nothing (by simp [Effect.command]) ?_
        simp only [appendStatus, launchHistory_refresh]

omit [LinearOrder τ] in
theorem launches_copySelectedRunToClipboard :
    (app.copySelectedRunToClipboard world).Launches world app [] := by
  unfold copySelectedRunToClipboard
  split
  · exact .within rfl
  · refine .nothing (by simp [Effect.command]) ?_
    dsimp only
    split <;> rfl

theorem launches_launchVerified :
    (app.launchVerified out world).Launches world app [app.launchCommand world] := by
  unfold launchVerified
  dsimp only
  split_ifs
  · refine ⟨rfl, launchHistory_refresh.trans ?_⟩
    simp only [Handled.ran, List.filterMap_cons, List.filterMap_nil, Effect.succeeded]
    cases world.spawnDetached (app.launchCommand world) <;> rfl
  · refine ⟨rfl, launchHistory_refresh.trans ?_⟩
    simp only [Handled.ran, List.filterMap_cons, List.filterMap_nil, Effect.succeeded]
    cases world.suspendAndRun (app.launchCommand world) <;> rfl

theorem launches_launchSelected : (app.launchSelected out world).Launches world app
    (if app.admits world then [app.launchCommand world] else []) := by
  unfold launchSelected admits
  cases app.isGated with
  | false => exact launches_launchVerified
  | true =>
    dsimp only [if_true]
    cases world.preLaunchVerify (clientKind app.selectedAgent) with
    | error halt => exact .nothing (by simp [Effect.command]) rfl
    | ok _ => exact ⟨launches_launchVerified.commands, launches_launchVerified.history⟩

theorem launches_runCommand (command : LaunchCommand) :
    (app.runCommand out world command).Launches world app [command] := by
  unfold runCommand
  refine ⟨rfl, launchHistory_refresh.trans ?_⟩
  simp only [Handled.ran, List.filterMap_cons, List.filterMap_nil, Effect.succeeded]
  cases world.suspendAndRun command <;> rfl

/-- The command of the action that is selected, if it has one. -/
def selectedCommand (world : World τ) (app : App) : Option LaunchCommand :=
  app.selectedDeepAction.bind (Launch.deepControlCommand world.host app.forCommands)

omit [LinearOrder τ] in
theorem launchHistory_openArtifact (title : String) (path : OsString) :
    (app.openArtifact world title path).launchHistory = app.launchHistory := by
  unfold openArtifact
  dsimp only
  split <;> rfl

omit [LinearOrder τ] in
theorem launchHistory_openPolarizeIntent (intent : PolarizeIntent) :
    (app.openPolarizeIntent world intent).launchHistory = app.launchHistory := by
  unfold openPolarizeIntent
  dsimp only
  split <;> rfl

theorem launches_runSelectedDeepControl : (app.runSelectedDeepControl out world).Launches world
    app (app.selectedCommand world).toList := by
  unfold runSelectedDeepControl selectedCommand
  cases haction : app.selectedDeepAction with
  | none => exact .within rfl
  | some action =>
    have hsome := app.deepControlCommand_isSome world.host action (List.mem_of_getElem? haction)
    cases action with
    | openReport path => exact .within (launchHistory_openArtifact _ path)
    | openTranscript path => exact .within (launchHistory_openArtifact _ path)
    | openRoot path => exact .within (launchHistory_openArtifact _ path)
    | polarizeIntent band score runId prismPath =>
      exact .within (launchHistory_openPolarizeIntent _)
    | attachSession session => exact launches_runCommand _
    | resumeSession agent session => exact launches_runCommand _
    | muxHealth service => exact launches_runCommand _
    | skillLaunch skill agent payload => exact launches_runCommand _
    | muxRestart service => cases hsome rfl
    | muxVerifyClient client => cases hsome rfl
    | muxFixClientDrift client => cases hsome rfl

/-! ## A key -/

/-- What Enter runs while browsing: on the form its command, unless the prompt
is selected or the gate holds it back, and on the actions the selected one's. -/
def entered (world : World τ) (app : App) : List LaunchCommand :=
  match app.activeTab with
  | .monitor => []
  | .dispatch =>
    if app.dispatchFocus ≠ .prompt && app.admits world then [app.launchCommand world] else []
  | .controls => (app.selectedCommand world).toList

theorem launches_browse (key : BrowseKey) : (app.browse out world key).Launches world app
    (if key = .enter then app.entered world else []) := by
  cases key with
  | up | down =>
    refine .within ?_
    cases app.activeTab with
    | monitor => exact launchHistory_moveSelection _
    | dispatch => rfl
    | controls => exact launchHistory_moveDeepSelection _
  | left | right =>
    refine .within ?_
    cases app.activeTab with
    | monitor => rfl
    | dispatch => exact launchHistory_adjustDispatchSelection _
    | controls => exact launchHistory_moveSelection _
  | clearSearch => exact .within launchHistory_clearSearch
  | filter => exact .within launchHistory_toggleFilter
  | archive => exact launches_archiveSelectedRun
  | copy => exact launches_copySelectedRunToClipboard
  | refresh => exact .within launchHistory_refresh
  | enter =>
    rw [if_pos rfl]
    unfold browse entered
    cases app.activeTab with
    | monitor =>
      refine .within ?_
      split_ifs <;> rfl
    | dispatch =>
      dsimp only
      by_cases hprompt : app.dispatchFocus = .prompt
      · rw [if_pos hprompt, if_neg (by simp [hprompt])]
        exact .within rfl
      · rw [if_neg hprompt]
        have hlaunch : (app.launchSelected out world).Launches world app _ :=
          launches_launchSelected
        simpa [hprompt] using hlaunch
    | controls => exact launches_runSelectedDeepControl
  | quit => exact .nothing (fun _ he => absurd he List.not_mem_nil) rfl
  | help | nextTab | previousTab | launchKind | agent | runtime | search | edit | controls
  | other => exact .within rfl

omit [LinearOrder τ] in
theorem launches_errorKey (key : KeyEvent) : (app.errorKey key).Launches world app [] := by
  unfold errorKey
  split_ifs
  · exact .nothing (by simp [Effect.command]) rfl
  · exact .within rfl
  · exact .within rfl

theorem launches_handleKey (key : KeyEvent) : (app.handleKey out world key).Launches world app
    (if app.focus = .browse ∧ key.code = .enter then app.entered world else []) := by
  unfold handleKey
  split
  · rename_i hctrl
    have hcode : key.code ≠ .enter := by
      rintro heq
      simp [heq] at hctrl
    rw [if_neg fun h => hcode h.2]
    exact .nothing (fun _ he => absurd he List.not_mem_nil) rfl
  · cases hfocus : app.focus with
    | browse =>
      have hentered : (app.browse out world (browseKey key)).Launches world app _ :=
        launches_browse (browseKey key)
      simpa only [browseKey_eq_enter, true_and] using hentered
    | search => exact .within (launchHistory_searchKey key)
    | editPrompt => exact .within (launchHistory_editPromptKey key)
    | error => exact launches_errorKey key
    | artifact =>
      refine .within ?_
      unfold artifactKey
      split <;> rfl
    | help =>
      refine .within ?_
      unfold helpKey
      split <;> rfl

omit [LinearOrder τ] in
/-- **Enter runs the command on the form, past the gate, or the one of the
action that is selected.** -/
theorem mem_entered_iff {command : LaunchCommand} : command ∈ app.entered world ↔
    (app.activeTab = .dispatch ∧ app.dispatchFocus ≠ .prompt ∧
      (app.isGated = true → world.preLaunchVerify (clientKind app.selectedAgent) = .ok ()) ∧
      command = app.launchCommand world) ∨
    (app.activeTab = .controls ∧ ∃ action, app.selectedDeepAction = some action ∧
      Launch.deepControlCommand world.host app.forCommands action = some command) := by
  have hadmits : app.admits world = true ↔
      (app.isGated = true → world.preLaunchVerify (clientKind app.selectedAgent) = .ok ()) := by
    unfold admits
    cases app.isGated with
    | false => simp
    | true => cases world.preLaunchVerify (clientKind app.selectedAgent) <;>
        simp [Except.isOk, Except.toBool]
  unfold entered selectedCommand
  cases app.activeTab with
  | monitor => simp
  | dispatch =>
    rw [← hadmits]
    by_cases hprompt : app.dispatchFocus = .prompt
    · simp [hprompt]
    · cases app.admits world <;> simp [hprompt]
  | controls => simp [Option.bind_eq_some_iff]

/-! ## A run -/

/-- What is run in a turn without an error, as it is shown. -/
def ranBy (out : Outside τ) (app : App) : Turn τ → List String
  | .key world key => (app.handleKey out world key).ran world
  | .refresh _ _ => []

/-- What has been run after a turn. -/
def noteRan (out : Outside τ) (ran : List String) (app : App) (turn : Turn τ) : List String :=
  ran ++ app.ranBy out turn

omit [LinearOrder τ] in
theorem launchHistory_handleIpcEvents (events : List (World τ)) :
    (app.handleIpcEvents events).launchHistory = app.launchHistory := by
  induction events generalizing app with
  | nil => rfl
  | cons event events ih => exact @ih (app.handleIpcEvent event)

theorem launchHistory_new (config : AppConfig) :
    (App.new out world config).launchHistory = [] := by
  unfold App.new
  simp only [refreshPolarize, refreshMux, launchHistory_syncSelection]

/-- **A turn adds to the history what it runs.** -/
theorem launchHistory_turn {app' : App} {ran : List String} {turn : Turn τ}
    (h : app.launchHistory = lastSix ran) (hturn : app.turn out turn = some app') :
    app'.launchHistory = lastSix (noteRan out ran app turn) := by
  cases turn with
  | key world key =>
    rw [turn, Option.some.injEq] at hturn
    subst hturn
    rw [(launches_handleKey key).history, h, foldl_lastSix]
    rfl
  | refresh events world =>
    rw [turn, Option.some.injEq] at hturn
    subst hturn
    rw [launchHistory_refresh, launchHistory_handleIpcEvents, h, noteRan, ranBy, List.append_nil]

/-- **Nothing is launched but what Enter asks for, and the screen shows what
was launched.** In every run the history is the last six commands that were
run without an error; and a key runs a command exactly when it is Enter while
browsing, on the form past the gate, or on an action that has that command. -/
theorem launches_exact {ok : App × List String → Turn τ → Prop} {start : World τ}
    {config : AppConfig} {ran : List String}
    (h : Run.Reach (Run.track (App.turn out) (noteRan out)) ok (App.new out start config, [])
      (app, ran)) :
    app.launchHistory = ran.drop (ran.length - 6) ∧
      ∀ (world : World τ) key command, command ∈ (app.handleKey out world key).commands ↔
        app.focus = .browse ∧ key.code = .enter ∧
        ((app.activeTab = .dispatch ∧ app.dispatchFocus ≠ .prompt ∧
            (app.isGated = true →
              world.preLaunchVerify (clientKind app.selectedAgent) = .ok ()) ∧
            command = app.launchCommand world) ∨
          (app.activeTab = .controls ∧ ∃ action, app.selectedDeepAction = some action ∧
            Launch.deepControlCommand world.host app.forCommands action = some command)) := by
  constructor
  · refine h.invariant (I := fun q => q.1.launchHistory = lastSix q.2)
      (launchHistory_new config) ?_
    intro q turn q' _ hq hstep
    obtain ⟨hturn, hnote⟩ := Run.track_eq_some.1 hstep
    rw [hnote]
    exact launchHistory_turn hq hturn
  · intro world key command
    rw [(launches_handleKey key).commands, ← and_assoc]
    split_ifs with henter
    · simp only [henter, and_self, true_and, mem_entered_iff]
    · simp only [henter, List.not_mem_nil, false_and]

/-! ## The end of the main loop -/

/-- The key is Ctrl-C. -/
def interrupts (key : KeyEvent) : Bool := key.modifiers.control && key.code = .char 'c'

/-- What keeps the selected run from being archived. -/
def archiveError (world : World τ) (app : App) : Option String :=
  app.selectedRun.bind fun run =>
    match world.createDirAll app.archiveDir with
    | .error error => some error
    | .ok () =>
      match world.write (app.archiveDir.join (Board.markerName run.snapshot.runId))
        (Board.markerText world.floats run.snapshot.runId world.rfc3339) with
      | .error error => some error
      | .ok () => none

theorem outcome_archiveSelectedRun : (app.archiveSelectedRun out world).outcome =
    (app.archiveError world).elim (.ok false) .error := by
  unfold archiveSelectedRun archiveError
  cases app.selectedRun with
  | none => rfl
  | some run =>
    dsimp only [Option.bind_some]
    cases world.createDirAll app.archiveDir with
    | error error => rfl
    | ok done =>
      cases done
      dsimp only
      cases world.write (app.archiveDir.join (Board.markerName run.snapshot.runId))
        (Board.markerText world.floats run.snapshot.runId world.rfc3339) <;> rfl

theorem outcome_launchSelected : (app.launchSelected out world).outcome = .ok false := by
  have hverified : (app.launchVerified out world).outcome = .ok false := by
    unfold launchVerified
    dsimp only
    split_ifs <;> rfl
  unfold launchSelected
  split_ifs
  · dsimp only
    split
    · rfl
    · exact hverified
  · exact hverified

/-- **`unreachable!` is not reached**: each action that is left to the commands has one. -/
theorem outcome_runSelectedDeepControl :
    (app.runSelectedDeepControl out world).outcome = .ok false := by
  unfold runSelectedDeepControl
  cases haction : app.selectedDeepAction with
  | none => rfl
  | some action =>
    have hsome := app.deepControlCommand_isSome world.host action (List.mem_of_getElem? haction)
    cases action with
    | openReport | openTranscript | openRoot | polarizeIntent => rfl
    | attachSession | resumeSession | muxHealth | skillLaunch => rfl
    | muxRestart | muxVerifyClient | muxFixClientDrift => cases hsome rfl

theorem outcome_browse (key : BrowseKey) : (app.browse out world key).outcome =
    if key = .quit then .ok true
    else if key = .archive then (app.archiveError world).elim (.ok false) .error
    else .ok false := by
  cases key with
  | archive => exact outcome_archiveSelectedRun
  | copy =>
    unfold browse copySelectedRunToClipboard
    dsimp only
    split <;> rfl
  | enter =>
    simp only [reduceCtorEq, if_false]
    unfold browse
    cases app.activeTab with
    | monitor => rfl
    | dispatch =>
      dsimp only
      split_ifs
      · rfl
      · exact outcome_launchSelected
    | controls => exact outcome_runSelectedDeepControl
  | quit | help | nextTab | previousTab | up | down | clearSearch | left | right | launchKind
  | agent | runtime | filter | search | refresh | edit | controls | other => rfl

/-- **When the main loop is left**: at Ctrl-C, at `q` or Esc while browsing,
and with an error when the archive cannot be written, and the error is that
of the directory or the marker. No other key, in no state, leaves it; and
none panics. -/
theorem outcome_handleKey (key : KeyEvent) : (app.handleKey out world key).outcome =
    if interrupts key ∨ app.focus = .browse ∧ browseKey key = .quit then .ok true
    else if app.focus = .browse ∧ browseKey key = .archive then
      (app.archiveError world).elim (.ok false) .error
    else .ok false := by
  unfold handleKey
  change (if interrupts key = true then _ else _ : Handled).outcome = _
  cases interrupts key with
  | true => rfl
  | false =>
    simp only [Bool.false_eq_true, if_false, false_or]
    cases app.focus with
    | browse => simp only [outcome_browse, true_and]
    | error =>
      unfold errorKey
      simp only [reduceCtorEq, false_and, if_false]
      split_ifs <;> rfl
    | search | editPrompt | artifact | help => simp [Handled.within]

end App

end

/-- On the second tab Enter runs the form's command, without a terminal. -/
def headlessConfig : AppConfig := { localConfig with launchRuntime := .headless }

/-- Every process can be started. -/
def spawning : World ℤ := { nothing with spawnDetached := fun _ => .ok 4711 }

/-- The command is run once, and is the one entry of the history. -/
theorem launches_exact_headless : ∃ (app : App) (ran : List String),
    Run.exec (Run.track (App.turn epoch) (App.noteRan epoch))
      (App.new epoch spawning headlessConfig, []) [press spawning .tab, press spawning .enter] =
        some (app, ran) ∧
    ran.length = 1 ∧ app.launchHistory = ran.drop (ran.length - 6) := by
  have hlast : (Run.exec (Run.track (App.turn epoch) (App.noteRan epoch))
      (App.new epoch spawning headlessConfig, [])
      [press spawning .tab, press spawning .enter]).any fun q => q.2.length == 1 := by
    decide +kernel
  rw [Option.any_eq_true] at hlast
  obtain ⟨⟨app, ran⟩, hexec, hran⟩ := hlast
  rw [beq_iff_eq] at hran
  exact ⟨app, ran, hexec, hran, (App.launches_exact (Run.reach_of_exec hexec .init)).1⟩

end Console

end VcOperator
