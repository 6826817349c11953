import VcOperator.Common.Run
import VcOperator.Console.Editor
/-!
# The two cursors

The console is a `Cursor.Menu`: the runs are its items, and the actions its
entries. `menu_handleKey` is that simulation, and from it comes when the two
cursors point at something. A refresh brings the second cursor back before
it reads the mux and the prisms anew, and a move to another run does not
bring it back at all.
-/

namespace VcOperator

namespace Console

open Board (Outside RenderedRun epoch)
open Launch (DeepAction)
open Cursor (Menu)
open Cursor.Menu (Move)

variable {τ : Type} [LinearOrder τ] (out : Outside τ) (world : World τ)

/-- How many actions each run has. -/
def itemsOf (runs : List RenderedRun) : List ℕ :=
  runs.map fun run => (runActions run.snapshot).length

/-- How many actions there are besides those of a run. -/
def commonOf (summaries : List MuxSummary) (intents : List PolarizeIntent) : ℕ :=
  summaries.length + intents.length + catalog.length

namespace App

/-- The runs and the actions with their cursors. -/
def menu (app : App) : Menu where
  items := itemsOf app.runs
  item := app.selected
  entry := app.deepSelected
  common := commonOf app.muxSummaries app.polarizeIntents

/-- **Both cursors point at something**: the one at a run, if there is one, and the other
at an action. -/
structure Pointing (app : App) : Prop where
  selected : app.runs = [] ∨ app.selected < app.runs.length
  deepSelected : app.deepSelected < app.deepActions.length

/-! ## What a key does to the cursors -/

/-- A refresh, with what is looked for. -/
def reload (queueScope : QueueScope) (searchQuery : String) : Move :=
  .rebuild (itemsOf (applyRunFilters (renderedRuns out world) queueScope searchQuery))
    (commonOf world.currentSummaries world.currentIntents)

/-- A marker is written for the selected run. -/
def archives (app : App) : Bool :=
  app.selectedRun.any fun run =>
    (world.createDirAll app.archiveDir).isOk &&
      (world.write (app.archiveDir.join (Board.markerName run.snapshot.runId))
        (Board.markerText world.floats run.snapshot.runId world.rfc3339)).isOk

/-- The gate lets the launch through. -/
def admits (app : App) : Bool :=
  !app.isGated || (world.preLaunchVerify (clientKind app.selectedAgent)).isOk

/-- The action is a command. -/
def isCommand : DeepAction → Bool
  | .openReport _ | .openTranscript _ | .openRoot _ | .polarizeIntent .. => false
  | _ => true

/-- What a key does to the cursors while browsing. -/
def browseMove (app : App) : BrowseKey → Move
  | .up =>
    match app.activeTab with
    | .monitor => .item (-1)
    | .dispatch => .stay
    | .controls => .entry (-1)
  | .down =>
    match app.activeTab with
    | .monitor => .item 1
    | .dispatch => .stay
    | .controls => .entry 1
  | .left => if app.activeTab = .controls then .item (-1) else .stay
  | .right => if app.activeTab = .controls then .item 1 else .stay
  | .clearSearch => if app.searchQuery = "" then .stay else reload out world app.queueScope ""
  | .filter => reload out world app.queueScope.next app.searchQuery
  | .archive =>
    if app.archives world then reload out world app.queueScope app.searchQuery else .stay
  | .refresh => reload out world app.queueScope app.searchQuery
  | .enter =>
    match app.activeTab with
    | .monitor => .stay
    | .dispatch =>
      if app.dispatchFocus ≠ .prompt && app.admits world then
        reload out world app.queueScope app.searchQuery
      else .stay
    | .controls =>
      if app.selectedDeepAction.any isCommand then
        reload out world app.queueScope app.searchQuery
      else .stay
  | _ => .stay

/-- What a key does to the cursors in the search. -/
def searchMove (app : App) (key : KeyEvent) : Move :=
  match key.code with
  | .backspace => reload out world app.queueScope (String.ofList app.searchQuery.toList.dropLast)
  | .char c =>
    if key.modifiers.control then .stay
    else reload out world app.queueScope (app.searchQuery.push c)
  | _ => .stay

/-- What a key does to the cursors. -/
def keyMove (app : App) (key : KeyEvent) : Move :=
  if key.modifiers.control && key.code = .char 'c' then .stay
  else
    match app.focus with
    | .browse => app.browseMove out world (browseKey key)
    | .search => app.searchMove out world key
    | _ => .stay

/-- **The turn keeps the second cursor.** -/
def keepsCursors (app : App) : Turn τ → Bool
  | .key world key => app.menu.keeps (app.keyMove out world key)
  | .refresh events world =>
    let app := app.handleIpcEvents events
    app.menu.keeps (reload out world app.queueScope app.searchQuery)

variable {out world} {app app' : App}

/-! ## The menu -/

theorem length_deepActions (app : App) : app.deepActions.length = app.menu.entries := by
  have hown : (app.selectedRun.elim [] fun run => runActions run.snapshot).length =
      (itemsOf app.runs).getD app.selected 0 := by
    rw [selectedRun, itemsOf, List.getD_eq_getElem?_getD, List.getElem?_map]
    cases app.runs[app.selected]? <;> rfl
  rw [deepActions, List.length_append, List.length_append, List.length_append, hown]
  simp only [List.length_map, menu, Menu.entries, commonOf, Nat.add_assoc]

theorem selected_iff (app : App) : (app.runs = [] ∨ app.selected < app.runs.length) ↔
    (app.menu.items = [] ∨ app.menu.item < app.menu.items.length) := by
  simp only [menu, itemsOf, List.map_eq_nil_iff, List.length_map]

theorem pointing_iff (app : App) : app.Pointing ↔ app.menu.Valid := by
  constructor
  · rintro ⟨hrun, hdeep⟩
    exact ⟨app.selected_iff.1 hrun, app.length_deepActions ▸ hdeep⟩
  · rintro ⟨hrun, hdeep⟩
    exact ⟨app.selected_iff.2 hrun, app.length_deepActions ▸ hdeep⟩

/-- The cursors point where there is a run to show, if there are runs, and an action to take. -/
theorem pointing_iff_isSome (app : App) : app.Pointing ↔
    (app.runs = [] ∨ app.selectedRun.isSome) ∧ app.selectedDeepAction.isSome := by
  simp only [selectedRun, selectedDeepAction, isSome_getElem?]
  exact ⟨fun h => ⟨h.selected, h.deepSelected⟩, fun h => ⟨h.1, h.2⟩⟩

/-- There are always the actions of the catalog. -/
theorem common_pos (app : App) : 0 < app.menu.common :=
  Nat.lt_of_lt_of_le (by decide) (Nat.le_add_left catalog.length _)

theorem menu_moveSelection (app : App) (delta : ℤ) :
    (app.moveSelection delta).menu = app.menu.moveItem delta := by
  unfold moveSelection Menu.moveItem
  cases hruns : app.runs with
  | nil => simp [menu, itemsOf, hruns]
  | cons run runs => simp [menu, itemsOf, hruns]

/-- The second cursor set anew, from the number of actions and where it was. -/
theorem menu_setDeepSelected (app : App) (move : ℕ → ℕ → ℕ) :
    (if app.deepActions.length = 0 then { app with deepSelected := 0 }
      else { app with deepSelected := move app.deepActions.length app.deepSelected } : App).menu =
    { app.menu with
      entry := if app.menu.entries = 0 then 0 else move app.menu.entries app.menu.entry } := by
  rw [length_deepActions]
  split_ifs <;> rfl

theorem menu_moveDeepSelection (app : App) (delta : ℤ) :
    (app.moveDeepSelection delta).menu = app.menu.moveEntry delta :=
  app.menu_setDeepSelected fun len cursor => Cursor.wrap len cursor delta

/-- The cursors are brought back for the runs, beside the summaries and intents that were. -/
theorem menu_syncSelection (app : App) :
    app.syncSelection.menu = app.menu.replaceItems (itemsOf app.runs) := by
  rw [syncSelection, menu_setDeepSelected _ Cursor.clamp]
  cases hruns : app.runs with
  | nil => simp [menu, itemsOf, Menu.replaceItems, hruns]
  | cons run runs => simp [menu, itemsOf, Menu.replaceItems, hruns]

omit [LinearOrder τ] in
/-- Then come the new summaries and intents. -/
theorem menu_refreshPolarize (app : App) : ((app.refreshMux world).refreshPolarize world).menu =
    { app.menu with common := commonOf world.currentSummaries world.currentIntents } := rfl

/-- **A refresh builds the menu anew.** -/
theorem menu_refresh (app : App) : (app.refresh out world).menu =
    app.menu.apply (reload out world app.queueScope app.searchQuery) := by
  have hruns (runs : List RenderedRun) : ({ app with runs := runs }.syncSelection).menu =
      app.menu.replaceItems (itemsOf runs) := menu_syncSelection { app with runs := runs }
  rw [refresh, menu_refreshPolarize, hruns]
  rfl

/-! ## What the operations leave of it -/

/-- The menu of a console and what is looked for stay. -/
structure SameMenu (app app' : App) : Prop where
  menu : app'.menu = app.menu
  queueScope : app'.queueScope = app.queueScope
  searchQuery : app'.searchQuery = app.searchQuery

theorem SameMenu.refresh (h : app.SameMenu app') : (app'.refresh out world).menu =
    app.menu.apply (reload out world app.queueScope app.searchQuery) := by
  rw [menu_refresh, h.menu, h.queueScope, h.searchQuery]

theorem menu_appendStatus (app : App) (status : String) :
    (app.appendStatus status).menu = app.menu := rfl

theorem menu_setSearchQuery (app : App) (query : String) :
    (app.setSearchQuery out world query).menu =
      app.menu.apply (reload out world app.queueScope query) :=
  menu_refresh { app with searchQuery := query }

theorem menu_clearSearch (app : App) : (app.clearSearch out world).menu =
    app.menu.apply (app.browseMove out world .clearSearch) := by
  rw [clearSearch, browseMove]
  split_ifs
  · rfl
  · rw [menu_appendStatus]
    exact menu_setSearchQuery app ""

theorem menu_toggleFilter (app : App) : (app.toggleFilter out world).menu =
    app.menu.apply (app.browseMove out world .filter) := by
  rw [toggleFilter, menu_appendStatus]
  exact menu_refresh { app with queueScope := app.queueScope.next }

theorem menu_adjustDispatchSelection (app : App) (delta : ℤ) :
    (app.adjustDispatchSelection delta).menu = app.menu := by
  unfold adjustDispatchSelection
  split <;> rfl

theorem menu_archiveSelectedRun (app : App) : (app.archiveSelectedRun out world).app.menu =
    app.menu.apply (app.browseMove out world .archive) := by
  unfold archiveSelectedRun browseMove archives
  cases hrun : app.selectedRun with
  | none => rfl
  | some run =>
    rw [Option.any_some]
    cases hdir : world.createDirAll app.archiveDir with
    | error error => rfl
    | ok done =>
      cases done
      dsimp only
      cases hwrite : world.write (app.archiveDir.join (Board.markerName run.snapshot.runId))
        (Board.markerText world.floats run.snapshot.runId world.rfc3339) with
      | error error => rfl
      | ok done =>
        cases done
        dsimp only
        rw [menu_appendStatus]
        exact menu_refresh app

omit [LinearOrder τ] in
theorem menu_copySelectedRunToClipboard (app : App) :
    (app.copySelectedRunToClipboard world).app.menu = app.menu := by
  unfold copySelectedRunToClipboard
  split
  · rfl
  · dsimp only
    split <;> rfl

theorem menu_launchVerified (app : App) : (app.launchVerified out world).app.menu =
    app.menu.apply (reload out world app.queueScope app.searchQuery) := by
  unfold launchVerified
  dsimp only
  split_ifs
  · refine SameMenu.refresh ?_
    split <;> exact ⟨rfl, rfl, rfl⟩
  · refine SameMenu.refresh ?_
    split <;> exact ⟨rfl, rfl, rfl⟩

theorem menu_launchSelected (app : App) : (app.launchSelected out world).app.menu =
    app.menu.apply
      (if app.admits world then reload out world app.queueScope app.searchQuery else .stay) := by
  unfold launchSelected admits
  cases app.isGated with
  | false => exact app.menu_launchVerified
  | true =>
    dsimp only [if_true]
    cases world.preLaunchVerify (clientKind app.selectedAgent) with
    | error halt => rfl
    | ok _ => exact app.menu_launchVerified

omit [LinearOrder τ] in
theorem menu_openArtifact (app : App) (title : String) (path : OsString) :
    (app.openArtifact world title path).menu = app.menu := by
  unfold openArtifact
  dsimp only
  split <;> rfl

omit [LinearOrder τ] in
theorem menu_openPolarizeIntent (app : App) (intent : PolarizeIntent) :
    (app.openPolarizeIntent world intent).menu = app.menu := by
  unfold openPolarizeIntent
  dsimp only
  split <;> rfl

theorem menu_runCommand (app : App) (command : Launch.LaunchCommand) :
    (app.runCommand out world command).app.menu =
      app.menu.apply (reload out world app.queueScope app.searchQuery) := by
  unfold runCommand
  refine SameMenu.refresh ?_
  split <;> exact ⟨rfl, rfl, rfl⟩

/-- **No artifact is left to the commands**: each action that is one has a command. -/
theorem deepControlCommand_isSome (app : App) (host : Launch.Host) :
    ∀ action ∈ app.deepActions, isCommand action = true →
      (Launch.deepControlCommand host app.forCommands action).isSome := by
  have hown (snapshot : Board.RunSnapshot) : ∀ action ∈ runActions snapshot,
      isCommand action = true →
        (Launch.deepControlCommand host app.forCommands action).isSome := by
    simp only [runActions, List.forall_mem_append, List.forall_mem_map]
    refine ⟨⟨⟨⟨fun _ _ _ => rfl, ?_⟩, nofun⟩, nofun⟩, nofun⟩
    split
    · simp [Launch.deepControlCommand]
    · simp
  simp only [deepActions, List.forall_mem_append, List.forall_mem_map]
  refine ⟨⟨⟨?_, fun _ _ _ => rfl⟩, nofun⟩, fun _ _ _ => rfl⟩
  cases app.selectedRun with
  | none => simp
  | some run => exact hown run.snapshot

theorem menu_runSelectedDeepControl (app : App) :
    (app.runSelectedDeepControl out world).app.menu = app.menu.apply
      (if app.selectedDeepAction.any isCommand then
        reload out world app.queueScope app.searchQuery else .stay) := by
  unfold runSelectedDeepControl
  cases haction : app.selectedDeepAction with
  | none => rfl
  | some action =>
    have hsome := app.deepControlCommand_isSome world.host action (List.mem_of_getElem? haction)
    cases action with
    | openReport path => exact app.menu_openArtifact _ path
    | openTranscript path => exact app.menu_openArtifact _ path
    | openRoot path => exact app.menu_openArtifact _ path
    | polarizeIntent band score runId prismPath => exact app.menu_openPolarizeIntent _
    | attachSession session => exact app.menu_runCommand _
    | resumeSession agent session => exact app.menu_runCommand _
    | muxHealth service => exact app.menu_runCommand _
    | skillLaunch skill agent payload => exact app.menu_runCommand _
    | muxRestart service => cases hsome rfl
    | muxVerifyClient client => cases hsome rfl
    | muxFixClientDrift client => cases hsome rfl

/-! ## A key, and a turn -/

theorem menu_browse (app : App) (key : BrowseKey) : (app.browse out world key).app.menu =
    app.menu.apply (app.browseMove out world key) := by
  cases key with
  | up | down =>
    unfold browse browseMove
    cases app.activeTab with
    | monitor => exact app.menu_moveSelection _
    | dispatch => rfl
    | controls => exact app.menu_moveDeepSelection _
  | left | right =>
    unfold browse browseMove
    cases app.activeTab with
    | monitor => rfl
    | dispatch => exact app.menu_adjustDispatchSelection _
    | controls => exact app.menu_moveSelection _
  | clearSearch => exact app.menu_clearSearch
  | filter => exact app.menu_toggleFilter
  | archive => exact app.menu_archiveSelectedRun
  | copy => exact app.menu_copySelectedRunToClipboard
  | refresh => exact app.menu_refresh
  | enter =>
    unfold browse browseMove
    cases app.activeTab with
    | monitor =>
      dsimp only [Handled.within]
      split_ifs <;> rfl
    | dispatch =>
      dsimp only
      by_cases hprompt : app.dispatchFocus = .prompt
      · rw [if_pos hprompt, if_neg (by simp [hprompt])]
        rfl
      · rw [if_neg hprompt, menu_launchSelected]
        simp [hprompt]
    | controls => exact app.menu_runSelectedDeepControl
  | quit | help | nextTab | previousTab | launchKind | agent | runtime | search | edit | controls
  | other => rfl

theorem menu_searchKey (app : App) (key : KeyEvent) : (app.searchKey out world key).menu =
    app.menu.apply (app.searchMove out world key) := by
  unfold searchKey searchMove
  cases key.code with
  | backspace => exact app.menu_setSearchQuery _
  | char c =>
    dsimp only
    split_ifs
    · rfl
    · exact app.menu_setSearchQuery _
  | _ => rfl

theorem menu_editPromptKey (app : App) (key : KeyEvent) :
    (app.editPromptKey key).menu = app.menu := by
  unfold editPromptKey
  split
  case h_5 => split_ifs <;> rfl
  all_goals rfl

omit [LinearOrder τ] in
theorem menu_errorKey (app : App) (key : KeyEvent) : (app.errorKey key).app.menu = app.menu := by
  unfold errorKey
  split_ifs <;> rfl

/-- **What a key does to the runs and the actions with their cursors.** -/
theorem menu_handleKey (app : App) (key : KeyEvent) :
    (app.handleKey out world key).app.menu = app.menu.apply (app.keyMove out world key) := by
  unfold handleKey keyMove
  split
  · rfl
  · cases app.focus with
    | browse => exact app.menu_browse _
    | search => exact app.menu_searchKey key
    | editPrompt => exact app.menu_editPromptKey key
    | error => exact app.menu_errorKey key
    | artifact =>
      dsimp only [Handled.within]
      unfold artifactKey
      split <;> rfl
    | help =>
      dsimp only [Handled.within]
      unfold helpKey
      split <;> rfl

/-- A console that is started has both cursors at the first places. -/
theorem pointing_new (config : AppConfig) : (App.new out world config).Pointing := by
  rw [pointing_iff, App.new, menu_refreshPolarize, menu_syncSelection]
  refine (Menu.valid_rebuild_iff (common_pos _)).2 ?_
  rw [Menu.keeps, Bool.or_eq_true, decide_eq_true_iff, decide_eq_true_iff]
  exact .inr (Nat.add_le_add_right (Nat.zero_le _) catalog.length)

/-- **The first cursor always points at a run**, if there is one. -/
theorem selected_of_turn (h : app.runs = [] ∨ app.selected < app.runs.length) {turn : Turn τ}
    (hturn : app.turn out turn = some app') :
    app'.runs = [] ∨ app'.selected < app'.runs.length := by
  cases turn with
  | key world key =>
    rw [turn, Option.some.injEq] at hturn
    subst hturn
    rw [selected_iff, menu_handleKey]
    exact Menu.item_apply (app.selected_iff.1 h) _
  | refresh events world =>
    rw [turn, Option.some.injEq] at hturn
    subst hturn
    rw [selected_iff, menu_refresh, reload]
    exact Menu.item_rebuild _ _ _

/-- So it does in every state of every run. -/
theorem selected_of_reach {config : AppConfig}
    (h : Run.Reach (App.turn out) Run.Any (App.new out world config) app) :
    app.runs = [] ∨ app.selected < app.runs.length :=
  h.invariant (I := fun app => app.runs = [] ∨ app.selected < app.runs.length)
    (pointing_new config).selected fun _ _ _ _ h hturn => selected_of_turn h hturn

/-- **A turn leaves both cursors pointing exactly when it keeps the second one.** -/
theorem pointing_turn_iff (h : app.Pointing) {turn : Turn τ}
    (hturn : app.turn out turn = some app') : app'.Pointing ↔ app.keepsCursors out turn = true := by
  cases turn with
  | key world key =>
    rw [turn, Option.some.injEq] at hturn
    subst hturn
    rw [pointing_iff, menu_handleKey, keepsCursors]
    exact Menu.valid_apply_iff ((pointing_iff app).1 h) app.common_pos _
  | refresh events world =>
    rw [turn, Option.some.injEq] at hturn
    subst hturn
    rw [pointing_iff, menu_refresh, keepsCursors]
    exact Menu.valid_rebuild_iff (common_pos _)

/-- **The cursors point at something in a whole run exactly when each turn keeps the second
one.** -/
theorem alwaysPointing_iff_keepsCursors (out : Outside τ) (world : World τ) (config : AppConfig)
    (turns : List (Turn τ)) :
    Run.Always (App.turn out) Pointing (App.new out world config) turns ↔
      Run.meets (App.turn out) (keepsCursors out) (App.new out world config) turns = true := by
  have htotal (app : App) (turn : Turn τ) : (app.turn out turn).isSome := by
    cases turn <;> rfl
  obtain ⟨last, hlast⟩ := Run.exists_exec htotal (App.new out world config) turns
  exact Run.always_iff_meets (fun _ _ _ h hturn => pointing_turn_iff h hturn)
    (pointing_new config) hlast

end App

/-- One service of the mux. -/
def oneDaemon : World ℤ := { nothing with currentSummaries := [⟨"files"⟩] }

/-- A key without modifiers. -/
def press (world : World ℤ) (code : KeyCode) : Turn ℤ := .key world ⟨code, ⟨false, false, false⟩⟩

/-- The last of 21 actions is selected, and then the service is gone. -/
theorem not_alwaysPointing_daemonGone :
    ¬ Run.Always (App.turn epoch) App.Pointing (App.new epoch oneDaemon localConfig)
      [press oneDaemon .backTab, press oneDaemon .up, .refresh [] nothing] := by
  intro hall
  have h := (hall 3 _ rfl).deepSelected
  revert h
  decide +kernel

end Console

end VcOperator
