import VcOperator.Common.Text
import VcOperator.Config.Model.Files
import VcOperator.Config.Model.Wizard
/-!
# The keys of the wizard

`wizard/types.rs` and `wizard/keys.rs`: the five steps, and what a key does
in each. What a key finds outside of the wizard comes with it: the files, the
home directory and what runs. The summary of a strategy is kept as what it
says.
-/

namespace VcOperator

namespace Wizard

open Config

/-! ## The working set -/

/-- `WizardStep`. -/
inductive WizardStep where
  | discoverySources | serverReview | strategyChoice | summaryConfirm | resultAndTray
  deriving DecidableEq, Repr

/-- `Strategy`. -/
inductive Strategy where
  | unified | perClient | autoRewire
  deriving DecidableEq, Repr

/-- `SummaryAction`. -/
inductive SummaryAction where
  | confirm | back | cancel
  deriving DecidableEq, Repr

/-- `TrayChoice`. -/
inductive TrayChoice where
  | startNow | no
  deriving DecidableEq, Repr

/-- `PendingAction`. -/
inductive PendingAction where
  | generateUnified | generatePerClient | autoRewire | startTrayDaemon
  deriving DecidableEq, Repr

/-- `SourceStatus`. -/
inductive SourceStatus where
  | ok (serversFound : ℕ)
  | empty
  | invalidFormat (details : ScanError)
  | missing
  deriving DecidableEq

namespace SourceStatus

/-- `SourceStatus::short_label`. -/
def shortLabel : SourceStatus → String
  | ok serversFound => toString serversFound ++ " servers"
  | empty => "empty"
  | invalidFormat _ => "invalid"
  | missing => "not found"

/-- `matches!(s.status, SourceStatus::Ok { .. })`. -/
def isOk : SourceStatus → Bool
  | ok _ => true
  | _ => false

end SourceStatus

/-- `SourceEntry`. -/
structure SourceEntry where
  hostFile : HostFile
  status : SourceStatus
  selected : Bool
  deriving DecidableEq

/-- `CustomPathInput`. -/
structure CustomPathInput where
  buffer : List Char
  editing : Bool
  status : Option String
  deriving DecidableEq

/-- What a strategy reports. -/
inductive Summary where
  | nothingSelected (strategy : Strategy)
  /-- No selected source is eligible for the danger rewrite. -/
  | noEligibleSources
  | noEligibleFiles
  | wouldGenerate (outputs : MuxOutputs)
  | wouldGeneratePerClient (outputs : PerClientOutputs)
  | planRendered
  | generated (outputs : MuxOutputs)
  | generatedPerClient (outputs : PerClientOutputs)
  | cancelled
  /-- `Auto-rewire applied to {written} file(s)`. -/
  | rewired (written : ℕ)
  | wouldStartTray
  | startedTray (pid : ℕ) (config : String)
  | couldNotStartTray (config : String)

/-- `AppState`. -/
structure AppState where
  wizardStep : WizardStep
  configPath : String
  sources : List SourceEntry
  selectedSource : ℕ
  customPath : CustomPathInput
  services : List ServiceEntry
  selectedService : ℕ
  strategy : Strategy
  summaryAction : SummaryAction
  trayChoice : TrayChoice
  message : String
  dryRun : Bool
  pendingAction : Option PendingAction
  strategyResult : Option Summary

/-- The codes of keys. -/
inductive KeyCode where
  | esc | enter | backspace | up | down | left | right
  | char (c : Char)
  | other
  deriving DecidableEq, Repr

/-- What a key finds outside of the wizard. -/
structure Look where
  /-- `HOME`. -/
  home : Option String
  /-- `Path::exists`. -/
  pathExists : Path → Bool
  files : Files
  surroundings : Surroundings

/-! ## Paths that are typed -/

/-- The path of a text. -/
def pathOf (raw : String) : Path :=
  let parts := (raw.toList.splitOn '/').filter fun part => part ≠ [] ∧ part ≠ ['.']
  let root := if raw.toList.head? = some '/' then "/" else ""
  match parts.getLast? with
  | some last =>
    if last = ['.', '.'] then ⟨raw, none⟩
    else ⟨root ++ "/".intercalate (parts.dropLast.map String.ofList), some (String.ofList last)⟩
  | none => ⟨raw, none⟩

/-- `host_file_from_custom_path`. -/
def hostFileFromCustomPath (path : Path) : HostFile :=
  let toml := (path.fileName.bind extension).any fun ext =>
    ext.toList.map Char.toLower = "toml".toList
  { kind := .custom
    path := path
    format := if toml then .toml else .json
    schema := if toml then .mcpServersToml else .autoJson
    eligibleForDanger := true }

/-! ## Messages -/

/-- `update_step1_message`. -/
def updateStep1Message (app : AppState) : AppState :=
  if app.customPath.editing then
    { app with message := "Editing custom path… type a path, Enter to add, Esc to cancel." }
  else
    let selected := (app.sources.filter (·.selected)).length
    { app with
      message := "STEP 1: " ++ toString selected ++ "/" ++ toString app.sources.length ++
        " sources selected | Space toggle | i custom path | n next | q quit" }

/-- `update_step2_message`. -/
def updateStep2Message (app : AppState) : AppState :=
  let selected := (app.services.filter (·.selected)).length
  { app with
    message := "STEP 2: " ++ toString selected ++ "/" ++ toString app.services.length ++
      " servers selected | Space toggle | n next | p prev | q quit" }

/-- `update_step3_message`. -/
def updateStep3Message (app : AppState) : AppState :=
  { app with
    message := "STEP 3: Up/Down to choose strategy | 1/2/3 quick pick | n next | p prev" }

/-- `update_step4_message`. -/
def updateStep4Message (app : AppState) : AppState :=
  { app with message := "STEP 4: Up/Down to pick action | Enter to do it | p back | q quit" }

/-! ## STEP 1: discovery sources -/

/-- `add_custom_source`. -/
def addCustomSource (look : Look) (app : AppState) (rawPath : String) : AppState :=
  let expanded := expandPath look.home rawPath
  let hostFile := hostFileFromCustomPath (pathOf expanded)
  let status :=
    if look.pathExists hostFile.path then
      match scanHostFile look.files hostFile with
      | .ok scan => if scan.services.isEmpty then .empty else .ok scan.services.length
      | .error err => .invalidFormat err
    else .missing
  { app with
    customPath.status := some ("Added " ++ expanded ++ ": " ++ status.shortLabel)
    sources := app.sources ++ [⟨hostFile, status, true⟩]
    selectedSource := app.sources.length }

/-- The scans of the selected sources. -/
def sourceScans (files : Files) (sources : List SourceEntry) : List ScanResult :=
  scanAll files ((sources.filter fun s => s.selected && s.status.isOk).map (·.hostFile))

/-- `advance_to_step2`. -/
def advanceToStep2 (look : Look) (app : AppState) : AppState :=
  updateStep2Message
    { app with
      services := Config.advanceToStep2 (sourceScans look.files app.sources) look.surroundings
      selectedService := 0
      wizardStep := .serverReview }

/-- A key while the custom path is edited. -/
def editCustomPath (look : Look) (app : AppState) : KeyCode → AppState
  | .esc => updateStep1Message { app with customPath.editing := false }
  | .enter =>
    let path := app.customPath.buffer
    let app := { app with customPath.buffer := [], customPath.editing := false }
    updateStep1Message
      (if path.all isWhitespace then { app with customPath.status := some "Path was empty." }
      else addCustomSource look app (String.ofList path))
  | .backspace => { app with customPath.buffer := app.customPath.buffer.dropLast }
  | .char c => { app with customPath.buffer := app.customPath.buffer ++ [c] }
  | _ => app

/-- `handle_step1`: the state, and whether the loop ends. -/
def handleStep1 (look : Look) (app : AppState) (code : KeyCode) : AppState × Bool :=
  if app.customPath.editing then (editCustomPath look app code, false)
  else
    match code with
    | .char 'q' => (app, true)
    | .char 'i' =>
      ({ app with
        customPath.editing := true
        message := "Editing custom path… type a path, Enter to add, Esc to cancel." }, false)
    | .up =>
      (if 0 < app.selectedSource then { app with selectedSource := app.selectedSource - 1 }
        else app, false)
    | .down =>
      (if app.selectedSource + 1 < app.sources.length then
          { app with selectedSource := app.selectedSource + 1 }
        else app, false)
    | .char ' ' =>
      (if app.sources ≠ [] then
          let idx := min app.selectedSource (app.sources.length - 1)
          updateStep1Message
            { app with
              sources := app.sources.modify idx fun s => { s with selected := !s.selected } }
        else app, false)
    | .char 'n' | .enter | .right => (advanceToStep2 look app, false)
    | _ => (app, false)

/-! ## STEP 2: server review -/

/-- `handle_step2`. -/
def handleStep2 (app : AppState) (code : KeyCode) : AppState × Bool :=
  match code with
  | .char 'q' => (app, true)
  | .up =>
    (if 0 < app.selectedService then { app with selectedService := app.selectedService - 1 }
      else app, false)
  | .down =>
    (if app.selectedService + 1 < app.services.length then
        { app with selectedService := app.selectedService + 1 }
      else app, false)
  | .char ' ' =>
    (if app.services ≠ [] then
        let idx := min app.selectedService (app.services.length - 1)
        updateStep2Message { app with services := toggleSelected app.services idx }
      else app, false)
  | .char 'n' | .right | .enter =>
    (if (app.services.filter (·.selected)).length = 0 then
        { app with message := "Select at least one server (Space) before continuing." }
      else updateStep3Message { app with wizardStep := .strategyChoice }, false)
  | .char 'p' | .left => (updateStep1Message { app with wizardStep := .discoverySources }, false)
  | _ => (app, false)

/-! ## STEP 3: strategy -/

/-- Up in a list of choices. -/
def choiceUp {α : Type} [DecidableEq α] (order : List α) (current : α) : α :=
  let idx := order.idxOf current
  if 0 < idx then order.getD (idx - 1) current else current

/-- Down in a list of choices. -/
def choiceDown {α : Type} [DecidableEq α] (order : List α) (current : α) : α :=
  let idx := order.idxOf current
  if idx + 1 < order.length then order.getD (idx + 1) current else current

/-- The strategies, as they are listed. -/
def strategies : List Strategy := [.unified, .perClient, .autoRewire]

/-- `handle_step3`. -/
def handleStep3 (app : AppState) (code : KeyCode) : AppState × Bool :=
  match code with
  | .char 'q' => (app, true)
  | .up => ({ app with strategy := choiceUp strategies app.strategy }, false)
  | .down => ({ app with strategy := choiceDown strategies app.strategy }, false)
  | .char '1' => ({ app with strategy := .unified }, false)
  | .char '2' => ({ app with strategy := .perClient }, false)
  | .char '3' => ({ app with strategy := .autoRewire }, false)
  | .char 'n' | .right | .enter =>
    (updateStep4Message { app with wizardStep := .summaryConfirm, summaryAction := .confirm },
      false)
  | .char 'p' | .left => (updateStep2Message { app with wizardStep := .serverReview }, false)
  | _ => (app, false)

/-! ## STEP 4: summary and confirm -/

/-- The actions of the summary, as they are listed. -/
def summaryActions : List SummaryAction := [.confirm, .back, .cancel]

/-- The action that carries out a strategy. -/
def Strategy.action : Strategy → PendingAction
  | unified => .generateUnified
  | perClient => .generatePerClient
  | autoRewire => .autoRewire

/-- `queue_pending_for_strategy`. -/
def queuePendingForStrategy (app : AppState) : AppState :=
  { app with pendingAction := some app.strategy.action }

/-- `handle_step4`. -/
def handleStep4 (app : AppState) (code : KeyCode) : AppState × Bool :=
  match code with
  | .char 'q' => (app, true)
  | .up => ({ app with summaryAction := choiceUp summaryActions app.summaryAction }, false)
  | .down => ({ app with summaryAction := choiceDown summaryActions app.summaryAction }, false)
  | .char 'p' | .left => (updateStep3Message { app with wizardStep := .strategyChoice }, false)
  | .enter =>
    match app.summaryAction with
    | .confirm => (queuePendingForStrategy app, true)
    | .back => (updateStep3Message { app with wizardStep := .strategyChoice }, false)
    | .cancel => (app, true)
  | _ => (app, false)

/-! ## STEP 5: result and tray prompt -/

/-- The choices of the tray prompt, as they are listed. -/
def trayChoices : List TrayChoice := [.startNow, .no]

/-- `handle_step5`. -/
def handleStep5 (app : AppState) (code : KeyCode) : AppState × Bool :=
  match code with
  | .char 'q' => (app, true)
  | .up => ({ app with trayChoice := choiceUp trayChoices app.trayChoice }, false)
  | .down => ({ app with trayChoice := choiceDown trayChoices app.trayChoice }, false)
  | .enter =>
    match app.trayChoice with
    | .startNow => ({ app with pendingAction := some .startTrayDaemon }, true)
    | .no => (app, true)
  | _ => (app, false)

/-- `handle_key`. -/
def handleKey (look : Look) (app : AppState) (code : KeyCode) : AppState × Bool :=
  match app.wizardStep with
  | .discoverySources => handleStep1 look app code
  | .serverReview => handleStep2 app code
  | .strategyChoice => handleStep3 app code
  | .summaryConfirm => handleStep4 app code
  | .resultAndTray => handleStep5 app code

end Wizard

end VcOperator
