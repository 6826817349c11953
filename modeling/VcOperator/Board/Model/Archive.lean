import VcOperator.Board.Model.Load
/-!
# Archiving runs

`App::archive_selected_run` and `App::refresh`, on a state root that is a
directory of its own. The run files, and what else is in the root, stay as
they are; `.archived` holds nothing but markers. File names are told apart
by case. Writing a marker fails where the file system does not accept its
name, and not otherwise.
-/

namespace VcOperator

namespace Board

/-- What is in the state root besides markers. -/
structure RunFiles where
  /-- The entries of the root, besides `runs`. -/
  entries : List (String × Node)
  /-- The entries of `runs`, besides `.archived`. -/
  runs : List (String × Node)
  no_archived : runs.lookup ".archived" = none

/-- The state root. -/
structure Disk extends RunFiles where
  /-- `.archived`, where it is there: the names of the markers and their texts. -/
  markers : Option (List (String × String))

/-- A directory of texts. -/
def textDir (files : List (String × String)) : Node :=
  .dir (files.map fun file => (file.1, .file (some file.2)))

namespace Disk

/-- The entries of `runs`. -/
def runEntries (d : Disk) : List (String × Node) :=
  match d.markers with
  | none => d.runs
  | some markers => (".archived", textDir markers) :: d.runs

/-- The file tree under the state root. -/
def tree (d : Disk) : Node := .dir (("runs", .dir d.runEntries) :: d.entries)

/-- `fs::create_dir_all` of `.archived`. -/
def createArchivedDir (d : Disk) : Disk := { d with markers := some (d.markers.getD []) }

/-- `fs::write` of a marker: a file of that name is replaced. -/
def writeMarker (d : Disk) (name text : String) : Disk :=
  { d with
    markers := some ((d.markers.getD []).filter (fun file => file.1 ≠ name) ++ [(name, text)]) }

end Disk

/-- `safe_marker_name`. -/
def safeMarkerName (runId : String) : String :=
  String.ofList (runId.toList.map fun ch =>
    if ch.isAlphanum || ch = '-' || ch = '_' || ch = '.' then ch else '_')

/-- The file name of a marker. -/
def markerName (runId : String) : String := safeMarkerName runId ++ ".json"

/-- The marker itself, at a time. -/
def marker (runId archivedAt : String) : Value :=
  .object [
    ("archived_at", .string archivedAt),
    ("archived_by", .string "vc-operator"),
    ("run_id", .string runId)]

/-- Its text. -/
def markerText (floats : Json.Floats) (runId archivedAt : String) : String :=
  Json.toVecPretty floats (marker runId archivedAt)

/-- The operator's view of the runs. -/
structure App where
  disk : Disk
  /-- The ids of the runs that the last refresh loaded. One of them is selected. -/
  runs : List String
  /-- History: the runs that were archived. -/
  archived : List String

/-- One operation. -/
inductive BoardStep where
  | refresh
  /-- `archive_selected_run`, at a time. -/
  | archive (runId archivedAt : String)
  deriving DecidableEq

variable {ρ ε : Type}

/-- The runs a state root shows: an error shows none. -/
def shown (formats : Formats ρ ε) (d : Disk) : List String :=
  match (load formats d.tree []).result with
  | some state => state.runs.map formats.runId
  | none => []

/-- The runs in the run files. -/
def allRuns (formats : Formats ρ ε) (d : Disk) : List String :=
  match (loadRuns formats d.tree []).result with
  | some runs => runs.map formats.runId
  | none => []

namespace App

/-- `refresh`. -/
def refresh (formats : Formats ρ ε) (s : App) : App :=
  { s with runs := shown formats s.disk }

/-- `App::new`, without markers. -/
def start (formats : Formats ρ ε) (files : RunFiles) (archivedDir : Bool) : App :=
  refresh formats
    { disk := { files with markers := if archivedDir then some [] else none }
      runs := []
      archived := [] }

/-- `archive_selected_run`, with this run selected. -/
def archiveSelectedRun (formats : Formats ρ ε) (accepts : String → Bool)
    (runId archivedAt : String) (s : App) : App :=
  let disk := s.disk.createArchivedDir
  if accepts (markerName runId) then
    refresh formats
      { s with
        disk := disk.writeMarker (markerName runId) (markerText formats.floats runId archivedAt)
        archived := s.archived ++ [runId] }
  else { s with disk := disk }

end App

/-- The step function. -/
def boardStep (formats : Formats ρ ε) (accepts : String → Bool) (s : App) :
    BoardStep → Option App
  | .refresh => some (s.refresh formats)
  | .archive runId archivedAt =>
    if runId ∈ s.runs then some (s.archiveSelectedRun formats accepts runId archivedAt) else none

end Board

end VcOperator
