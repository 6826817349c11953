import VcOperator.Common.FileTree
import VcOperator.Common.HashMap
import VcOperator.Common.Text
import VcOperator.Json.Text
/-!
# Loading the control plane

`ControlPlaneState::load` of the operator console, over a file tree that
does not change meanwhile. What it reads is recorded: `Loading` is a result,
or an `io::Error`, with the files whose contents were asked for. File names
are UTF-8. How a run snapshot and an event are parsed is a parameter.
-/

namespace VcOperator

namespace Board

/-- A file that is read. -/
structure Read where
  /-- History: the name it was found under. -/
  found : List String
  /-- The path it is read under. -/
  path : List String
  deriving DecidableEq, Repr

/-- What a function of the loader returns, and what it reads. -/
structure Loading (α : Type) where
  /-- Nothing, where an error is returned. -/
  result : Option α
  reads : List Read

instance : Monad Loading where
  pure a := ⟨some a, []⟩
  bind x f :=
    match x.result with
    | none => ⟨none, x.reads⟩
    | some a => ⟨(f a).result, x.reads ++ (f a).reads⟩

/-- An error is returned. -/
def Loading.fail {α : Type} : Loading α := ⟨none, []⟩

/-- How the texts are parsed: `RunSnapshot`, of which only the id is read here, and
`RunEvent`. -/
structure Formats (ρ ε : Type) where
  run : String → Option ρ
  runId : ρ → String
  event : String → Option ε
  floats : Json.Floats

/-- `ControlPlaneState`. -/
structure ControlPlaneState (ρ ε : Type) where
  root : List Component
  runs : List ρ
  events : List ε
  archivedRunIds : List String

/-- `ControlPlaneState::empty`. -/
def ControlPlaneState.empty {ρ ε : Type} (root : List Component) : ControlPlaneState ρ ε :=
  ⟨root, [], [], []⟩

/-! ## File names -/

/-- `is_json_file`. -/
def isJsonFile (name : String) : Bool := extension name = some "json"

/-! ## `SafeControlPlaneRoot` -/

/-- `SafeControlPlaneRoot::new`: the canonical path of a directory. -/
def safeRoot (fs : Node) (root : List Component) : Option (List String) :=
  match fs.canonicalize root with
  | none => none
  | some canonical =>
    match fs.lookup canonical with
    | some (.dir _) => some canonical
    | _ => none

/-- `runs_dir`. -/
def runsDir (root : List String) : List String := root ++ ["runs"]

/-- `event_stream_path`. -/
def eventStreamPath (root : List String) : List String := root ++ ["events.jsonl"]

/-- `archived_dir`. -/
def archivedDir (root : List String) : List String := runsDir root ++ [".archived"]

/-- `safe_file`. -/
def safeFile (fs : Node) (root path : List String) : Loading (Option (List String)) :=
  match fs.symlinkMetadata path with
  | none => pure none
  | some node =>
    if node.isLink then pure none
    else if path = [] then pure none
    else
      match fs.symlinkMetadata path.dropLast with
      | none => .fail
      | some parent =>
        if parent.isLink then pure none
        else
          match fs.canonicalize (Node.names path) with
          | none => .fail
          | some canonical => if root <+: canonical then pure (some canonical) else pure none

/-- The loop over the entries of a directory. -/
def safeJsonFiles (fs : Node) (root dir : List String) : List String → Loading (List Read)
  | [] => pure []
  | name :: names =>
    if isJsonFile name then do
      match ← safeFile fs root (dir ++ [name]) with
      | none => safeJsonFiles fs root dir names
      | some path => do
        let files ← safeJsonFiles fs root dir names
        return ⟨dir ++ [name], path⟩ :: files
    else safeJsonFiles fs root dir names

/-- The JSON files of a directory that may not be there. -/
def jsonFiles (fs : Node) (root dir : List String) : Loading (List Read) :=
  if fs.pathExists (Node.names dir) then
    match fs.readDir (Node.names dir) with
    | none => .fail
    | some names => safeJsonFiles fs root dir names
  else pure []

/-- `run_snapshot_files`. -/
def runSnapshotFiles (fs : Node) (root : List String) : Loading (List Read) :=
  jsonFiles fs root (runsDir root)

/-- `archived_marker_files`. -/
def archivedMarkerFiles (fs : Node) (root : List String) : Loading (List Read) :=
  jsonFiles fs root (archivedDir root)

/-- `fs::read_to_string(path)`. -/
def readToString (fs : Node) (file : Read) : Loading (Option String) :=
  ⟨some (fs.readToString (Node.names file.path)), [file]⟩

variable {ρ ε : Type}

/-- The loop of `load_runs`. -/
def insertRuns (formats : Formats ρ ε) (fs : Node) :
    List Read → HashMap String ρ → Loading (HashMap String ρ)
  | [], snapshots => pure snapshots
  | file :: files, snapshots => do
    match (← readToString fs file).bind formats.run with
    | none => insertRuns formats fs files snapshots
    | some snapshot =>
      insertRuns formats fs files (snapshots.insert (formats.runId snapshot) snapshot)

/-- `load_runs`. -/
def loadRuns (formats : Formats ρ ε) (fs : Node) (root : List String) : Loading (List ρ) := do
  let snapshots ← insertRuns formats fs (← runSnapshotFiles fs root) ∅
  return snapshots.values

/-- `Value::get` of the value of a text: of members with one key the last counts. -/
def textGet (key : String) : Value → Option Value
  | .object members => Value.member key members.reverse
  | _ => none

/-- `archived_id_from_marker`, of the text of a marker and its file name. -/
def archivedIdFromMarker (floats : Json.Floats) (name : String) : Option String → Option String
  | none => none
  | some text =>
    match ((Json.fromStr floats text).bind (textGet "run_id")).bind Value.asStr with
    | some runId => some runId
    | none => if fileStem name = "" then none else some (fileStem name)

/-- The loop of `load_archived_run_ids`. -/
def insertMarkers (floats : Json.Floats) (fs : Node) :
    List Read → List String → Loading (List String)
  | [], archived => pure archived
  | file :: files, archived => do
    match archivedIdFromMarker floats (file.path.getLastD "") (← readToString fs file) with
    | none => insertMarkers floats fs files archived
    | some id => insertMarkers floats fs files (archived.insert id)

/-- `load_archived_run_ids`. -/
def loadArchivedRunIds (floats : Json.Floats) (fs : Node) (root : List String) :
    Loading (List String) := do
  insertMarkers floats fs (← archivedMarkerFiles fs root) []

/-- The events of a text. -/
def parseEvents (formats : Formats ρ ε) (text : String) : List ε :=
  ((textLines text).filter fun line => !line.all isWhitespace).filterMap fun line =>
    formats.event (String.ofList line)

/-- `load_events`. -/
def loadEvents (formats : Formats ρ ε) (fs : Node) (root : List String) : Loading (List ε) := do
  match ← safeFile fs root (eventStreamPath root) with
  | none => return []
  | some path =>
    match ← readToString fs ⟨eventStreamPath root, path⟩ with
    | none => return []
    | some text => return parseEvents formats text

/-- `ControlPlaneState::load`. -/
def load (formats : Formats ρ ε) (fs : Node) (requestedRoot : List Component) :
    Loading (ControlPlaneState ρ ε) :=
  match safeRoot fs requestedRoot with
  | none => pure (.empty requestedRoot)
  | some root => do
    let archivedRunIds ← loadArchivedRunIds formats.floats fs root
    let runs ← loadRuns formats fs root
    let events ← loadEvents formats fs root
    return {
      root := Node.names root
      runs := runs.filter fun snapshot => formats.runId snapshot ∉ archivedRunIds
      events := events
      archivedRunIds := archivedRunIds }

end Board

end VcOperator
