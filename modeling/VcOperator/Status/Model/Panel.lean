import VcOperator.Common.FirstOf
import VcOperator.Common.Text
import VcOperator.Config.Model.Generate
import VcOperator.Status.Model.Writer
/-!
# The panel of the console

How the operator console finds the status files (`discover_status_files`)
and what it makes of each (`MuxStatusSnapshot::read`, `MuxSummary`): one
refresh of its panel, operation by operation, on the volume the writers of
the daemon write to meanwhile.

What is no regular file stays where it is. A directory is listed at one
moment, in any order. The text of a decoder's error and the absolute form
of a path are parameters. `began` and `since` are history: what the services
had put in place when a refresh began.
-/

namespace VcOperator

namespace Status

open Config (Path joinPath)

/-! ## Paths -/

/-- `PathBuf::from`, up to the equality of paths: separators in a row are one, and a `.` counts
at the beginning of a relative path only. -/
def pathOf (raw : String) : Path :=
  let pieces := (raw.toList.splitOn '/').zipIdx.filter fun piece =>
    piece.1 ≠ [] && (piece.1 ≠ ['.'] || piece.2 = 0)
  let components := pieces.map fun piece => String.ofList piece.1
  let root := if raw.toList.head? = some '/' then "/" else ""
  match components.getLast? with
  | none => ⟨root, none⟩
  | some last =>
    if last = "." ∨ last = ".." then ⟨root ++ "/".intercalate components, none⟩
    else ⟨root ++ "/".intercalate components.dropLast, some last⟩

/-- `Path::extension`, where it is text. -/
def pathExtension (path : Path) : Option String := path.fileName.bind extension

/-- The path of a file. -/
def filePath? (path : Path) : Option FilePath :=
  if h : path.fileName.isSome then some ⟨path, h⟩ else none

/-- The name of an entry of a directory. -/
def isEntryName (name : String) : Bool :=
  name ≠ "" && name ≠ "." && name ≠ ".." && name.toList.all (· ≠ '/')

/-! ## What becomes of a file -/

/-- What is no regular file. -/
inductive Special where
  /-- A symbolic link that leads to a file. -/
  | linkToFile
  | other
  deriving DecidableEq

/-- What the console is run with. -/
structure PanelHost where
  /-- `VIBECRAFTED_MUX_STATUS_PATHS`. -/
  statusPaths : Option String
  /-- `HOME`. -/
  home : Option String
  special : FilePath → Option Special
  /-- The text of the absolute form of a path. -/
  absolute : FilePath → String
  /-- The text of the error of `serde_json::from_str`. -/
  parseError : String → String

/-- What stands at a path, if anything does. -/
inductive Entry where
  | file
  | special (kind : Special)
  deriving DecidableEq

/-- `MuxServerStatus::is_healthy`. -/
def MuxServerStatus.isHealthy : MuxServerStatus → Bool
  | .running | .starting | .restarting => true
  | .failed _ | .stopped => false

/-- `MuxSummaryState`. -/
inductive MuxSummaryState where
  | healthy (snapshot : MuxStatusSnapshot)
  | unhealthy (snapshot : MuxStatusSnapshot)
  | unreadable (error : String)
  deriving DecidableEq

/-- `MuxSummary`. -/
structure MuxSummary where
  path : String
  displayName : String
  state : MuxSummaryState
  deriving DecidableEq

/-- `MuxSummary::from_path_and_result`. An error is its text. -/
def MuxSummary.fromPathAndResult (path : String) : Except String MuxStatusSnapshot → MuxSummary
  | .ok snapshot =>
    { path
      displayName := snapshot.serviceName
      state :=
        if snapshot.serverStatus.isHealthy then .healthy snapshot else .unhealthy snapshot }
  | .error error =>
    { path
      displayName := ((pathOf path).fileName.map fileStem).getD path
      state := .unreadable error }

/-- `MuxSummary::is_healthy`. -/
def MuxSummary.isHealthy (summary : MuxSummary) : Bool :=
  match summary.state with
  | .healthy _ => true
  | _ => false

namespace PanelHost

variable (host : PanelHost)

/-- `default_mux_status_root`. -/
def root : Option String :=
  (host.home.filter (· ≠ "")).map fun home => joinPath home ".rmcp_servers/rust_mux"

/-- What stands at a path. -/
def entry (volume : Volume FilePath UInt8) (path : Path) : Option Entry :=
  (filePath? path).bind fun path =>
    match volume.names path with
    | some _ => some .file
    | none => (host.special path).map .special

/-- `fs::symlink_metadata` and `fs::canonicalize` of what is not there. -/
def notFound : String := "No such file or directory (os error 2)"

/-- The first part of `safe_status_file`. -/
def inspect (volume : Volume FilePath UInt8) (raw : String) : Except String FilePath :=
  if pathExtension (pathOf raw) ≠ some "json" then
    .error ("refusing non-json rust-mux status file " ++ raw)
  else
    match filePath? (pathOf raw), host.entry volume (pathOf raw) with
    | some path, some .file => .ok path
    | _, some _ => .error ("refusing unsafe rust-mux status file " ++ raw)
    | _, none => .error ("failed to inspect rust-mux status file " ++ raw ++ ": " ++ notFound)

/-- What `MuxStatusSnapshot::read` makes of the bytes of a file. -/
def parse (floats : Json.Floats) (path : FilePath) (bytes : List UInt8) :
    Except String MuxStatusSnapshot :=
  match String.fromUTF8? ⟨bytes.toArray⟩ with
  | none => .error ("failed to read rust-mux status file " ++ host.absolute path ++
      ": stream did not contain valid UTF-8")
  | some text =>
    match MuxStatusSnapshot.fromJson floats text with
    | none => .error ("rust-mux status file " ++ host.absolute path ++
        ": failed to parse rust-mux status JSON: " ++ host.parseError text)
    | some snapshot => .ok snapshot

/-! ## Discovery -/

/-- A path is put in the list, if it is in none of its forms there yet. -/
def push (out : List String) (raw : String) : List String := pushFirst pathOf out raw

/-- The paths of the environment: those not empty, each of them once. -/
def overrides : List String :=
  match host.statusPaths with
  | none => []
  | some raw =>
    (((raw.toList.splitOn ':').filter (· ≠ [])).map String.ofList).foldl push []

/-- `flat.is_file()`, for `status.json`: it follows a link. -/
def isFile (volume : Volume FilePath UInt8) (raw : String) : Bool :=
  match host.entry volume (pathOf raw) with
  | some .file | some (.special .linkToFile) => true
  | _ => false

/-- The files a listing of the root directory gives, sorted. -/
def dirFiles (volume : Volume FilePath UInt8) (root : String) (names : List String) :
    List String :=
  (names.filter fun name => host.entry volume (pathOf (joinPath root name)) = some .file &&
    extension name = some "json").map (joinPath root) |>.mergeSort fun left right => left ≤ right

end PanelHost

/-! ## A refresh -/

variable {ι : Type}

/-- What the console does next. -/
inductive PanelStage where
  | idle
  /-- `flat.is_file()`. -/
  | flat (root : String) (out : List String)
  /-- `read_dir`. -/
  | entries (root : String) (out : List String)
  /-- `MuxStatusSnapshot::read` of the next path. -/
  | next (todo : List String)
  /-- `fs::canonicalize`. -/
  | canonicalize (raw : String) (path : FilePath) (todo : List String)
  /-- `fs::read_to_string`: the file is opened. -/
  | opening (raw : String) (path : FilePath) (todo : List String)
  /-- `fs::read_to_string`: so much of it is read. -/
  | reading (raw : String) (path : FilePath) (file : ℕ) (got : List UInt8) (todo : List String)

/-- The files, and the panel of the console. -/
structure Panel (ι : Type) where
  files : Files ι
  stage : PanelStage
  /-- The summaries of the refresh that is under way. -/
  done : List MuxSummary
  began : ι → Option ℕ
  /-- `App::mux_summaries`. -/
  summaries : List MuxSummary
  since : Option (ι → Option ℕ)

/-- The labels of the step function. -/
inductive PanelEvent (ι : Type) where
  /-- A step of a service, a writer or another reader. -/
  | files (event : Event ι)
  /-- The console does its next operation. -/
  | go
  /-- `read_dir` gives these names. -/
  | list (names : List String)
  /-- At most so many bytes are read. -/
  | read (n : ℕ)

/-- Where the panel begins. -/
def Panel.init (services : Services ι) (volume : Volume FilePath UInt8) : Panel ι where
  files := .init services volume
  stage := .idle
  done := []
  began := fun _ => none
  summaries := []
  since := none

/-- A path is done with. -/
def Panel.finish (s : Panel ι) (raw : String) (result : Except String MuxStatusSnapshot)
    (todo : List String) : Panel ι :=
  { s with stage := .next todo, done := s.done ++ [.fromPathAndResult raw result] }

/-- An operation of the console that does not read. -/
def Panel.go (host : PanelHost) (s : Panel ι) : Option (Panel ι) :=
  match s.stage with
  | .idle =>
    some { s with
      stage :=
        match host.root with
        | some root => .flat root host.overrides
        | none => .next host.overrides
      done := []
      began := fun i => (s.files.writers i).shown }
  | .flat root out =>
    let flat := joinPath root "status.json"
    some { s with
      stage :=
        .entries root (if host.isFile s.files.volume flat then PanelHost.push out flat else out) }
  | .next [] => some { s with stage := .idle, summaries := s.done, since := some s.began }
  | .next (raw :: todo) =>
    match host.inspect s.files.volume raw with
    | .error error => some (s.finish raw (.error error) todo)
    | .ok path => some { s with stage := .canonicalize raw path todo }
  | .canonicalize raw path todo =>
    match s.files.volume.names path with
    | some _ => some { s with stage := .opening raw path todo }
    | none => some (s.finish raw (.error ("failed to canonicalize rust-mux status file " ++ raw ++
        ": " ++ PanelHost.notFound)) todo)
  | .opening raw path todo =>
    match s.files.volume.names path with
    | some file => some { s with stage := .reading raw path file [] todo }
    | none => some (s.finish raw (.error ("failed to read rust-mux status file " ++
        host.absolute path ++ ": " ++ PanelHost.notFound)) todo)
  | .entries .. | .reading .. => none

/-- **One step**, of the daemon, another reader or the console. -/
def Panel.step [DecidableEq ι] (services : Services ι) (host : PanelHost) (s : Panel ι) :
    PanelEvent ι → Option (Panel ι)
  | .files event => (s.files.step services event).map fun files => { s with files }
  | .go => s.go host
  | .list names =>
    match s.stage with
    | .entries root out =>
      some { s with
        stage := .next ((host.dirFiles s.files.volume root names).foldl PanelHost.push out) }
    | _ => none
  | .read n =>
    match s.stage with
    | .reading raw path file got todo =>
      if n = 0 then none
      else
        match (s.files.volume.contents file).drop got.length with
        | [] => some (s.finish raw (host.parse services.floats path got) todo)
        | rest => some { s with stage := .reading raw path file (got ++ rest.take n) todo }
    | _ => none

/-- **A listing is whole**: it has the names of entries only, and of every file there is. -/
def PanelHost.Lists (host : PanelHost) (s : Panel ι) : PanelEvent ι → Prop
  | .list names => ∀ root, host.root = some root → (∀ name ∈ names, isEntryName name = true) ∧
      ∀ name, isEntryName name = true →
        host.entry s.files.volume (pathOf (joinPath root name)) = some .file → name ∈ names
  | _ => True

/-- The console looks for the status file at this path. -/
def PanelHost.Covers (host : PanelHost) (path : Path) : Prop :=
  (∃ raw ∈ host.overrides, pathOf raw = path) ∨
    ∃ root name, host.root = some root ∧ isEntryName name = true ∧
      extension name = some "json" ∧ pathOf (joinPath root name) = path

end Status

end VcOperator
