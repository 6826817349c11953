import VcOperator.Console.Model.Keys
import VcOperator.Polarize.Model
/-!
# What the viewer of the console reads

`artifact_lines` and `safe_artifact_path`, which read what the selected run
names, over a file tree that does not change meanwhile. `open_artifact` is
with the keys, and takes what is read here from its `World`.

The text of an error of the operating system is a parameter.
-/

namespace VcOperator

namespace Console

open Node (names)

/-- A path as it is given to the operating system: its components from the root of the tree, and
whether it ends like the path of a directory. -/
structure RawPath where
  components : List Component
  isDir : Bool
  deriving DecidableEq

/-- The pieces of a path, but those that stay where they are. -/
def component? (piece : List Char) : Option Component :=
  if piece = [] ∨ piece = ['.'] then none
  else if piece = ['.', '.'] then some .parent
  else some (.name (String.ofList piece))

/-- A text as a path: a relative one begins at the working directory, and an empty one leads
nowhere. -/
def RawPath.ofText (cwd : List String) (text : String) : Option RawPath :=
  let pieces := text.toList.splitOn '/'
  if text = "" then none
  else
    some {
      components := (if text.toList.head? = some '/' then [] else names cwd) ++
        pieces.filterMap component?
      isDir := pieces.getLast? = some [] || pieces.getLast? = some ['.'] }

/-- In a tree of names that are text, a path that is none leads nowhere. -/
def RawPath.ofOs (cwd : List String) (raw : OsString) : Option RawPath :=
  (String.fromUTF8? ⟨raw.bytes.toArray⟩).bind (RawPath.ofText cwd)

/-- The node at a list of names is a directory. -/
def isDirAt (fs : Node) (place : List String) : Bool :=
  match fs.lookup place with
  | some (.dir _) => true
  | _ => false

/-- `fs::canonicalize`. -/
def canonicalize (fs : Node) (path : RawPath) : Option (List String) :=
  (fs.canonicalize path.components).filter fun place => !path.isDir || isDirAt fs place

/-- `fs::symlink_metadata`: a link that has to be a directory is followed. -/
def symlinkMetadata (fs : Node) (path : RawPath) : Option Node :=
  if path.isDir then (canonicalize fs path).bind fs.lookup else fs.linkMetadata path.components

section

variable (fs : Node) (cwd : List String) (osError : OsString → String)

/-- `safe_artifact_path`. -/
def safeArtifactPath (path : OsString) (runRoot : Option String) :
    Except String (List String) :=
  match (RawPath.ofOs cwd path).bind (symlinkMetadata fs) with
  | none => .error (osError path)
  | some (.link _ _) => .error ("refusing to open symlinked artifact: " ++ path.toStringLossy)
  | some _ =>
    match (RawPath.ofOs cwd path).bind (canonicalize fs) with
    | none => .error (osError path)
    | some canonical =>
      match runRoot.filter fun root => !isBlank root with
      | none => .error "selected run has no root; refusing artifact path"
      | some runRoot =>
        match (RawPath.ofText cwd runRoot).bind (canonicalize fs) with
        | none => .error (osError (.ofString runRoot))
        | some root =>
          if root.isPrefixOf canonical then .ok canonical
          else .error ("refusing artifact outside selected run root: " ++
            Polarize.pathText canonical)

/-- The rows of a directory: a directory in it ends with a slash. -/
def directoryRows (entries : List (String × Node)) : List String :=
  let rows := (entries.map fun entry =>
    entry.1 ++ match entry.2 with
      | .dir _ => "/"
      | _ => "").mergeSort fun left right => left ≤ right
  if rows = [] then ["(empty directory)"] else rows

/-- The first lines of a text. -/
def firstLines (text : String) : List String :=
  let lines := (textLines text).map String.ofList
  lines.take 400 ++ if 400 < lines.length then ["[truncated after 400 lines]"] else []

/-- `artifact_lines`. -/
def artifactLines (path : OsString) (runRoot : Option String) : Except String (List String) :=
  match safeArtifactPath fs cwd osError path runRoot with
  | .error error => .error error
  | .ok place =>
    match fs.metadata (names place) with
    | some (.dir entries) => .ok (directoryRows entries)
    | some (.file (some text)) => .ok (firstLines text)
    | _ => .error (osError (.ofString (Polarize.pathText place)))

end

/-- **The world shows a tree**: what is read in it is read in that tree. -/
structure Sees {τ : Type} (fs : Node) (cwd : List String) (osError : OsString → String)
    (world : World τ) : Prop where
  artifactLines : world.artifactLines = artifactLines fs cwd osError
  prismPreviewLines : ∀ path lines, world.prismPreviewLines path = .ok lines ↔
    ∃ raw, RawPath.ofOs cwd path = some raw ∧ raw.isDir = false ∧
      Polarize.prismPreviewLines fs raw.components = some lines

/-- What was there when the viewer was last opened: the world, and the console before the key. -/
abbrev Opened (τ : Type) : Type := Option (World τ × App)

/-- The viewer is opened by a key, if it was not open. -/
def App.noteOpened {τ : Type} [LinearOrder τ] (out : Board.Outside τ) (opened : Opened τ)
    (app : App) : Turn τ → Opened τ
  | .key world key =>
    if app.focus ≠ .artifact ∧ (app.handleKey out world key).app.focus = .artifact then
      some (world, app)
    else opened
  | .refresh _ _ => opened

end Console

end VcOperator
