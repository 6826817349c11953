import Mathlib.Data.List.Lex
import VcOperator.Board.Model.Render
import VcOperator.Common.SameTree
import VcOperator.Console.Model.App
import VcOperator.Status.Model.Document
/-!
# The prisms

What the operator console makes of the files `prism.json` below the
artifacts of the home directory: `discover_prism_files` looks for them and
follows no link, `read_intent` reads one, and `current_intents` shows the
newest, over a file tree that does not change meanwhile. When a file was
modified is a parameter.
-/

namespace VcOperator

namespace Polarize

open Board (sortBy)
open Console (PolarizeIntent)
open Launch (PolarizeBand)
open Node (names)

/-! ## Bands -/

/-- `PolarizeBand::from_score`. -/
def PolarizeBand.fromScore (score : UInt8) : PolarizeBand :=
  if score ≤ 4 then .abort
  else if score ≤ 8 then .memo
  else if score ≤ 12 then .pass
  else .doctrine

/-- `parse_band`. -/
def parseBand (raw : String) : Option PolarizeBand :=
  match String.ofList ((trim raw.toList).map Char.toLower) with
  | "abort" => some .abort
  | "memo" => some .memo
  | "pass" => some .pass
  | "doctrine" => some .doctrine
  | _ => none

/-! ## Payloads -/

/-- `PrismPayload`. -/
structure PrismPayload where
  totalScore : Option ℕ
  score : Option ℕ
  runId : Option String
  band : Option String
  bandAction : Option String

/-- `Deserialize` of `PrismPayload`, from an object. Unknown fields are ignored. -/
def PrismPayload.ofMembers (members : List (String × Value)) : Option PrismPayload := do
  let totalScore ← Status.readOptional Value.asU64 "total_score" members
  let score ← Status.readOptional Value.asU64 "score" members
  let runId ← Status.readOptional Value.asStr "run_id" members
  let band ← Status.readOptional Value.asStr "band" members
  let bandAction ← Status.readOptional Value.asStr "band_action" members
  return { totalScore, score, runId, band, bandAction }

/-- The names of the fields of `PrismPayload`, in order. -/
def PrismPayload.fields : List String := ["total_score", "score", "run_id", "band", "band_action"]

/-- `serde_json::from_str`. An array is taken for the values of the first fields. -/
def PrismPayload.fromStr (floats : Json.Floats) (text : String) : Option PrismPayload :=
  match Json.fromStr floats text with
  | some (.object members) => ofMembers members
  | some (.array elements) =>
    if elements.length ≤ fields.length then ofMembers (fields.zip elements) else none
  | _ => none

/-! ## Files -/

/-- `is_plain_dir`. -/
def isPlainDir (fs : Node) (path : List Component) : Bool :=
  match fs.linkMetadata path with
  | some (.dir _) => true
  | _ => false

/-- `is_polarize_prism`, of a path without links. -/
def isPolarizePrism (path : List String) : Bool :=
  path.dropLast.dropLast.getLast? = some "polarize"

/-- `safe_prism_file`. -/
def safePrismFile (fs : Node) (path : List Component) : Option (List String) :=
  if Node.fileName path = some "prism.json" then
    match fs.linkMetadata path with
    | some (.file _) => (fs.canonicalize path).filter isPolarizePrism
    | _ => none
  else none

/-- `collect_prisms`, where it may go so many levels down: 7 at first, and none where
`depth > 6`. -/
def collectPrisms (fs : Node) : ℕ → List Component → List (List String)
  | 0, _ => []
  | levels + 1, path =>
    if isPlainDir fs path then
      ((fs.readDir path).getD []).flatMap fun entry =>
        let entryPath := path ++ [.name entry]
        if entry = "prism.json" then (safePrismFile fs entryPath).toList
        else if isPlainDir fs entryPath then collectPrisms fs levels entryPath
        else []
    else []

/-- `discover_prism_files`. Paths are sorted by their components. -/
def discoverPrismFiles (fs : Node) (home : List Component) : List (List String) :=
  (collectPrisms fs 7 (home ++ [.name "artifacts"])).mergeSort fun left right => left ≤ right

/-- A path without links, as text. -/
def pathText (path : List String) : String := "/" ++ "/".intercalate path

/-- `read_intent`: what it makes of the payload of a file. -/
def PrismPayload.intent (path : List String) (payload : PrismPayload) : PolarizeIntent :=
  let score := UInt8.ofNat (min ((payload.totalScore.or payload.score).getD 0) 15)
  { band := ((payload.bandAction.bind parseBand).or (payload.band.bind parseBand)).getD
      (PolarizeBand.fromScore score)
    score := score
    runId := ((payload.runId.filter fun value => !isBlank value).or
      path.dropLast.getLast?).getD "unknown"
    prismPath := .ofString (pathText path) }

/-- `read_intent`. -/
def readIntent (fs : Node) (floats : Json.Floats) (path : List Component) :
    Option PolarizeIntent := do
  let path ← safePrismFile fs path
  let text ← fs.readToString (names path)
  let payload ← PrismPayload.fromStr floats text
  return payload.intent path

section

variable {τ : Type} [LinearOrder τ]

/-- The order of the rows: the newest first, and of one time the last run id first. -/
def compareRows (left right : τ × PolarizeIntent) : Ordering :=
  (compare right.1 left.1).then (compare right.2.runId left.2.runId)

/-- The rows of `current_intents_from_home`, before they are sorted: each with the time its file
was modified, or the epoch. -/
def intentRows (fs : Node) (floats : Json.Floats) (mtime : List String → τ)
    (home : List Component) : List (τ × PolarizeIntent) :=
  (discoverPrismFiles fs home).filterMap fun path =>
    (readIntent fs floats (names path)).map fun intent => (mtime path, intent)

/-- `current_intents_from_home`. -/
def currentIntentsFromHome (fs : Node) (floats : Json.Floats) (mtime : List String → τ)
    (home : List Component) : List PolarizeIntent :=
  (sortBy compareRows (intentRows fs floats mtime home)).map Prod.snd

/-- `current_intents`. -/
def currentIntents (fs : Node) (floats : Json.Floats) (mtime : List String → τ)
    (home : List Component) : List PolarizeIntent :=
  (currentIntentsFromHome fs floats mtime home).take 8

end

/-- `prism_preview_lines`. -/
def prismPreviewLines (fs : Node) (path : List Component) : Option (List String) := do
  let path ← safePrismFile fs path
  let text ← fs.readToString (names path)
  let lines := (textLines text).map String.ofList
  return lines.take 400 ++ if 400 < lines.length then ["[truncated after 400 lines]"] else []

end Polarize

end VcOperator
