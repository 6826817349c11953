import Mathlib.Data.String.Basic
import VcOperator.Common.Names
import VcOperator.Common.OrderedMap
/-!
# Client configs and the services found in them

The data model of `scan.rs`, and `merge_services`: services found in
several client configs are grouped by name, identical ones collapse, and
divergent ones are renamed after the client they come from.

The environment of a service is a `HashMap<String, String>` that is only
compared and copied; it is held in key order, so that equal maps are
equal. Two fields of `HostFile` that no function here reads, `confidence`
and `writable`, are left out.
-/

namespace VcOperator

namespace Config

/-- Kind of MCP client whose config we are looking at. -/
inductive HostKind where
  | codex
  | claude
  | claudeDesktop
  | junie
  | gemini
  | cursor
  | vsCode
  | jetBrains
  | custom
  | unknown
  deriving DecidableEq, Repr

/-- `HostKind::as_label`. -/
def HostKind.asLabel : HostKind → String
  | codex => "codex"
  | claude => "claude"
  | claudeDesktop => "claude-desktop"
  | junie => "junie"
  | gemini => "gemini"
  | cursor => "cursor"
  | vsCode => "vscode"
  | jetBrains => "jetbrains"
  | custom => "custom"
  | unknown => "unknown"

/-- `HostKind::display_name`. -/
def HostKind.displayName : HostKind → String
  | codex => "Codex CLI"
  | claude => "Claude Code"
  | claudeDesktop => "Claude Desktop"
  | junie => "Junie"
  | gemini => "Gemini CLI"
  | cursor => "Cursor"
  | vsCode => "VS Code"
  | jetBrains => "JetBrains IDEs"
  | custom => "Custom"
  | unknown => "Unknown"

/-- Wire format used by the host config file. -/
inductive HostFormat where
  | toml
  | json
  deriving DecidableEq, Repr

/-- Logical schema inside the host config, independent of file format. -/
inductive ConfigSchema where
  /-- JSON object with top-level `mcpServers` map. -/
  | mcpServersJson
  /-- JSON object with top-level `servers` map. -/
  | serversJson
  /-- TOML with `[mcp_servers.<name>]` tables. -/
  | mcpServersToml
  /-- JSON: try `mcpServers` first, then `servers`. -/
  | autoJson
  deriving DecidableEq, Repr

/-- A path, by its parent and its last component; `file_name` is `None` for a
path such as `/` or one that ends in `..`. -/
structure Path where
  parent : String
  fileName : Option String
  deriving DecidableEq, Repr

/-- A single discovered or user-provided client config source. -/
structure HostFile where
  kind : HostKind
  path : Path
  format : HostFormat
  schema : ConfigSchema
  /-- Eligible for the `[DANGER]` auto-rewrite flow. -/
  eligibleForDanger : Bool
  deriving DecidableEq, Repr

/-- The environment of a service. -/
abbrev Env := OrderedMap String String

/-- One MCP server discovered inside a client config. -/
structure HostService where
  name : String
  command : String
  args : List String
  cwd : Option String
  socket : Option String
  env : Option Env
  enabled : Option Bool
  deriving DecidableEq

/-- Parsed result of one config source. -/
structure ScanResult where
  host : HostFile
  services : List HostService

/-- One of the divergent services of a conflict, with its source. -/
structure ConflictVariant where
  sourcePath : Path
  sourceKind : HostKind
  service : HostService

/-- A conflict where the same `name` appears with different `command`, `args`
or `env` across two or more sources. -/
structure ConflictReport where
  name : String
  variants : List ConflictVariant

/-- Result of merging all discovered services across sources. -/
structure MergeOutcome where
  services : List HostService
  conflicts : List ConflictReport

/-! ## Dedup and conflict detection -/

/-- `services_equivalent`: everything but the name and the `enabled` flag agrees. -/
def servicesEquivalent (a b : HostService) : Bool :=
  a.command = b.command && a.args = b.args && a.cwd = b.cwd && a.env = b.env &&
    a.socket = b.socket

/-- `ensure_unique`: the candidate, or the first of `<candidate>-2`,
`<candidate>-3`, … that is not in use. -/
def ensureUnique (used : List String) (candidate : String) : String :=
  if candidate ∈ used then
    firstFree used (fun counter => candidate ++ "-" ++ toString counter) used.length 2
  else candidate

/-- Identical entries (same command, args, env) collapse into one, the first. -/
def unique (variants : List (HostFile × HostService)) : List (HostFile × HostService) :=
  variants.foldl
    (fun kept v => if kept.any fun e => servicesEquivalent e.2 v.2 then kept else kept ++ [v]) []

/-- `by_name`: every service of every scan with its source, grouped by name. -/
def byName (scans : List ScanResult) : OrderedMap String (List (HostFile × HostService)) :=
  scans.foldl
    (fun m scan => scan.services.foldl (fun m svc => m.push svc.name (scan.host, svc)) m) ∅

/-- What the loop of `merge_services` carries. -/
structure Merging where
  services : List HostService
  conflicts : List ConflictReport
  usedNames : List String

/-- One variant of a conflict, renamed after its source. -/
def renameVariant (name : String) (m : Merging) (v : HostFile × HostService) : Merging :=
  let candidate := name ++ "-from-" ++ v.1.kind.asLabel
  let uniqueName := ensureUnique m.usedNames candidate
  { m with
    services := m.services ++ [{ v.2 with name := uniqueName }]
    usedNames := uniqueName :: m.usedNames }

/-- One round of the loop: a single variant keeps its name, and the variants of
a conflict are reported and renamed. -/
def mergeName (m : Merging) (name : String) (variants : List (HostFile × HostService)) :
    Merging :=
  match unique variants with
  | [(_, svc)] =>
    { m with services := m.services ++ [svc], usedNames := name :: m.usedNames }
  | vs =>
    let report : ConflictReport :=
      ⟨name, vs.map fun v => ⟨v.1.path, v.1.kind, v.2⟩⟩
    vs.foldl (renameVariant name) { m with conflicts := m.conflicts ++ [report] }

/-- `merge_services`. -/
def mergeServices (scans : List ScanResult) : MergeOutcome :=
  let m := (byName scans).entries.foldl (fun m e => mergeName m e.1 e.2) ⟨[], [], []⟩
  ⟨m.services, m.conflicts⟩

end Config

end VcOperator
