import VcOperator.Config.Model.Files
import VcOperator.Config.Model.Generate
/-!
# The `[DANGER]` rewrite

`danger.rs`, up to the plan: each eligible client config is rewritten so
that the servers found in it start the proxy. What is then done to the
disk is in `Backup`.
-/

namespace VcOperator

namespace Config

/-- `DangerStatus`. -/
inductive DangerStatus where
  /-- Source parses cleanly and a rewrite has been planned. -/
  | planned
  /-- Source could not be parsed; rewrite is skipped. -/
  | skippedInvalid
  /-- Source is ineligible for the danger flow. -/
  | skippedIneligible
  /-- No services to rewrite for this source. -/
  | skippedEmpty
  deriving DecidableEq

/-- Why a source was skipped. -/
inductive SkipReason where
  /-- `<client> has no verified strict-config flag; …`. -/
  | noStrictConfigFlag (client : String)
  /-- `no selected MCP servers found in this config; nothing to rewrite`. -/
  | nothingToRewrite
  | readError (err : ScanError)
  | rewriteFailed (err : ScanError)
  deriving DecidableEq

/-- `DangerAction`, over the texts it plans to write. -/
structure DangerAction (τ : Type) where
  source : HostFile
  status : DangerStatus
  /-- Rewritten file contents. -/
  newContents : Option τ
  changeLines : List String
  skipReason : Option SkipReason
  existingServices : List HostService

/-- `DangerPlan`. -/
structure DangerPlan (τ : Type) where
  actions : List (DangerAction τ)
  proxyCmd : String
  proxyArgs : List String
  socketDir : String

/-- One line of the preview. -/
def changeLine (proxyCmd : String) (svc : HostService) : String :=
  "rewrite `" ++ svc.name ++ "`: " ++ svc.command ++ " -> " ++ proxyCmd

/-! ## JSON -/

/-- The entry a service is rewritten to. -/
def jsonEntry (socketDir proxyCmd : String) (args : List String) (svc : HostService) : Value :=
  let server : OrderedMap String Value :=
    ((∅ : OrderedMap String Value).insert "command" (.string proxyCmd)).insert "args"
      (.array ((proxyArgs args (socketOf socketDir svc)).map .string))
  match svc.env with
  | none => .object server.entries
  | some env =>
    .object (server.insert "env" (.object (env.mapValues Value.string).entries)).entries

/-- Which key to update: the schema's stated key, or whichever exists. -/
def jsonKey (schema : ConfigSchema) (obj : OrderedMap String Value) : String :=
  match schema with
  | .mcpServersJson => "mcpServers"
  | .serversJson => "servers"
  | .autoJson =>
    if (obj.get "mcpServers").isSome then "mcpServers"
    else if (obj.get "servers").isSome then "servers"
    else "mcpServers"
  | .mcpServersToml => "mcpServers"

/-- The server map with the services rewritten; entries under other names stay. -/
def rewriteMap {α : Type} (entry : HostService → α) (services : List HostService)
    (existing : OrderedMap String α) : OrderedMap String α :=
  (existing.filter fun name _ => decide (name ∉ services.map HostService.name)).insertAll
    HostService.name entry services

/-- `rewrite_json_keep_other_keys`. -/
def rewriteJsonKeepOtherKeys (original : Text) (path : Path) (schema : ConfigSchema)
    (services : List HostService) (proxyCmd : String) (args : List String) (socketDir : String) :
    Except ScanError (Text × List String) :=
  match original.json with
  | none => .error (.failedToParseJson path)
  | some root =>
    match root.asObject with
    | none => .error (.topLevelNotObject path)
    | some obj =>
      let key := jsonKey schema obj
      let existing := ((obj.get key).bind Value.asObject).getD ∅
      let newMap := rewriteMap (jsonEntry socketDir proxyCmd args) services existing
      .ok (.ofJson (.object (obj.insert key (.object newMap.entries)).entries),
        services.map (changeLine proxyCmd))

/-! ## TOML -/

/-- The entry a service is rewritten to. -/
def tomlEntry (socketDir proxyCmd : String) (args : List String) (svc : HostService) : Toml :=
  let server : OrderedMap String Toml :=
    ((∅ : OrderedMap String Toml).insert "command" (.string proxyCmd)).insert "args"
      (.array ((proxyArgs args (socketOf socketDir svc)).map .string))
  match svc.env with
  | none => .table server.entries
  | some env =>
    .table (server.insert "env" (.table (env.mapValues Toml.string).entries)).entries

/-- `rewrite_toml_keep_other_tables`. -/
def rewriteTomlKeepOtherTables (original : Text) (path : Path) (services : List HostService)
    (proxyCmd : String) (args : List String) (socketDir : String) :
    Except ScanError (Text × List String) :=
  match original.toml with
  | none => .error (.failedToParseToml path)
  | some root =>
    match root.asTable with
    | none => .error (.topLevelNotTable path)
    | some table =>
      let existing := ((table.get "mcp_servers").bind Toml.asTable).getD ∅
      let newTable := rewriteMap (tomlEntry socketDir proxyCmd args) services existing
      .ok (.ofToml (.table (table.insert "mcp_servers" (.table newTable.entries)).entries),
        services.map (changeLine proxyCmd))

/-! ## The plan -/

/-- The rewrite of a file, by its format. -/
def rewriteText (original : Text) (source : HostFile) (services : List HostService)
    (proxyCmd : String) (args : List String) (socketDir : String) :
    Except ScanError (Text × List String) :=
  match source.format with
  | .json =>
    rewriteJsonKeepOtherKeys original source.path source.schema services proxyCmd args socketDir
  | .toml => rewriteTomlKeepOtherTables original source.path services proxyCmd args socketDir

/-- `push_rewrite_action`: the action it pushes. -/
def rewriteAction (files : Files) (scan : ScanResult) (proxyCmd : String) (args : List String)
    (socketDir : String) : DangerAction Text :=
  match files scan.host.path with
  | none =>
    { source := scan.host
      status := .skippedInvalid
      newContents := none
      changeLines := []
      skipReason := some (.readError (.failedToRead scan.host.path))
      existingServices := [] }
  | some original =>
    match rewriteText original scan.host scan.services proxyCmd args socketDir with
    | .ok (newContents, changeLines) =>
      { source := scan.host
        status := .planned
        newContents := some newContents
        changeLines := changeLines
        skipReason := none
        existingServices := scan.services }
    | .error err =>
      { source := scan.host
        status := .skippedInvalid
        newContents := none
        changeLines := []
        skipReason := some (.rewriteFailed err)
        existingServices := scan.services }

/-- The action for one scan. -/
def planAction (files : Files) (proxyCmd : String) (args : List String) (socketDir : String)
    (scan : ScanResult) : DangerAction Text :=
  if scan.host.eligibleForDanger = false then
    { source := scan.host
      status := .skippedIneligible
      newContents := none
      changeLines := []
      skipReason := some (.noStrictConfigFlag scan.host.kind.displayName)
      existingServices := scan.services }
  else if scan.services.isEmpty then
    { source := scan.host
      status := .skippedEmpty
      newContents := none
      changeLines := []
      skipReason := some .nothingToRewrite
      existingServices := [] }
  else rewriteAction files scan proxyCmd args socketDir

/-- `plan_danger_rewrite_for_scans`. -/
def planDangerRewriteForScans (files : Files) (scans : List ScanResult) (proxyCmd : String)
    (args : List String) (socketDir : String) : DangerPlan Text where
  actions := scans.map (planAction files proxyCmd args socketDir)
  proxyCmd := proxyCmd
  proxyArgs := args
  socketDir := socketDir

end Config

end VcOperator
