import VcOperator.Config.Model.Services
import VcOperator.Json.Value
/-!
# Config files, and what a scan finds in them

The multi-schema parser of `scan.rs`. A file's text is only ever handed
to `serde_json` and `toml`, and what the program writes is what these
serialise; so a text is modelled by what the two parsers make of it
(`Text`), and a written text by the value it was made from.

The maps of the two libraries hold each key once. A value is a tree that
may repeat a key; `asObject` and `asTable` are the map it denotes, and
the program reads every object and table through them.
-/

namespace VcOperator

/-- `toml::Value`. -/
inductive Toml where
  | string (s : String)
  | integer (n : Int64)
  /-- A double, by its bits. -/
  | float (bits : UInt64)
  | boolean (b : Bool)
  /-- A date or time, as it is written. -/
  | datetime (s : String)
  | array (elements : List Toml)
  | table (entries : List (String × Toml))
  deriving Repr

/-- `Value::as_object`. -/
def Value.asObject : Value → Option (OrderedMap String Value)
  | .object ms => some (.ofList ms)
  | _ => none

/-- `toml::Value::as_table`. -/
def Toml.asTable : Toml → Option (OrderedMap String Toml)
  | .table es => some (.ofList es)
  | _ => none

@[simp] theorem Value.asObject_object (m : OrderedMap String Value) :
    (Value.object m.entries).asObject = some m :=
  congrArg some (OrderedMap.ofList_entries m)

@[simp] theorem Toml.asTable_table (m : OrderedMap String Toml) :
    (Toml.table m.entries).asTable = some m :=
  congrArg some (OrderedMap.ofList_entries m)

namespace Config

/-- A file's text, by what `serde_json` and `toml` make of it. -/
structure Text where
  json : Option Value
  toml : Option Toml

/-- The text `serde_json::to_string_pretty` makes of an object: no TOML. -/
def Text.ofJson (v : Value) : Text := ⟨some v, none⟩

/-- The text `toml::to_string_pretty` makes of a table: no JSON. -/
def Text.ofToml (t : Toml) : Text := ⟨none, some t⟩

/-- What `safe_read_to_string` yields for a path: nothing for a file that is not
there, not a regular file, or not readable. -/
abbrev Files := Path → Option Text

/-- `RawServer`: an entry of a server map. -/
structure RawServer where
  command : Option String
  args : Option (List String)
  cwd : Option String
  socket : Option String
  env : Option Env
  enabled : Option Bool
  deriving DecidableEq

/-- A map of strings, from a map whose values decode as strings. -/
def stringMap {α : Type} (decode : α → Option String) (m : OrderedMap String α) : Option Env :=
  (m.entries.mapM fun e : String × α => (decode e.2).map fun s => (e.1, s)).map OrderedMap.ofList

/-! ## Reading a JSON entry -/

/-- `Vec<String>` from a JSON value. -/
def jsonStrings : Value → Option (List String)
  | .array vs => vs.mapM Value.asStr
  | _ => none

/-- `HashMap<String, String>` from a JSON value. -/
def jsonEnv (v : Value) : Option Env := v.asObject.bind (stringMap Value.asStr)

/-- `bool` from a JSON value. -/
def jsonBool : Value → Option Bool
  | .bool b => some b
  | _ => none

/-- An `Option` field: absent and `null` are `None`, anything else must decode. -/
def jsonField {α : Type} (decode : Value → Option α) : Option Value → Option (Option α)
  | none => some none
  | some .null => some none
  | some v => (decode v).map some

/-- The fields of a `RawServer`, in the order they are declared. -/
def rawServerOf (command args cwd socket env enabled : Option Value) : Option RawServer := do
  let command ← jsonField Value.asStr command
  let args ← jsonField jsonStrings args
  let cwd ← jsonField Value.asStr cwd
  let socket ← jsonField Value.asStr socket
  let env ← jsonField jsonEnv env
  let enabled ← jsonField jsonBool enabled
  return ⟨command, args, cwd, socket, env, enabled⟩

/-- `serde_json::from_value::<RawServer>`: an object by its field names, unknown
ones ignored, or an array of exactly the six fields. -/
def rawServerOfJson (v : Value) : Option RawServer :=
  match v with
  | .array [command, args, cwd, socket, env, enabled] =>
    rawServerOf (some command) (some args) (some cwd) (some socket) (some env) (some enabled)
  | v =>
    v.asObject.bind fun m =>
      rawServerOf (m.get "command") (m.get "args") (m.get "cwd") (m.get "socket") (m.get "env")
        (m.get "enabled")

/-! ## Reading a TOML entry -/

/-- `String` from a TOML value. -/
def tomlString : Toml → Option String
  | .string s => some s
  | _ => none

/-- `Vec<String>` from a TOML value. -/
def tomlStrings : Toml → Option (List String)
  | .array ts => ts.mapM tomlString
  | _ => none

/-- `HashMap<String, String>` from a TOML value. -/
def tomlEnv (t : Toml) : Option Env := t.asTable.bind (stringMap tomlString)

/-- `bool` from a TOML value. -/
def tomlBool : Toml → Option Bool
  | .boolean b => some b
  | _ => none

/-- An `Option` field: absent is `None`, anything else must decode. -/
def tomlField {α : Type} (decode : Toml → Option α) : Option Toml → Option (Option α)
  | none => some none
  | some t => (decode t).map some

/-- `toml::from_str::<RawServer>` on what `toml::to_string` makes of a table. -/
def rawServerOfToml (m : OrderedMap String Toml) : Option RawServer := do
  let command ← tomlField tomlString (m.get "command")
  let args ← tomlField tomlStrings (m.get "args")
  let cwd ← tomlField tomlString (m.get "cwd")
  let socket ← tomlField tomlString (m.get "socket")
  let env ← tomlField tomlEnv (m.get "env")
  let enabled ← tomlField tomlBool (m.get "enabled")
  return ⟨command, args, cwd, socket, env, enabled⟩

/-! ## Scanning a file -/

/-- Why a source could not be scanned or rewritten. -/
inductive ScanError where
  | failedToRead (path : Path)
  | failedToParseJson (path : Path)
  | failedToParseToml (path : Path)
  /-- The server map is there and is not an object. -/
  | notAnObject (key : String) (path : Path)
  /-- The schema requires the server map, and it is not there. -/
  | missing (key : String) (path : Path)
  /-- `toml::to_string` takes tables only. -/
  | reserializeEntry (name : String)
  | topLevelNotObject (path : Path)
  | topLevelNotTable (path : Path)
  deriving DecidableEq

/-- The service of an entry; an entry without a command is not MCP-shaped. -/
def RawServer.toHostService (name : String) (raw : RawServer) : Option HostService :=
  raw.command.map fun command =>
    { name := name
      command := command
      args := raw.args.getD []
      cwd := raw.cwd
      socket := raw.socket
      env := raw.env
      enabled := raw.enabled }

/-- The MCP-shaped entries of a JSON server map. -/
def jsonServices (m : OrderedMap String Value) : List HostService :=
  m.entries.filterMap fun e => (rawServerOfJson e.2).bind (RawServer.toHostService e.1)

/-- `parse_json_servers_under_key`. -/
def parseJsonServersUnderKey (data : Text) (path : Path) (key : String) (requirePresent : Bool) :
    Except ScanError (List HostService) :=
  match data.json with
  | none => .error (.failedToParseJson path)
  | some root =>
    match root.asObject.bind (OrderedMap.get · key) with
    | some v =>
      match v.asObject with
      | some m => .ok (jsonServices m)
      | none => .error (.notAnObject key path)
    | none => if requirePresent then .error (.missing key path) else .ok []

/-- The loop over the entries of `[mcp_servers]`. -/
def tomlServices : List (String × Toml) → Except ScanError (List HostService)
  | [] => .ok []
  | (name, raw) :: entries =>
    match raw.asTable with
    | none => .error (.reserializeEntry name)
    | some m => do
      let rest ← tomlServices entries
      return ((rawServerOfToml m).bind (RawServer.toHostService name)).toList ++ rest

/-- `parse_toml_mcp_servers`. -/
def parseTomlMcpServers (data : Text) (path : Path) : Except ScanError (List HostService) :=
  match data.toml with
  | none => .error (.failedToParseToml path)
  | some root =>
    match (root.asTable.bind (OrderedMap.get · "mcp_servers")).bind Toml.asTable with
    | some m => tomlServices m.entries
    | none => .ok []

/-- The services of a text, by format and schema. -/
def scanText (data : Text) (file : HostFile) : Except ScanError (List HostService) :=
  match file.format, file.schema with
  | .json, .mcpServersJson => parseJsonServersUnderKey data file.path "mcpServers" true
  | .json, .serversJson => parseJsonServersUnderKey data file.path "servers" true
  -- `McpServersToml` with JSON format is nonsensical; treated as auto
  | .json, .autoJson | .json, .mcpServersToml => do
    let primary ← parseJsonServersUnderKey data file.path "mcpServers" false
    if primary.isEmpty then parseJsonServersUnderKey data file.path "servers" false
    else return primary
  | .toml, _ => parseTomlMcpServers data file.path

/-- `scan_host_file`. -/
def scanHostFile (files : Files) (file : HostFile) : Except ScanError ScanResult :=
  match files file.path with
  | none => .error (.failedToRead file.path)
  | some data => do
    let services ← scanText data file
    return ⟨file, services⟩

/-- The scans of a list of sources, the failing ones skipped. -/
def scanAll (files : Files) (hosts : List HostFile) : List ScanResult :=
  hosts.filterMap fun host => (scanHostFile files host).toOption

end Config

end VcOperator
