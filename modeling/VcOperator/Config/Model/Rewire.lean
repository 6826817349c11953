import VcOperator.Common.Text
import VcOperator.Config.Model.Backup
/-!
# The `scan` and `rewire` commands

The part of `scan.rs` below the merge: the manifest, the snippets, and the
rewrite of a single host's file with its `.bak` backup, which the wizard does
not use. What the system does to the files is an input (`Weather`), as it is for
the other rewrite.
-/

namespace VcOperator

/-! ## JSON values as TOML -/

namespace Toml

mutual

/-- What `toml` makes of a JSON value: it has no null, and its integers are `i64`. -/
def ofValue : Value → Option Toml
  | .null => none
  | .bool b => some (.boolean b)
  | .number (.posInt n) => if n.toNat < 2 ^ 63 then some (.integer (Int64.ofNat n.toNat)) else none
  | .number (.negInt n) => some (.integer n)
  | .number (.float bits) => some (.float bits)
  | .string s => some (.string s)
  | .array vs => (ofValues vs).map .array
  | .object ms => (ofMembers ms).map .table

/-- The elements of an array. -/
def ofValues : List Value → Option (List Toml)
  | [] => some []
  | v :: vs => do
    let t ← ofValue v
    let ts ← ofValues vs
    return t :: ts

/-- The members of an object. -/
def ofMembers : List (String × Value) → Option (List (String × Toml))
  | [] => some []
  | (key, v) :: ms => do
    let t ← ofValue v
    let es ← ofMembers ms
    return (key, t) :: es

end

/-- `toml::Value::get` at a string index: `None` on anything but a table. -/
def get (key : String) (t : Toml) : Option Toml := t.asTable.bind (OrderedMap.get · key)

end Toml

namespace Config

/-! ## Manifest and snippets -/

/-- `build_manifest`. -/
def buildManifest (scans : List ScanResult) (socketDir : String) : DaemonConfig :=
  ⟨.fill HostService.name (serverConfig socketDir) (mergeServices scans).services⟩

/-- The members of the entry a snippet has for a service. -/
def snippetMembers (socketDir proxyCmd : String) (args : List String) (svc : HostService) :
    OrderedMap String Value :=
  let server : OrderedMap String Value :=
    ((∅ : OrderedMap String Value).insert "command" (.string proxyCmd)).insert "args"
      (.array ((proxyArgs args (socketOf socketDir svc)).map .string))
  let server :=
    match svc.cwd with
    | none => server
    | some cwd => server.insert "cwd" (.string cwd)
  match svc.env with
  | none => server
  | some env => server.insert "env" (.object (env.mapValues Value.string).entries)

/-- The entry a snippet has for a service. -/
def snippetEntry (socketDir proxyCmd : String) (args : List String) (svc : HostService) : Value :=
  .object (snippetMembers socketDir proxyCmd args svc).entries

/-- The server map of the snippets. -/
def snippetServers (scans : List ScanResult) (socketDir proxyCmd : String) (args : List String) :
    OrderedMap String Value :=
  (∅ : OrderedMap String Value).insertAll HostService.name
    (snippetEntry socketDir proxyCmd args) (mergeServices scans).services

/-- `generate_snippet`. -/
def generateSnippet (scans : List ScanResult) (socketDir proxyCmd : String) (args : List String) :
    HashMap HostKind Value :=
  let servers := snippetServers scans socketDir proxyCmd args
  .fill (·.host.kind) (fun _ => .object [("mcpServers", .object servers.entries)]) scans

/-! ## The rewrite of a host's file -/

/-- Why a host was not rewired. -/
inductive RewireError where
  | scan (err : ScanError)
  /-- `no snippet generated for host`. -/
  | noSnippet
  /-- `serialize snippet toml`. -/
  | serializeSnippet
  | write (err : WriteError)
  deriving DecidableEq

/-- The key a host's file gets the proxies under. -/
def targetKey (host : HostFile) : String :=
  match host.format with
  | .json => "mcpServers"
  -- the schema-correct key: Codex expects `mcp_servers`
  | .toml => if host.kind = .codex then "mcp_servers" else "mcpServers"

/-- A host's file with the server map of the snippet. -/
def mergeSnippet (data : Text) (host : HostFile) (snippet : Value) : Except RewireError Text :=
  match host.format with
  | .json =>
    match data.json with
    | none => .error (.scan (.failedToParseJson host.path))
    | some root =>
      match root.asObject with
      | none => .error (.scan (.topLevelNotObject host.path))
      | some obj =>
        .ok (.ofJson (.object (obj.insert (targetKey host)
          ((snippet.get "mcpServers").getD (.object []))).entries))
  | .toml =>
    match Toml.ofValue snippet with
    | none => .error .serializeSnippet
    | some snippet =>
      match data.toml with
      | none => .error (.scan (.failedToParseToml host.path))
      | some root =>
        match root.asTable with
        | none => .error (.scan (.topLevelNotTable host.path))
        | some table =>
          .ok (.ofToml (.table (table.insert (targetKey host)
            ((snippet.get "mcpServers").getD (.table []))).entries))

/-- What `rewire_host` writes. -/
def rewiredText (files : Files) (host : HostFile) (socketDir proxyCmd : String)
    (args : List String) : Except RewireError Text :=
  match scanHostFile files host with
  | .error err => .error (.scan err)
  | .ok scan =>
    match (generateSnippet [scan] socketDir proxyCmd args).get host.kind with
    | none => .error .noSnippet
    | some snippet =>
      match files host.path with
      | none => .error (.scan (.failedToRead host.path))
      | some data => mergeSnippet data host snippet

/-! ## Backup and write -/

section Write

variable {τ : Type}

/-- `Path::with_extension`. -/
def withExtension (path : Path) (ext : String) : Path :=
  { path with fileName := path.fileName.map fun name => fileStem name ++ "." ++ ext }

/-- `safe_copy_file`, where the source may be the destination: that is truncated before
anything is read, and `nothing` is what is left to copy. -/
def safeCopyOnto (nothing : τ) (disk : Disk τ) (src dst : Path) (fate : Fate τ) :
    Disk τ × Bool :=
  if dst = src then
    match src.fileName, disk src with
    | some _, some (.file _) => writeFile disk dst nothing fate
    | _, _ => (disk, false)
  else safeCopyFile disk src dst fate

/-- `write_with_backup`. -/
def writeWithBackup (nothing : τ) (disk : Disk τ) (path : Path) (contents : τ) (dryRun : Bool)
    (w : Weather τ) : Disk τ × Except WriteError (Option Path) :=
  if dryRun then (disk, .ok none)
  else if w.dirOk = false then (disk, .error .failedToCreateDir)
  else
    let backup := withExtension path "bak"
    let copied :=
      if (disk path).isSome then safeCopyOnto nothing disk path backup w.copy else (disk, true)
    if copied.2 = false then (copied.1, .error .failedToCreateBackup)
    else
      let written := writeFile copied.1 path contents w.write
      if written.2 then (written.1, .ok (some backup)) else (written.1, .error .failedToWrite)

end Write

/-- An empty file: no JSON, and a TOML document without keys. -/
def Text.nothing : Text := ⟨none, some (.table [])⟩

/-- `RewireOutcome`. -/
structure RewireOutcome where
  path : Path
  backup : Option Path
  written : Bool
  deriving DecidableEq

/-- `rewire_host`. -/
def rewireHost (disk : Disk Text) (host : HostFile) (socketDir proxyCmd : String)
    (args : List String) (dryRun : Bool) (w : Weather Text) :
    Disk Text × Except RewireError RewireOutcome :=
  match rewiredText (Disk.files disk) host socketDir proxyCmd args with
  | .error err => (disk, .error err)
  | .ok merged =>
    match writeWithBackup Text.nothing disk host.path merged dryRun w with
    | (disk', .ok backup) =>
      (disk', .ok { path := host.path, backup := backup, written := !dryRun })
    | (disk', .error err) => (disk', .error (.write err))

/-- `run_status_cmd`: each service, and whether it uses the proxy. -/
def runStatusCmd (files : Files) (host : HostFile) (proxyCmd : String) :
    Except ScanError (List (HostService × Bool)) := do
  let scan ← scanHostFile files host
  return scan.services.map fun svc => (svc, decide (svc.command = proxyCmd))

end Config

end VcOperator
