import VcOperator.Config.Model.Danger
/-!
# Server maps, whatever the format

JSON and TOML files are read and rewritten by separate functions that do
the same. This file has the view the results share: a node of either
kind, its members, and the server it describes. What a scan finds is then
one statement (`mem_scanText`), and so is what a rewrite does to a file
(`Rewritten`).
-/

namespace VcOperator

namespace Config

/-- A value of either format. -/
inductive Node where
  | json (v : Value)
  | toml (t : Toml)

namespace Node

/-- The member of an object or table under a key. -/
def get (key : String) : Node → Option Node
  | json v => (v.asObject.bind (OrderedMap.get · key)).map json
  | toml t => (t.asTable.bind (OrderedMap.get · key)).map toml

/-- The server an entry of a server map describes. -/
def raw : Node → Option RawServer
  | json v => rawServerOfJson v
  | toml t => t.asTable.bind rawServerOfToml

end Node

/-- What the parser of a format makes of a text. -/
def Text.root (data : Text) : HostFormat → Option Node
  | .json => data.json.map .json
  | .toml => data.toml.map .toml

/-- The top-level value of a file under a key. -/
def top (file : HostFile) (data : Text) (key : String) : Option Node :=
  (data.root file.format).bind (Node.get key)

/-- The entry of a name in the map under a top-level key. -/
def entryAt (file : HostFile) (data : Text) (key name : String) : Option Node :=
  (top file data key).bind (Node.get name)

/-- The key of the map the scan takes the services of a file from. -/
def scannedKey (file : HostFile) (data : Text) : String :=
  match file.format, file.schema with
  | .json, .mcpServersJson => "mcpServers"
  | .json, .serversJson => "servers"
  | .json, .autoJson | .json, .mcpServersToml =>
    if parseJsonServersUnderKey data file.path "mcpServers" false = .ok [] then "servers"
    else "mcpServers"
  | .toml, _ => "mcp_servers"

/-- The key of the map the rewrite puts its entries into. -/
def rewrittenKey (file : HostFile) (data : Text) : String :=
  match file.format with
  | .json => jsonKey file.schema ((data.json.bind Value.asObject).getD ∅)
  | .toml => "mcp_servers"

/-! ## The two formats -/

/-- **A format of documents**: its values as nodes, those of them that have members,
and the value that has given ones. -/
structure View (α : Type) where
  node : α → Node
  members : α → Option (OrderedMap String α)
  ofEntries : List (String × α) → α
  get_node : ∀ key v, (node v).get key = ((members v).bind (OrderedMap.get · key)).map node
  members_ofEntries : ∀ m : OrderedMap String α, members (ofEntries m.entries) = some m

/-- JSON. -/
def jsonView : View Value where
  node := .json
  members := Value.asObject
  ofEntries := .object
  get_node _ _ := rfl
  members_ofEntries := Value.asObject_object

/-- TOML. -/
def tomlView : View Toml where
  node := .toml
  members := Toml.asTable
  ofEntries := .table
  get_node _ _ := rfl
  members_ofEntries := Toml.asTable_table

theorem root_json {file : HostFile} (data : Text) (h : file.format = .json) :
    data.root file.format = data.json.map jsonView.node := by
  rw [h]
  rfl

theorem root_toml {file : HostFile} (data : Text) (h : file.format = .toml) :
    data.root file.format = data.toml.map tomlView.node := by
  rw [h]
  rfl

namespace View

variable {α : Type} (V : View α) {file : HostFile} {data : Text} {root : Option α}

theorem top_eq (h : data.root file.format = root.map V.node) (key : String) :
    top file data key = ((root.bind V.members).bind (OrderedMap.get · key)).map V.node := by
  rw [top, h]
  cases root with
  | none => rfl
  | some r => exact V.get_node key r

theorem entryAt_eq (h : data.root file.format = root.map V.node) (key name : String) :
    entryAt file data key name =
      ((((root.bind V.members).bind (OrderedMap.get · key)).bind V.members).bind
        (OrderedMap.get · name)).map V.node := by
  rw [entryAt, V.top_eq h]
  cases (root.bind V.members).bind (OrderedMap.get · key) with
  | none => rfl
  | some v => exact V.get_node name v

end View

/-! ## What a scan finds -/

theorem name_of_toHostService {name : String} {raw : RawServer} {svc : HostService}
    (h : raw.toHostService name = some svc) : svc.name = name := by
  obtain ⟨command, -, rfl⟩ := Option.map_eq_some_iff.1 h
  rfl

section ServicesOf

variable {α : Type} {read : α → Option RawServer}

/-- The MCP-shaped entries of a server map, by what an entry reads as. -/
def servicesOf (read : α → Option RawServer) (es : List (String × α)) : List HostService :=
  es.filterMap fun e => (read e.2).bind (RawServer.toHostService e.1)

theorem names_servicesOf (es : List (String × α)) :
    ((servicesOf read es).map HostService.name).Sublist (es.map Prod.fst) := by
  unfold servicesOf
  induction es with
  | nil => exact List.Sublist.slnil
  | cons e es ih =>
    rw [List.filterMap_cons, List.map_cons]
    split
    · exact ih.cons _
    · rename_i svc hsvc
      obtain ⟨raw, -, hsome⟩ := Option.bind_eq_some_iff.1 hsvc
      rw [List.map_cons, name_of_toHostService hsome]
      exact ih.cons_cons _

theorem mem_servicesOf {m : OrderedMap String α} {svc : HostService} :
    svc ∈ servicesOf read m.entries ↔
      ∃ v, m.get svc.name = some v ∧
        (read v).bind (RawServer.toHostService svc.name) = some svc := by
  simp only [servicesOf, List.mem_filterMap]
  constructor
  · rintro ⟨⟨name, v⟩, hmem, hsvc⟩
    obtain ⟨raw, hraw, hsome⟩ := Option.bind_eq_some_iff.1 hsvc
    obtain rfl := name_of_toHostService hsome
    exact ⟨v, OrderedMap.get_eq_some_iff.2 hmem, hsvc⟩
  · rintro ⟨v, hget, hsvc⟩
    exact ⟨(svc.name, v), OrderedMap.get_eq_some_iff.1 hget, hsvc⟩

end ServicesOf

/-- The server an entry of `[mcp_servers]` describes. -/
def tomlRaw (t : Toml) : Option RawServer := t.asTable.bind rawServerOfToml

/-- `[mcp_servers]` is read to its end where every entry is a table. -/
theorem tomlServices_of_tables {es : List (String × Toml)} (h : ∀ e ∈ es, e.2.asTable.isSome) :
    tomlServices es = .ok (servicesOf tomlRaw es) := by
  induction es with
  | nil => rfl
  | cons e es ih =>
    obtain ⟨name, t⟩ := e
    obtain ⟨htable, hrest⟩ := List.forall_mem_cons.1 h
    obtain ⟨m, hm⟩ := Option.isSome_iff_exists.1 htable
    simp only [tomlServices, hm, ih hrest, servicesOf, tomlRaw, List.filterMap_cons,
      Option.bind_some]
    cases (rawServerOfToml m).bind (RawServer.toHostService name) <;> rfl

/-- And only there. -/
theorem tables_of_tomlServices {es : List (String × Toml)} {found : List HostService}
    (h : tomlServices es = .ok found) : ∀ e ∈ es, e.2.asTable.isSome := by
  induction es generalizing found with
  | nil => exact List.forall_mem_nil _
  | cons e es ih =>
    obtain ⟨name, t⟩ := e
    rw [tomlServices] at h
    cases ht : t.asTable with
    | none => rw [ht] at h; cases h
    | some m =>
      rw [ht] at h
      cases hrest : tomlServices es with
      | error err => rw [hrest] at h; cases h
      | ok rest => exact List.forall_mem_cons.2 ⟨by rw [ht]; rfl, ih hrest⟩

/-- A scan finds the servers of one map, under distinct names. -/
structure FoundUnder (file : HostFile) (data : Text) (key : String)
    (found : List HostService) : Prop where
  nodup : (found.map HostService.name).Nodup
  mem : ∀ svc, svc ∈ found ↔ ∃ node, entryAt file data key svc.name = some node ∧
    node.raw.bind (RawServer.toHostService svc.name) = some svc

namespace View

variable {α : Type} (V : View α) {file : HostFile} {data : Text} {root : Option α} {key : String}

/-- What is found in a map. -/
theorem foundUnder {read : α → Option RawServer} (hread : ∀ v, (V.node v).raw = read v)
    (h : data.root file.format = root.map V.node) {m : OrderedMap String α}
    (hm : ((root.bind V.members).bind (OrderedMap.get · key)).bind V.members = some m) :
    FoundUnder file data key (servicesOf read m.entries) where
  nodup := (names_servicesOf m.entries).nodup m.nodup_keys
  mem svc := by
    simp only [mem_servicesOf, V.entryAt_eq h, hm, Option.bind_some, Option.map_eq_some_iff]
    constructor
    · rintro ⟨v, hv, hsvc⟩
      exact ⟨V.node v, ⟨v, hv, rfl⟩, by rw [hread]; exact hsvc⟩
    · rintro ⟨_, ⟨v, hv, rfl⟩, hsvc⟩
      rw [hread] at hsvc
      exact ⟨v, hv, hsvc⟩

/-- Where there is no map, there is nothing. -/
theorem foundUnder_nil (h : data.root file.format = root.map V.node)
    (hnone : ((root.bind V.members).bind (OrderedMap.get · key)).bind V.members = none) :
    FoundUnder file data key [] where
  nodup := List.nodup_nil
  mem svc := by simp [V.entryAt_eq h, hnone]

end View

theorem foundUnder_of_parseJson {file : HostFile} {data : Text} {key : String} {required : Bool}
    {found : List HostService} (hfmt : file.format = .json)
    (h : parseJsonServersUnderKey data file.path key required = .ok found) :
    FoundUnder file data key found := by
  have hview := root_json data hfmt
  unfold parseJsonServersUnderKey at h
  cases hroot : data.json with
  | none => rw [hroot] at h; cases h
  | some root =>
    rw [hroot] at h hview
    simp only at h
    cases hv : root.asObject.bind (OrderedMap.get · key) with
    | none =>
      rw [hv] at h
      simp only at h
      split_ifs at h
      obtain rfl := Except.ok.inj h
      exact jsonView.foundUnder_nil hview (congrArg (Option.bind · Value.asObject) hv)
    | some v =>
      rw [hv] at h
      simp only at h
      cases hm : v.asObject with
      | none => rw [hm] at h; cases h
      | some m =>
        rw [hm] at h
        obtain rfl := Except.ok.inj h
        exact jsonView.foundUnder (fun _ => rfl) hview
          ((congrArg (Option.bind · Value.asObject) hv).trans hm)

theorem foundUnder_of_parseToml {file : HostFile} {data : Text} {found : List HostService}
    (hfmt : file.format = .toml) (h : parseTomlMcpServers data file.path = .ok found) :
    FoundUnder file data "mcp_servers" found := by
  have hview := root_toml data hfmt
  unfold parseTomlMcpServers at h
  cases hroot : data.toml with
  | none => rw [hroot] at h; cases h
  | some root =>
    rw [hroot] at h hview
    simp only at h
    cases hm : (root.asTable.bind (OrderedMap.get · "mcp_servers")).bind Toml.asTable with
    | none =>
      rw [hm] at h
      obtain rfl := Except.ok.inj h
      exact tomlView.foundUnder_nil hview hm
    | some m =>
      rw [hm] at h
      have hall := tomlServices_of_tables (tables_of_tomlServices h)
      obtain rfl := Except.ok.inj (h.symm.trans hall)
      exact tomlView.foundUnder (fun _ => rfl) hview hm

/-- The scan of a JSON file of either schema. -/
def scanAuto (data : Text) (path : Path) : Except ScanError (List HostService) := do
  let primary ← parseJsonServersUnderKey data path "mcpServers" false
  if primary.isEmpty then parseJsonServersUnderKey data path "servers" false
  else return primary

/-- The second map is read only where the first parses and has no server. -/
theorem scanAuto_ok_iff {data : Text} {path : Path} {found : List HostService} :
    scanAuto data path = .ok found ↔
      (found ≠ [] ∧ parseJsonServersUnderKey data path "mcpServers" false = .ok found) ∨
        (parseJsonServersUnderKey data path "mcpServers" false = .ok [] ∧
          parseJsonServersUnderKey data path "servers" false = .ok found) := by
  unfold scanAuto
  cases parseJsonServersUnderKey data path "mcpServers" false with
  | error err =>
    constructor
    · intro h
      cases h
    · rintro (⟨-, h⟩ | ⟨h, -⟩)
      · cases h
      · cases h
  | ok primary =>
    cases primary with
    | nil =>
      constructor
      · exact fun h => .inr ⟨rfl, h⟩
      · rintro (⟨hne, h⟩ | ⟨-, h⟩)
        · exact absurd (Except.ok.inj h).symm hne
        · exact h
    | cons svc svcs =>
      constructor
      · intro h
        obtain rfl := Except.ok.inj h
        exact .inl ⟨List.cons_ne_nil _ _, rfl⟩
      · rintro (⟨-, h⟩ | ⟨h, -⟩)
        · exact h
        · cases h

/-- **What a scan finds**, for every format and schema: the servers of the map
under the scanned key. -/
theorem foundUnder_scannedKey {file : HostFile} {data : Text} {found : List HostService}
    (h : scanText data file = .ok found) : FoundUnder file data (scannedKey file data) found := by
  have hauto : file.format = .json → scanAuto data file.path = .ok found →
      FoundUnder file data
        (if parseJsonServersUnderKey data file.path "mcpServers" false = .ok [] then "servers"
        else "mcpServers") found := by
    intro hfmt h
    rcases scanAuto_ok_iff.1 h with ⟨hne, hparse⟩ | ⟨hnil, hparse⟩
    · rw [if_neg fun hnil => hne (Except.ok.inj (hparse.symm.trans hnil))]
      exact foundUnder_of_parseJson hfmt hparse
    · rw [if_pos hnil]
      exact foundUnder_of_parseJson hfmt hparse
  unfold scanText at h
  unfold scannedKey
  cases hfmt : file.format with
  | toml =>
    rw [hfmt] at h
    exact foundUnder_of_parseToml hfmt h
  | json =>
    rw [hfmt] at h
    cases hschema : file.schema with
    | mcpServersJson =>
      rw [hschema] at h
      exact foundUnder_of_parseJson hfmt h
    | serversJson =>
      rw [hschema] at h
      exact foundUnder_of_parseJson hfmt h
    | autoJson =>
      rw [hschema] at h
      exact hauto hfmt h
    | mcpServersToml =>
      rw [hschema] at h
      exact hauto hfmt h

/-- The scans of a list of sources are those that can be read and scanned. -/
theorem mem_scanAll {files : Files} {hosts : List HostFile} {scan : ScanResult} :
    scan ∈ scanAll files hosts ↔ scan.host ∈ hosts ∧ ∃ data, files scan.host.path = some data ∧
      scanText data scan.host = .ok scan.services := by
  simp only [scanAll, List.mem_filterMap]
  constructor
  · rintro ⟨host, hhost, hscan⟩
    -- a source that cannot be read or parsed is left out of the scans
    cases hread : files host.path with
    | none => simp [scanHostFile, hread, Except.toOption] at hscan
    | some data =>
      cases htext : scanText data host with
      | error err => simp [scanHostFile, hread, htext, Except.toOption, bind, Except.bind] at hscan
      | ok found =>
        have hfound : scanHostFile files host = .ok ⟨host, found⟩ := by
          rw [scanHostFile, hread]
          simp only [htext]
          rfl
        rw [hfound] at hscan
        obtain rfl := Option.some.inj hscan
        exact ⟨hhost, data, hread, htext⟩
  · rintro ⟨hhost, data, hread, htext⟩
    refine ⟨scan.host, hhost, ?_⟩
    rw [scanHostFile, hread]
    simp only [htext]
    rfl

/-! ## What a rewrite does -/

/-- The server a rewritten entry describes. -/
def proxied (socketDir proxyCmd : String) (args : List String) (svc : HostService) : RawServer where
  command := some proxyCmd
  args := some (proxyArgs args (socketOf socketDir svc))
  cwd := none
  socket := none
  env := svc.env
  enabled := none

/-- A list of strings reads back. -/
theorem mapM_map {α : Type} {decode : α → Option String} {encode : String → α}
    (h : ∀ s, decode (encode s) = some s) (ss : List String) :
    (ss.map encode).mapM decode = some ss := by
  induction ss with
  | nil => rfl
  | cons s ss ih =>
    rw [List.map_cons, List.mapM_cons, ih, h]
    rfl

/-- A map of strings reads back. -/
theorem stringMap_mapValues {α : Type} {decode : α → Option String} {encode : String → α}
    (h : ∀ s, decode (encode s) = some s) (env : Env) :
    stringMap decode (env.mapValues encode) = some env := by
  have hes : ∀ es : List (String × String),
      ((es.map fun e => (e.1, encode e.2)).mapM fun e : String × α =>
        (decode e.2).map fun s => (e.1, s)) = some es := by
    intro es
    induction es with
    | nil => rfl
    | cons e es ih =>
      rw [List.map_cons, List.mapM_cons, ih, h]
      rfl
  unfold stringMap OrderedMap.mapValues
  rw [hes, Option.map_some, OrderedMap.ofList_entries]

/-- **A rewritten JSON entry describes the proxy.** -/
theorem raw_jsonEntry (dir proxyCmd : String) (args : List String) (svc : HostService) :
    rawServerOfJson (jsonEntry dir proxyCmd args svc) = some (proxied dir proxyCmd args svc) := by
  have hstr : ∀ s, Value.asStr (.string s) = some s := fun _ => rfl
  have hargs := mapM_map hstr (proxyArgs args (socketOf dir svc))
  unfold jsonEntry
  cases henv : svc.env with
  | none =>
    simp [rawServerOfJson, rawServerOf, jsonField, jsonStrings, OrderedMap.get_insert_ne, hargs,
      proxied, henv, Value.asStr]
  | some env =>
    have hback := stringMap_mapValues hstr env
    simp [rawServerOfJson, rawServerOf, jsonField, jsonStrings, OrderedMap.get_insert_ne, hargs,
      proxied, henv, Value.asStr, jsonEnv, hback]

/-- **And a rewritten TOML entry does.** -/
theorem raw_tomlEntry (dir proxyCmd : String) (args : List String) (svc : HostService) :
    tomlRaw (tomlEntry dir proxyCmd args svc) = some (proxied dir proxyCmd args svc) := by
  have hstr : ∀ s, tomlString (.string s) = some s := fun _ => rfl
  have hargs := mapM_map hstr (proxyArgs args (socketOf dir svc))
  unfold tomlRaw tomlEntry
  cases henv : svc.env with
  | none =>
    simp [rawServerOfToml, tomlField, tomlStrings, OrderedMap.get_insert_ne, hargs, proxied, henv,
      tomlString]
  | some env =>
    have hback := stringMap_mapValues hstr env
    simp [rawServerOfToml, tomlField, tomlStrings, OrderedMap.get_insert_ne, hargs, proxied, henv,
      tomlString, tomlEnv, hback]

section RewriteMap

variable {α : Type} {entry : HostService → α} {services : List HostService}
  {existing : OrderedMap String α}

/-- Entries under other names stay. -/
theorem get_rewriteMap_of_notMem {name : String} (h : name ∉ services.map HostService.name) :
    (rewriteMap entry services existing).get name = existing.get name := by
  rw [rewriteMap, OrderedMap.get_insertAll_of_notMem h]
  refine Option.ext fun a => ?_
  rw [OrderedMap.get_filter]
  simp [h]

/-- And a service's name has its new entry. -/
theorem get_rewriteMap {svc : HostService} (hnodup : (services.map HostService.name).Nodup)
    (h : svc ∈ services) : (rewriteMap entry services existing).get svc.name = some (entry svc) :=
  OrderedMap.get_insertAll_of_nodup hnodup h

end RewriteMap

/-- **What a rewrite does to a file**: other top-level keys and other entries stay,
and each service's entry describes the proxy on its socket. -/
structure Rewritten (file : HostFile) (data : Text) (key : String) (services : List HostService)
    (proxyCmd : String) (args : List String) (dir : String) (data' : Text) : Prop where
  other : ∀ k, k ≠ key → top file data' k = top file data k
  kept : ∀ name, name ∉ services.map HostService.name →
    entryAt file data' key name = entryAt file data key name
  entry : ∀ svc ∈ services, ∃ node, entryAt file data' key svc.name = some node ∧
    node.raw = some (proxied dir proxyCmd args svc)

/-- **A file with a new map under a key is rewritten**, in either format. -/
theorem View.rewritten {α : Type} (V : View α) {file : HostFile} {data data' : Text}
    {services : List HostService} {proxyCmd dir : String} {args : List String}
    {entry : HostService → α}
    (hraw : ∀ svc, (V.node (entry svc)).raw = some (proxied dir proxyCmd args svc))
    (hnodup : (services.map HostService.name).Nodup) {root : α} {table : OrderedMap String α}
    (hroot : data.root file.format = (some root).map V.node)
    (htable : V.members root = some table) {key : String}
    (hroot' : data'.root file.format = (some (V.ofEntries (table.insert key
      (V.ofEntries (rewriteMap entry services
        (((table.get key).bind V.members).getD ∅)).entries)).entries)).map V.node) :
    Rewritten file data key services proxyCmd args dir data' := by
  refine ⟨fun k hk => ?_, fun name hname => ?_, fun svc hsvc => ?_⟩
  · rw [V.top_eq hroot', V.top_eq hroot]
    simp only [Option.bind_some, V.members_ofEntries, htable, OrderedMap.get_insert_ne hk]
  · -- without a map before, one without entries is rewritten
    rw [V.entryAt_eq hroot', V.entryAt_eq hroot]
    simp only [Option.bind_some, V.members_ofEntries, htable, OrderedMap.get_insert,
      get_rewriteMap_of_notMem hname]
    cases (table.get key).bind V.members <;> rfl
  · refine ⟨V.node (entry svc), ?_, hraw svc⟩
    rw [V.entryAt_eq hroot']
    simp only [Option.bind_some, V.members_ofEntries, OrderedMap.get_insert,
      get_rewriteMap hnodup hsvc, Option.map_some]

/-- A JSON file that is rewritten is an object. -/
theorem rewriteJson_ok {data data' : Text} {path : Path} {schema : ConfigSchema}
    {services : List HostService} {proxyCmd dir : String} {args lines : List String}
    (h : rewriteJsonKeepOtherKeys data path schema services proxyCmd args dir =
      .ok (data', lines)) :
    ∃ root obj, data.json = some root ∧ root.asObject = some obj ∧
      data' = .ofJson (.object (obj.insert (jsonKey schema obj)
        (.object (rewriteMap (jsonEntry dir proxyCmd args) services
          (((obj.get (jsonKey schema obj)).bind Value.asObject).getD ∅)).entries)).entries) := by
  unfold rewriteJsonKeepOtherKeys at h
  cases hroot : data.json with
  | none => rw [hroot] at h; cases h
  | some root =>
    rw [hroot] at h
    simp only at h
    cases hobj : root.asObject with
    | none => rw [hobj] at h; cases h
    | some obj =>
      rw [hobj] at h
      exact ⟨root, obj, rfl, hobj, (Prod.mk.inj (Except.ok.inj h)).1.symm⟩

/-- A TOML file that is rewritten is a table. -/
theorem rewriteToml_ok {data data' : Text} {path : Path} {services : List HostService}
    {proxyCmd dir : String} {args lines : List String}
    (h : rewriteTomlKeepOtherTables data path services proxyCmd args dir = .ok (data', lines)) :
    ∃ root table, data.toml = some root ∧ root.asTable = some table ∧
      data' = .ofToml (.table (table.insert "mcp_servers"
        (.table (rewriteMap (tomlEntry dir proxyCmd args) services
          (((table.get "mcp_servers").bind Toml.asTable).getD ∅)).entries)).entries) := by
  unfold rewriteTomlKeepOtherTables at h
  cases hroot : data.toml with
  | none => rw [hroot] at h; cases h
  | some root =>
    rw [hroot] at h
    simp only at h
    cases htable : root.asTable with
    | none => rw [htable] at h; cases h
    | some table =>
      rw [htable] at h
      exact ⟨root, table, rfl, htable, (Prod.mk.inj (Except.ok.inj h)).1.symm⟩

/-- **The rewrite of a file that has an entry succeeds**, for either format. -/
theorem rewriteText_spec {file : HostFile} {data : Text} {services : List HostService}
    {proxyCmd dir : String} {args : List String} {key name : String} {node : Node}
    (hnodup : (services.map HostService.name).Nodup)
    (hentry : entryAt file data key name = some node) :
    ∃ data', rewriteText data file services proxyCmd args dir =
        .ok (data', services.map (changeLine proxyCmd)) ∧
      Rewritten file data (rewrittenKey file data) services proxyCmd args dir data' := by
  unfold rewriteText rewrittenKey
  cases hfmt : file.format with
  | json =>
    have hview := root_json data hfmt
    simp only [jsonView.entryAt_eq hview, Option.map_eq_some_iff, Option.bind_eq_some_iff] at hentry
    obtain ⟨_, ⟨_, ⟨_, ⟨obj, ⟨root, hroot, hobj⟩, -⟩, -⟩, -⟩, -⟩ := hentry
    rw [hroot] at hview
    have hobj' : root.asObject = some obj := hobj
    simp only [rewriteJsonKeepOtherKeys, hroot, hobj', Option.bind_some, Option.getD_some]
    exact ⟨_, rfl, jsonView.rewritten (raw_jsonEntry dir proxyCmd args) hnodup hview hobj
      (root_json _ hfmt)⟩
  | toml =>
    have hview := root_toml data hfmt
    simp only [tomlView.entryAt_eq hview, Option.map_eq_some_iff, Option.bind_eq_some_iff] at hentry
    obtain ⟨_, ⟨_, ⟨_, ⟨table, ⟨root, hroot, htable⟩, -⟩, -⟩, -⟩, -⟩ := hentry
    rw [hroot] at hview
    have htable' : root.asTable = some table := htable
    simp only [rewriteTomlKeepOtherTables, hroot, htable']
    exact ⟨_, rfl, tomlView.rewritten (raw_tomlEntry dir proxyCmd args) hnodup hview htable
      (root_toml _ hfmt)⟩

end Config

end VcOperator
