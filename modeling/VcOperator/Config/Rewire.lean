import VcOperator.Config.BakFile
import VcOperator.Config.Helpers.Snippets
import VcOperator.Config.Rerun
import VcOperator.Control.Model.Verify
import VcOperator.Wizard.Model.Keys
/-!
# What a rewire leaves

`rewire_host` puts a map of proxies under one key of a host's file, chosen by the
kind of the host, and the scan reads a key that is chosen by the schema. Where these
are two, the rewire is not seen by the next scan; and where they are one, the map
that was there is replaced as a whole, with what the scan did not recognise.
-/

namespace VcOperator

namespace Config

variable {host : HostFile} {data data' : Text} {services : List HostService}
  {dir proxyCmd : String} {args : List String}

/-! ## The text that is written -/

/-- A JSON file with a snippet. -/
theorem mergeSnippet_json {m : OrderedMap String Value} (hfmt : host.format = .json)
    (h : mergeSnippet data host (.object [("mcpServers", .object m.entries)]) = .ok data') :
    ∃ root obj, data.json = some root ∧ root.asObject = some obj ∧
      data' = .ofJson (.object (obj.insert (targetKey host) (.object m.entries)).entries) := by
  rw [mergeSnippet, hfmt] at h
  cases hroot : data.json with
  | none => rw [hroot] at h; cases h
  | some root =>
    rw [hroot] at h
    simp only at h
    cases hobj : root.asObject with
    | none => rw [hobj] at h; cases h
    | some obj =>
      rw [hobj] at h
      exact ⟨root, obj, rfl, hobj, (Except.ok.inj h).symm⟩

/-- A TOML file with a snippet. -/
theorem mergeSnippet_toml {m : OrderedMap String Value} (htakes : Toml.Takes m)
    (hfmt : host.format = .toml)
    (h : mergeSnippet data host (.object [("mcpServers", .object m.entries)]) = .ok data') :
    ∃ (root : Toml) (table m' : OrderedMap String Toml), data.toml = some root ∧
      root.asTable = some table ∧ Toml.ofMembers m.entries = some m'.entries ∧
      (∀ k, m'.get k = (m.get k).bind Toml.ofValue) ∧
      data' = .ofToml (.table (table.insert (targetKey host) (.table m'.entries)).entries) := by
  obtain ⟨m', hm', hget⟩ := htakes.ofMembers
  have hsnippet : Toml.ofValue (.object [("mcpServers", .object m.entries)]) =
      some (.table [("mcpServers", .table m'.entries)]) := by
    simp [Toml.ofValue, Toml.ofMembers, hm']
  have hmcp : (Toml.table [("mcpServers", .table m'.entries)]).get "mcpServers" =
      some (.table m'.entries) := by
    simp [Toml.get, Toml.asTable, OrderedMap.ofList, OrderedMap.insertAll]
  rw [mergeSnippet, hfmt] at h
  simp only [hsnippet, hmcp, Option.getD_some] at h
  cases hroot : data.toml with
  | none => rw [hroot] at h; cases h
  | some root =>
    rw [hroot] at h
    simp only at h
    cases htable : root.asTable with
    | none => rw [htable] at h; cases h
    | some table =>
      rw [htable] at h
      exact ⟨root, table, m', rfl, htable, hm', hget, (Except.ok.inj h).symm⟩

/-- What `rewire_host` writes into a file that it can scan. -/
theorem rewiredText_eq {files : Files} (hread : files host.path = some data)
    (hscan : scanText data host = .ok services) :
    rewiredText files host dir proxyCmd args = mergeSnippet data host (.object
      [("mcpServers", .object (snippetServers [⟨host, services⟩] dir proxyCmd args).entries)]) := by
  have hfile : scanHostFile files host = .ok ⟨host, services⟩ := by
    rw [scanHostFile, hread]
    simp only [hscan]
    rfl
  have hget : (generateSnippet [⟨host, services⟩] dir proxyCmd args).get host.kind =
      some (.object [("mcpServers",
        .object (snippetServers [⟨host, services⟩] dir proxyCmd args).entries)]) := by
    rw [generateSnippet, HashMap.get_fill]
    simp
  simp only [rewiredText, hfile, hget, hread]

/-- The scan of a host reads the key that its rewire writes. -/
def ScansTarget (host : HostFile) : Prop :=
  match host.format with
  | .json => host.schema ≠ .serversJson
  | .toml => host.kind = .codex

instance (host : HostFile) : Decidable (ScansTarget host) := by
  unfold ScansTarget
  split <;> infer_instance

/-- A JSON file with a map of proxies is scanned as the proxies. -/
theorem scan_mergeJson {root : Value} {obj m : OrderedMap String Value}
    (hfmt : host.format = .json) (hschema : host.schema ≠ .serversJson)
    (hroot : data.json = some root) (hobj : root.asObject = some obj)
    (hscan : scanText data host = .ok services)
    (hproxied : AllProxied proxyCmd services (jsonServices m)) :
    ∃ found, scanText (.ofJson (.object (obj.insert "mcpServers" (.object m.entries)).entries))
      host = .ok found ∧ AllProxied proxyCmd services found := by
  have hparse := fun required => parseJson_insert obj m "mcpServers" host.path required
  have hauto : scanAuto data host.path = .ok services →
      scanAuto (.ofJson (.object (obj.insert "mcpServers" (.object m.entries)).entries))
        host.path = .ok (jsonServices m) := by
    intro hscan
    by_cases hm : jsonServices m = []
    · -- nothing is found, and the map under `servers` is read before and after
      have hnone : services = [] := by
        rw [hm] at hproxied
        cases services with
        | nil => rfl
        | cons svc svcs => exact absurd ((hproxied.names svc.name).2 List.mem_cons_self) nofun
      rw [hnone] at hscan
      rcases scanAuto_ok_iff.1 hscan with ⟨hne, -⟩ | ⟨-, hservers⟩
      · exact absurd rfl hne
      · rw [hm]
        refine scanAuto_ok_iff.2 (.inr ⟨by rw [hparse, hm], ?_⟩)
        exact (parseJson_insert_ne hroot hobj (by decide) _ _).trans hservers
    · exact scanAuto_ok_iff.2 (.inl ⟨hm, hparse false⟩)
  refine ⟨jsonServices m, ?_, hproxied⟩
  rw [scanText, hfmt] at hscan ⊢
  cases hschema' : host.schema with
  | mcpServersJson => exact hparse true
  | serversJson => exact absurd hschema' hschema
  | autoJson =>
    rw [hschema'] at hscan
    exact hauto hscan
  | mcpServersToml =>
    rw [hschema'] at hscan
    exact hauto hscan

/-- And so is a TOML file: the scan takes tables only, and the entries of the proxies are tables. -/
theorem scan_mergeToml (hfmt : host.format = .toml) (table : OrderedMap String Toml)
    {m : OrderedMap String Toml} (hnone : ∀ name ∉ services.map HostService.name, m.get name = none)
    (hentry : ∀ svc ∈ services, ∃ t, m.get svc.name = some t ∧
      tomlRaw t = some (snippeted dir proxyCmd args svc)) :
    ∃ found, scanText (.ofToml (.table (table.insert "mcp_servers" (.table m.entries)).entries))
      host = .ok found ∧ AllProxied proxyCmd services found := by
  have htables : ∀ e ∈ m.entries, e.2.asTable.isSome := by
    intro e he
    have hmem := OrderedMap.get_eq_some_iff.2 he
    by_cases hname : e.1 ∈ services.map HostService.name
    · obtain ⟨svc, hsvc, hn⟩ := List.mem_map.1 hname
      obtain ⟨t, ht, hraw⟩ := hentry svc hsvc
      rw [← hn, ht] at hmem
      obtain ⟨m, hm, -⟩ := Option.bind_eq_some_iff.1 hraw
      rw [← Option.some.inj hmem, hm]
      rfl
    · rw [hnone _ hname] at hmem
      cases hmem
  exact ⟨_, scanToml_insert hfmt table htables, allProxied_servicesOf hnone hentry⟩

/-- **The next scan finds the proxies** where it reads what was written. -/
theorem scan_of_scansTarget (hreach : ScansTarget host) (hscan : scanText data host = .ok services)
    (h : mergeSnippet data host (.object [("mcpServers",
      .object (snippetServers [⟨host, services⟩] dir proxyCmd args).entries)]) = .ok data') :
    ∃ found, scanText data' host = .ok found ∧ AllProxied proxyCmd services found := by
  have hnodup := (foundUnder_scannedKey hscan).nodup
  have hnone : ∀ name ∉ services.map HostService.name,
      (snippetServers [⟨host, services⟩] dir proxyCmd args).get name = none := fun name hname =>
    get_snippetServers_of_notMem hnodup hname
  have hentry : ∀ svc ∈ services,
      (snippetServers [⟨host, services⟩] dir proxyCmd args).get svc.name =
        some (snippetEntry dir proxyCmd args svc) := fun svc hsvc =>
    get_snippetServers hnodup hsvc
  unfold ScansTarget at hreach
  cases hfmt : host.format with
  | json =>
    obtain ⟨root, obj, hroot, hobj, rfl⟩ := mergeSnippet_json hfmt h
    have hkey : targetKey host = "mcpServers" := by rw [targetKey, hfmt]
    rw [hfmt] at hreach
    rw [hkey]
    exact scan_mergeJson hfmt hreach hroot hobj hscan
      (allProxied_servicesOf hnone fun svc hsvc => ⟨_, hentry svc hsvc, raw_snippetEntry⟩)
  | toml =>
    obtain ⟨root, table, m', hroot, htable, -, hget, rfl⟩ :=
      mergeSnippet_toml (takes_snippetServers hnodup) hfmt h
    rw [hfmt] at hreach
    have hkey : targetKey host = "mcp_servers" := by
      rw [targetKey, hfmt]
      exact if_pos hreach
    rw [hkey]
    have hnone' : ∀ name ∉ services.map HostService.name, m'.get name = none := by
      intro name hname
      rw [hget, hnone name hname, Option.bind_none]
    have hentry' : ∀ svc ∈ services, ∃ t, m'.get svc.name = some t ∧
        tomlRaw t = some (snippeted dir proxyCmd args svc) := by
      intro svc hsvc
      obtain ⟨t, ht, hraw⟩ := @ofValue_snippetEntry dir proxyCmd args svc
      exact ⟨t, by rw [hget, hentry svc hsvc, Option.bind_some, ht], hraw⟩
    exact scan_mergeToml hfmt table hnone' hentry'

/-- **The next scan finds what it found before** where it reads another key. -/
theorem scan_of_not_scansTarget (hreach : ¬ ScansTarget host)
    (hscan : scanText data host = .ok services)
    (h : mergeSnippet data host (.object [("mcpServers",
      .object (snippetServers [⟨host, services⟩] dir proxyCmd args).entries)]) = .ok data') :
    scanText data' host = .ok services := by
  have hnodup := (foundUnder_scannedKey hscan).nodup
  rw [← hscan]
  unfold ScansTarget at hreach
  cases hfmt : host.format with
  | json =>
    obtain ⟨root, obj, hroot, hobj, rfl⟩ := mergeSnippet_json hfmt h
    rw [hfmt, not_not] at hreach
    have hkey : targetKey host = "mcpServers" := by rw [targetKey, hfmt]
    simp only [scanText, hfmt, hreach, hkey]
    exact parseJson_insert_ne hroot hobj (by decide) _ _
  | toml =>
    obtain ⟨root, table, m', hroot, htable, -, -, rfl⟩ :=
      mergeSnippet_toml (takes_snippetServers hnodup) hfmt h
    rw [hfmt] at hreach
    have hkey : targetKey host = "mcpServers" := by
      rw [targetKey, hfmt]
      exact if_neg hreach
    have hother : "mcp_servers" ≠ "mcpServers" := by decide
    simp [scanText, hfmt, parseTomlMcpServers, Text.ofToml, hroot, htable, hkey,
      OrderedMap.get_insert_ne hother]

/-! ## On the disk -/

section OnDisk

variable {files : Files} {disk : Disk Text} {w : Weather Text} {scan : ScanResult}
  {outcome : RewireOutcome}

theorem scanHostFile_ok_iff : scanHostFile files host = .ok scan ↔
    scan.host = host ∧ ∃ data, files host.path = some data ∧
      scanText data host = .ok scan.services := by
  unfold scanHostFile
  cases files host.path with
  | none => exact ⟨nofun, fun ⟨_, _, hread, _⟩ => nomatch hread⟩
  | some data =>
    simp only [Option.some.injEq, exists_eq_left']
    cases hscan : scanText data host with
    | error err => exact ⟨nofun, fun ⟨_, h⟩ => nomatch h⟩
    | ok services =>
      constructor
      · intro h
        obtain rfl := Except.ok.inj h
        exact ⟨rfl, rfl⟩
      · rintro ⟨rfl, h⟩
        obtain rfl := Except.ok.inj h
        rfl

/-- **After a rewire** the file holds what was merged. -/
theorem read_rewireHost (hread : Disk.files disk host.path = some data)
    (hscan : scanText data host = .ok services)
    (h : (rewireHost disk host dir proxyCmd args false w).2 = .ok outcome) :
    ∃ data', mergeSnippet data host (.object [("mcpServers",
        .object (snippetServers [⟨host, services⟩] dir proxyCmd args).entries)]) = .ok data' ∧
      Disk.files (rewireHost disk host dir proxyCmd args false w).1 host.path = some data' := by
  have hname : host.path.fileName.isSome := by
    unfold Disk.files at hread
    split at hread
    · rename_i hname _
      rw [hname]
      rfl
    · cases hread
  unfold rewireHost at h ⊢
  rw [rewiredText_eq hread hscan] at h ⊢
  generalize hmerge : mergeSnippet data host _ = merged at h ⊢
  cases merged with
  | error err => cases h
  | ok data' =>
    refine ⟨data', rfl, ?_⟩
    simp only at h ⊢
    generalize hwrite : writeWithBackup Text.nothing disk host.path data' false w = done at h ⊢
    obtain ⟨disk', result⟩ := done
    cases result with
    | error err => cases h
    | ok backup =>
      obtain ⟨name, hname⟩ := Option.isSome_iff_exists.1 hname
      have hfile := (writeWithBackup_of_ok hwrite).2.1
      simp [Disk.files, hname, hfile]

/-- **A rewire takes effect**: the next scan finds the services under their names, each of them
the proxy, and the status command reports every one as rewired. -/
structure TakesEffect (files : Files) (host : HostFile) (proxyCmd : String)
    (before : List HostService) : Prop where
  scan : ∃ scan, scanHostFile files host = .ok scan ∧ AllProxied proxyCmd before scan.services
  status : ∃ report, runStatusCmd files host proxyCmd = .ok report ∧ ∀ line ∈ report, line.2 = true

theorem takesEffect_of_allProxied {found : List HostService}
    (hread : files host.path = some data) (hscan : scanText data host = .ok found)
    (h : AllProxied proxyCmd services found) : TakesEffect files host proxyCmd services := by
  have hfile : scanHostFile files host = .ok ⟨host, found⟩ :=
    scanHostFile_ok_iff.2 ⟨rfl, data, hread, hscan⟩
  refine ⟨⟨_, hfile, h⟩, _, by rw [runStatusCmd, hfile]; rfl, fun line hline => ?_⟩
  obtain ⟨svc, hsvc, rfl⟩ := List.mem_map.1 hline
  exact decide_eq_true (h.command svc hsvc)

/-- **A rewire takes effect exactly where the scan reads what it writes**, or where every
service runs the proxy before it. -/
theorem takesEffect_iff (hscan : scanHostFile (Disk.files disk) host = .ok scan)
    (h : (rewireHost disk host dir proxyCmd args false w).2 = .ok outcome) :
    TakesEffect (Disk.files (rewireHost disk host dir proxyCmd args false w).1) host proxyCmd
      scan.services ↔ ScansTarget host ∨ ∀ svc ∈ scan.services, svc.command = proxyCmd := by
  obtain ⟨-, data, hread, hscan⟩ := scanHostFile_ok_iff.1 hscan
  obtain ⟨data', hmerge, hread'⟩ := read_rewireHost hread hscan h
  by_cases hreach : ScansTarget host
  · obtain ⟨found, hfound, hproxied⟩ := scan_of_scansTarget hreach hscan hmerge
    exact ⟨fun _ => .inl hreach, fun _ => takesEffect_of_allProxied hread' hfound hproxied⟩
  · have hagain := scan_of_not_scansTarget hreach hscan hmerge
    constructor
    · intro heffect
      obtain ⟨scan', hscan', hproxied⟩ := heffect.scan
      obtain ⟨-, data'', hread'', hfound⟩ := scanHostFile_ok_iff.1 hscan'
      obtain rfl := Option.some.inj (hread'.symm.trans hread'')
      rw [Except.ok.inj (hagain.symm.trans hfound)]
      exact .inr hproxied.command
    · intro hcond
      exact takesEffect_of_allProxied hread' hagain ⟨fun _ => Iff.rfl, hcond.resolve_left hreach⟩

end OnDisk

/-! ## The hosts of the command line -/

/-- Every well-known source is scanned where it is written. -/
theorem scansTarget_defaultSources (home : String) :
    ∀ host ∈ Control.defaultSources home, ScansTarget host := by
  intro host hhost
  simp only [Control.defaultSources, List.mem_cons, List.not_mem_nil, or_false] at hhost
  rcases hhost with rfl | rfl | rfl | rfl | rfl | rfl | rfl | rfl | rfl | rfl | rfl | rfl <;>
    simp [ScansTarget, Control.source]

/-- **Of the paths of the user's own, those of TOML files are not.** -/
theorem scansTarget_custom_iff (path : Path) :
    ScansTarget (Wizard.hostFileFromCustomPath path) ↔
      (Wizard.hostFileFromCustomPath path).format = .json := by
  unfold ScansTarget Wizard.hostFileFromCustomPath
  cases (path.fileName.bind extension).any fun ext => ext.toList.map Char.toLower = "toml".toList
  · simp
  · simp

/-! ## Examples -/

/-- A disk with a host's file, in which one key has one entry. -/
def oneEntryDisk (host : HostFile) (key : String) (entry : String × Value) : Disk Text := fun p =>
  let root := Value.object [(key, .object [entry])]
  if p = host.path then
    some (.file (match host.format with
      | .json => .ofJson root
      | .toml => ⟨none, Toml.ofValue root⟩))
  else none

/-- The disk after a rewire for which nothing fails. -/
def rewiredDisk (host : HostFile) (disk : Disk Text) : Disk Text :=
  (rewireHost disk host "/mux/sockets" "rust-mux-proxy" [] false ⟨5, true, .done, .done⟩).1

/-- Codex' file. -/
def codexHost : HostFile :=
  { sampleHost .codex "config.toml" with format := .toml, schema := .mcpServersToml }

/-- A TOML file of the user's own. -/
def customToml : HostFile := Wizard.hostFileFromCustomPath ⟨"/home/u", some "mcp.toml"⟩

/-- A file with `memory` in it, under the key of TOML files. -/
def memoryDisk (host : HostFile) : Disk Text :=
  oneEntryDisk host "mcp_servers" ("memory", .object [("command", .string "npx")])

/-- Codex' file is rewired. -/
theorem takesEffect_codex : TakesEffect (Disk.files (rewiredDisk codexHost (memoryDisk codexHost)))
    codexHost "rust-mux-proxy" [sampleService "memory" "npx"] := by
  have hscan : scanHostFile (Disk.files (memoryDisk codexHost)) codexHost =
      .ok ⟨codexHost, [sampleService "memory" "npx"]⟩ :=
    scanHostFile_ok_iff.2 ⟨rfl, _, rfl, by decide +kernel⟩
  have hrewire : (rewireHost (memoryDisk codexHost) codexHost "/mux/sockets" "rust-mux-proxy" []
      false ⟨5, true, .done, .done⟩).2 =
        .ok ⟨codexHost.path, some ⟨"/home/u", some "config.bak"⟩, true⟩ := by
    decide +kernel
  exact (takesEffect_iff hscan hrewire).2 (.inl rfl)

/-- **A TOML file of the user's own is not**: the proxies are under `mcpServers`, and `mcp_servers`
is as it was. -/
theorem not_takesEffect_customToml : ¬ ∀ (disk : Disk Text) (host : HostFile)
    (dir proxyCmd : String) (args : List String) (w : Weather Text) (scan : ScanResult)
    (outcome : RewireOutcome), scanHostFile (Disk.files disk) host = .ok scan →
      (rewireHost disk host dir proxyCmd args false w).2 = .ok outcome →
      TakesEffect (Disk.files (rewireHost disk host dir proxyCmd args false w).1) host proxyCmd
        scan.services := by
  intro h
  have hscan : scanHostFile (Disk.files (memoryDisk customToml)) customToml =
      .ok ⟨customToml, [sampleService "memory" "npx"]⟩ :=
    scanHostFile_ok_iff.2 ⟨rfl, _, rfl, by decide +kernel⟩
  have hrewire : (rewireHost (memoryDisk customToml) customToml "/mux/sockets" "rust-mux-proxy" []
      false ⟨5, true, .done, .done⟩).2 =
        .ok ⟨customToml.path, some ⟨"/home/u", some "mcp.bak"⟩, true⟩ := by
    decide +kernel
  obtain ⟨report, hreport, hall⟩ := (h _ _ _ _ _ _ _ _ hscan hrewire).status
  have hnot : runStatusCmd (Disk.files (rewiredDisk customToml (memoryDisk customToml))) customToml
      "rust-mux-proxy" = .ok [(sampleService "memory" "npx", false)] := by
    decide +kernel
  obtain rfl := Except.ok.inj (hreport.symm.trans hnot)
  exact absurd (hall _ List.mem_cons_self) (by decide)

end Config

end VcOperator
