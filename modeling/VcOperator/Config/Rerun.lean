import VcOperator.Config.Agreement
import VcOperator.Config.Backup
import VcOperator.Config.Helpers.Entries
/-!
# The wizard after a rewrite

A rewritten entry is an MCP server like any other: its command is the proxy.
The next scan finds it, and the daemon config generated from that scan has
a server that runs the proxy on a socket of the mux itself. Nothing in
between tells a proxy from an upstream server.
-/

namespace VcOperator

namespace Config

/-! ## The two runs -/

/-- `selected_danger_scans`: the services selected of those found, in the eligible
files. -/
def selectedDangerScans (files : Files) (hosts : List HostFile)
    (selected : HostFile → HostService → Bool) : List ScanResult :=
  ((scanAll files hosts).map fun scan =>
    { scan with services := scan.services.filter (selected scan.host) }).filter
      (·.host.eligibleForDanger)

/-- A danger rewrite, confirmed: the disk it starts from, the sources, what is
selected, and what the system does to each action. -/
structure Rewire where
  disk : Disk Text
  hosts : List HostFile
  selected : HostFile → HostService → Bool
  proxyCmd : String
  args : List String
  dir : String
  weather : ℕ → Weather Text

namespace Rewire

/-- The scans it plans on. -/
def scans (r : Rewire) : List ScanResult :=
  selectedDangerScans (Disk.files r.disk) r.hosts r.selected

/-- Its plan. -/
def plan (r : Rewire) : DangerPlan Text :=
  planDangerRewriteForScans (Disk.files r.disk) r.scans r.proxyCmd r.args r.dir

/-- Every planned file was written. -/
def Done (r : Rewire) : Prop :=
  ∀ m ∈ moments r.disk r.plan.actions r.weather, m.action.status = .planned →
    m.outcome.written = true

/-- The disk it leaves. -/
def after (r : Rewire) : Disk Text := (executePlan r.disk r.plan true r.weather).1

/-- The services the next run of the wizard generates from, when the operator changes
none of its ticks. -/
def nextServices (r : Rewire) (env : Surroundings) : List HostService :=
  (buildMergeFromServices (advanceToStep2 (scanAll (Disk.files r.after) r.hosts) env)).services

/-- The daemon config of the next run. -/
def nextDaemon (r : Rewire) (env : Surroundings) : DaemonConfig :=
  buildDaemonConfig (r.nextServices env) r.dir

/-- **The daemon is not pointed at itself** by the next run. -/
structure NotSelfPointing (r : Rewire) (env : Surroundings) : Prop where
  /-- No server runs the proxy on a socket. -/
  noProxy : ∀ name cfg, (r.nextDaemon env).servers.get name = some cfg →
    cfg.cmd = some r.proxyCmd → ∀ socket, cfg.args ≠ some (proxyArgs r.args socket)
  /-- A rewritten service has the command it had, or is left out. -/
  upstream : ∀ scan ∈ r.scans, ∀ svc ∈ scan.services, ∀ cfg,
    (r.nextDaemon env).servers.get svc.name = some cfg → cfg.cmd = some svc.command

/-- **There is no proxy to be found**: no service of an eligible file is selected, so
that nothing is rewritten, and no entry found launches the proxy already. -/
structure NoProxies (r : Rewire) : Prop where
  noneSelected : ∀ scan ∈ r.scans, scan.services = []
  noneThere : ∀ scan ∈ scanAll (Disk.files r.disk) r.hosts, ∀ svc ∈ scan.services,
    svc.command = r.proxyCmd → ∀ socket, svc.args ≠ proxyArgs r.args socket

end Rewire

/-! ## What the wizard generates -/

/-- The default server does not launch the proxy on a socket. -/
theorem args_discoverVibecraftedMcp {root : String} {devProject pipInstalled : Bool}
    {discovered : DiscoveredMcp}
    (h : discoverVibecraftedMcp root devProject pipInstalled = some discovered)
    (args : List String) (socket : String) : discovered.args ≠ proxyArgs args socket := by
  unfold discoverVibecraftedMcp at h
  split_ifs at h
  · obtain rfl := Option.some.inj h
    intro heq
    -- of two arguments both would be what the proxy adds, and the first is not `--socket`
    have hlast := congrArg (List.drop args.length) heq
    rw [proxyArgs, List.drop_left] at hlast
    have hlen := congrArg List.length heq
    simp only [proxyArgs, List.length_append, List.length_cons, List.length_nil] at hlen
    rw [show args.length = 0 by omega, List.drop_zero] at hlast
    exact absurd (List.cons.inj hlast).1 (by decide)
  · obtain rfl := Option.some.inj h
    intro heq
    have hlen := congrArg List.length heq
    simp only [proxyArgs, List.length_append, List.length_cons, List.length_nil] at hlen
    omega

/-! ## The second scan -/

/-- What the next scan finds of a rewritten service. -/
def rescanned (dir proxyCmd : String) (args : List String) (svc : HostService) : HostService where
  name := svc.name
  command := proxyCmd
  args := proxyArgs args (socketOf dir svc)
  cwd := none
  socket := none
  env := svc.env
  enabled := none

theorem toHostService_proxied (dir proxyCmd : String) (args : List String) (svc : HostService) :
    (proxied dir proxyCmd args svc).toHostService svc.name =
      some (rescanned dir proxyCmd args svc) := rfl

/-- A rewritten map has every rewritten service. -/
theorem rescanned_mem_servicesOf {α : Type} {read : α → Option RawServer}
    {entry : HostService → α} {services : List HostService} {dir proxyCmd : String}
    {args : List String} {existing : OrderedMap String α}
    (hread : ∀ svc, read (entry svc) = some (proxied dir proxyCmd args svc))
    (hnodup : (services.map HostService.name).Nodup) {svc : HostService} (h : svc ∈ services) :
    rescanned dir proxyCmd args svc ∈
      servicesOf read (rewriteMap entry services existing).entries := by
  refine mem_servicesOf.2 ⟨entry svc, get_rewriteMap hnodup h, ?_⟩
  rw [hread, Option.bind_some]
  exact toHostService_proxied dir proxyCmd args svc

/-- A map put under the key of a document is what is parsed under it. -/
theorem parseJson_insert (obj m : OrderedMap String Value) (key : String) (path : Path)
    (required : Bool) :
    parseJsonServersUnderKey (.ofJson (.object (obj.insert key (.object m.entries)).entries)) path
      key required = .ok (jsonServices m) := by
  simp [parseJsonServersUnderKey, Text.ofJson]

/-- What is parsed under another key is what was there. -/
theorem parseJson_insert_ne {data : Text} {root v : Value} {obj : OrderedMap String Value}
    {key k : String} (hroot : data.json = some root) (hobj : root.asObject = some obj)
    (hk : k ≠ key) (path : Path) (required : Bool) :
    parseJsonServersUnderKey (.ofJson (.object (obj.insert key v).entries)) path k required =
      parseJsonServersUnderKey data path k required := by
  simp [parseJsonServersUnderKey, Text.ofJson, hroot, hobj, OrderedMap.get_insert_ne hk]

/-- **The map a JSON rewrite changes is the map the next scan reads**, if there is a
server in it. -/
theorem scanText_insert {file : HostFile} (hfmt : file.format = .json)
    (obj : OrderedMap String Value) {m : OrderedMap String Value} (hne : jsonServices m ≠ []) :
    scanText (.ofJson (.object (obj.insert (jsonKey file.schema obj) (.object m.entries)).entries))
      file = .ok (jsonServices m) := by
  have hprimary : ∀ {data : Text},
      parseJsonServersUnderKey data file.path "mcpServers" false = .ok (jsonServices m) →
      scanAuto data file.path = .ok (jsonServices m) := fun h => scanAuto_ok_iff.2 (.inl ⟨hne, h⟩)
  unfold scanText
  rw [hfmt]
  cases hschema : file.schema with
  | mcpServersJson => exact parseJson_insert obj m _ _ _
  | serversJson => exact parseJson_insert obj m _ _ _
  | mcpServersToml => exact hprimary (parseJson_insert obj m _ _ _)
  | autoJson =>
    by_cases hmcp : (obj.get "mcpServers").isSome
    · simp only [jsonKey, if_pos hmcp]
      exact hprimary (parseJson_insert obj m _ _ _)
    by_cases hservers : (obj.get "servers").isSome
    · -- no `mcpServers` before, and none after
      simp only [jsonKey, if_neg hmcp, if_pos hservers]
      have hnone : parseJsonServersUnderKey
          (.ofJson (.object (obj.insert "servers" (.object m.entries)).entries)) file.path
          "mcpServers" false = .ok [] := by
        rw [Option.not_isSome_iff_eq_none] at hmcp
        simp [parseJsonServersUnderKey, Text.ofJson, OrderedMap.get_insert_ne, hmcp]
      rw [hnone]
      exact parseJson_insert obj m _ _ _
    · simp only [jsonKey, if_neg hmcp, if_neg hservers]
      exact hprimary (parseJson_insert obj m _ _ _)

theorem scan_rewriteJson {file : HostFile} {data data' : Text} {services : List HostService}
    {dir proxyCmd : String} {args lines : List String} (hfmt : file.format = .json)
    (hnodup : (services.map HostService.name).Nodup) (hne : services ≠ [])
    (h : rewriteJsonKeepOtherKeys data file.path file.schema services proxyCmd args dir =
      .ok (data', lines)) :
    ∃ found, scanText data' file = .ok found ∧
      ∀ svc ∈ services, rescanned dir proxyCmd args svc ∈ found := by
  obtain ⟨_, obj, -, -, rfl⟩ := rewriteJson_ok h
  have hfound : ∀ svc ∈ services, rescanned dir proxyCmd args svc ∈
      jsonServices (rewriteMap (jsonEntry dir proxyCmd args) services
        (((obj.get (jsonKey file.schema obj)).bind Value.asObject).getD ∅)) :=
    fun svc hsvc => rescanned_mem_servicesOf (raw_jsonEntry dir proxyCmd args) hnodup hsvc
  obtain ⟨svc, hsvc⟩ := List.exists_mem_of_ne_nil services hne
  exact ⟨_, scanText_insert hfmt obj (List.ne_nil_of_mem (hfound svc hsvc)), hfound⟩

/-- What is parsed is what is in `[mcp_servers]`, and its entries are tables. -/
theorem parseToml_ok {data : Text} {path : Path} {root : Toml} {table : OrderedMap String Toml}
    {found : List HostService} (hroot : data.toml = some root) (htable : root.asTable = some table)
    (h : parseTomlMcpServers data path = .ok found) :
    (∀ e ∈ (((table.get "mcp_servers").bind Toml.asTable).getD ∅).entries, e.2.asTable.isSome) ∧
      found =
        servicesOf tomlRaw (((table.get "mcp_servers").bind Toml.asTable).getD ∅).entries := by
  unfold parseTomlMcpServers at h
  rw [hroot] at h
  simp only [htable, Option.bind_some] at h
  cases hm : (table.get "mcp_servers").bind Toml.asTable with
  | none =>
    rw [hm] at h
    exact ⟨fun _ h => (nomatch h), (Except.ok.inj h).symm⟩
  | some m =>
    rw [hm] at h
    have htables := tables_of_tomlServices h
    exact ⟨htables, Except.ok.inj (h.symm.trans (tomlServices_of_tables htables))⟩

/-- The entries of a rewritten map are tables, if those that stay are. -/
theorem tables_rewriteMap {services : List HostService} {dir proxyCmd : String}
    {args : List String} {existing : OrderedMap String Toml}
    (hnodup : (services.map HostService.name).Nodup)
    (hkept : ∀ e ∈ existing.entries, e.2.asTable.isSome) :
    ∀ e ∈ (rewriteMap (tomlEntry dir proxyCmd args) services existing).entries,
      e.2.asTable.isSome := by
  intro e he
  by_cases hname : e.1 ∈ services.map HostService.name
  · obtain ⟨svc, hsvc, hn⟩ := List.mem_map.1 hname
    have hget := OrderedMap.get_eq_some_iff.2 he
    rw [← hn, get_rewriteMap hnodup hsvc] at hget
    rw [← Option.some.inj hget, tomlEntry]
    cases svc.env <;> rfl
  · have hget := OrderedMap.get_eq_some_iff.2 he
    rw [get_rewriteMap_of_notMem hname] at hget
    exact hkept e (OrderedMap.get_eq_some_iff.1 hget)

/-- A map of tables put into a document is what is scanned. -/
theorem scanToml_insert {file : HostFile} (hfmt : file.format = .toml)
    (table : OrderedMap String Toml) {m : OrderedMap String Toml}
    (htables : ∀ e ∈ m.entries, e.2.asTable.isSome) :
    scanText (.ofToml (.table (table.insert "mcp_servers" (.table m.entries)).entries)) file =
      .ok (servicesOf tomlRaw m.entries) := by
  rw [← tomlServices_of_tables htables]
  simp [scanText, hfmt, parseTomlMcpServers, Text.ofToml]

theorem scan_rewriteToml {file : HostFile} {data data' : Text} {found services : List HostService}
    {dir proxyCmd : String} {args lines : List String} (hfmt : file.format = .toml)
    (hscan : parseTomlMcpServers data file.path = .ok found)
    (hnodup : (services.map HostService.name).Nodup)
    (h : rewriteTomlKeepOtherTables data file.path services proxyCmd args dir =
      .ok (data', lines)) :
    ∃ found', scanText data' file = .ok found' ∧
      ∀ svc ∈ services, rescanned dir proxyCmd args svc ∈ found' := by
  obtain ⟨root, table, hroot, htable, rfl⟩ := rewriteToml_ok h
  -- the entries that stay are tables, or the first scan had failed
  have hkept := (parseToml_ok hroot htable hscan).1
  exact ⟨_, scanToml_insert hfmt table (tables_rewriteMap hnodup hkept), fun svc hsvc =>
    rescanned_mem_servicesOf (raw_tomlEntry dir proxyCmd args) hnodup hsvc⟩

/-- **The scan of a rewritten file finds every rewritten service**, as the proxy. -/
theorem scan_rewriteText {file : HostFile} {data data' : Text} {found services : List HostService}
    {dir proxyCmd : String} {args lines : List String} (hscan : scanText data file = .ok found)
    (hsel : services.Sublist found) (hne : services ≠ [])
    (h : rewriteText data file services proxyCmd args dir = .ok (data', lines)) :
    ∃ found', scanText data' file = .ok found' ∧
      ∀ svc ∈ services, rescanned dir proxyCmd args svc ∈ found' := by
  have hnodup : (services.map HostService.name).Nodup :=
    (hsel.map HostService.name).nodup (foundUnder_scannedKey hscan).nodup
  unfold rewriteText at h
  cases hfmt : file.format with
  | json =>
    rw [hfmt] at h
    exact scan_rewriteJson hfmt hnodup hne h
  | toml =>
    rw [hfmt] at h
    rw [scanText, hfmt] at hscan
    exact scan_rewriteToml hfmt hscan hnodup h

namespace Rewire

variable {r : Rewire} {env : Surroundings}

theorem mem_scans {scan : ScanResult} (h : scan ∈ r.scans) :
    scan.host.eligibleForDanger = true ∧ scan.host ∈ r.hosts ∧
      ∃ data found, Disk.files r.disk scan.host.path = some data ∧
        scanText data scan.host = .ok found ∧ scan.services.Sublist found := by
  obtain ⟨hmem, helig⟩ := List.mem_filter.1 h
  obtain ⟨scan', hscan', rfl⟩ := List.mem_map.1 hmem
  obtain ⟨hhost, data, hread, htext⟩ := mem_scanAll.1 hscan'
  exact ⟨helig, hhost, data, scan'.services, hread, htext, List.filter_sublist⟩

/-- Each action of the plan is the one for a scan. -/
theorem exists_scan {action : DangerAction Text} (h : action ∈ r.plan.actions) :
    ∃ scan ∈ r.scans, action = planAction (Disk.files r.disk) r.proxyCmd r.args r.dir scan := by
  obtain ⟨scan, hscan, rfl⟩ := List.mem_map.1 h
  exact ⟨scan, hscan, rfl⟩

/-- An action is planned where its scan has services. -/
theorem status_planAction {scan : ScanResult} (h : scan ∈ r.scans) :
    (planAction (Disk.files r.disk) r.proxyCmd r.args r.dir scan).status = .planned ↔
      scan.services ≠ [] := by
  obtain ⟨helig, -, data, found, hread, htext, hsel⟩ := mem_scans h
  constructor
  · intro hs hnil
    simp [planAction, helig, hnil] at hs
  · intro hne
    obtain ⟨data', hplan, -⟩ := planAction_spec r.proxyCmd r.dir r.args helig hread htext hsel hne
    rw [hplan]

theorem newContents_planAction {scan : ScanResult} (h : scan ∈ r.scans) {data' : Text}
    (hnew : (planAction (Disk.files r.disk) r.proxyCmd r.args r.dir scan).newContents =
      some data') :
    ∃ found, scanText data' scan.host = .ok found ∧
      ∀ svc ∈ scan.services, rescanned r.dir r.proxyCmd r.args svc ∈ found := by
  obtain ⟨helig, -, data, found, hread, htext, hsel⟩ := mem_scans h
  by_cases hnil : scan.services = []
  · simp [planAction, helig, hnil] at hnew
  · cases hrw : rewriteText data scan.host scan.services r.proxyCmd r.args r.dir with
    | error err => simp [planAction, rewriteAction, helig, hread, hrw, hnil] at hnew
    | ok out =>
      obtain ⟨data'', lines⟩ := out
      have heq : data'' = data' := by
        simpa [planAction, rewriteAction, helig, hread, hrw, hnil] using hnew
      subst heq
      exact scan_rewriteText htext hsel hnil hrw

/-- Actions that are not planned leave the disk. -/
theorem diskAfter_of_none_planned {disk : Disk Text} {actions : List (DangerAction Text)}
    {w : ℕ → Weather Text} (h : ∀ a ∈ actions, a.status ≠ .planned) :
    diskAfter disk (moments disk actions w) = disk := by
  induction actions generalizing w with
  | nil => rfl
  | cons action actions ih =>
    have hnot := h action List.mem_cons_self
    have hfirst : (executeAction disk action (w 0)).1 = disk :=
      ((recorded_executeAction disk action (w 0) fun hs => absurd hs hnot).skipped hnot).1
    have hrest := ih (w := fun i => w (i + 1)) fun a ha => h a (List.mem_cons_of_mem _ ha)
    show diskAfter (executeAction disk action (w 0)).1
      (moments (executeAction disk action (w 0)).1 actions fun i => w (i + 1)) = disk
    rw [hfirst]
    exact hrest

/-- **What is left on the disk is what the last planned action left.** -/
theorem exists_last_planned {disk : Disk Text} {actions : List (DangerAction Text)}
    {w : ℕ → Weather Text} (h : ∃ a ∈ actions, a.status = .planned) :
    ∃ m ∈ moments disk actions w, m.action.status = .planned ∧
      diskAfter disk (moments disk actions w) = m.after := by
  induction actions generalizing disk w with
  | nil => obtain ⟨a, ha, -⟩ := h; cases ha
  | cons action actions ih =>
    -- the last planned action is further down, or it is this one
    by_cases hrest : ∃ a ∈ actions, a.status = .planned
    · obtain ⟨m, hm, hs, hdisk⟩ :=
        @ih (executeAction disk action (w 0)).1 (fun i => w (i + 1)) hrest
      exact ⟨m, List.mem_cons_of_mem _ hm, hs, hdisk⟩
    · push Not at hrest
      have hs : action.status = .planned := by
        obtain ⟨a, ha, hs⟩ := h
        rcases List.mem_cons.1 ha with rfl | ha
        · exact hs
        · exact absurd hs (hrest a ha)
      refine ⟨_, List.mem_cons_self, hs, ?_⟩
      rw [moments, diskAfter, List.foldl_cons]
      exact diskAfter_of_none_planned hrest

theorem after_eq : r.after = diskAfter r.disk (moments r.disk r.plan.actions r.weather) := by
  simp [after, executePlan, executeActions_eq]

/-- A file that was read is there. -/
theorem isSome_of_files {disk : Disk Text} {path : Path} {data : Text}
    (h : Disk.files disk path = some data) : path.fileName.isSome ∧ (disk path).isSome := by
  unfold Disk.files at h
  split at h
  · rename_i hname hfile
    exact ⟨by rw [hname]; rfl, by rw [hfile]; rfl⟩
  · cases h

/-- **The next scan finds a proxy**, once anything is rewritten. -/
theorem exists_rescanned (hdone : r.Done) {scan : ScanResult} (hscan : scan ∈ r.scans)
    (hne : scan.services ≠ []) :
    ∃ v ∈ found (scanAll (Disk.files r.after) r.hosts), ∃ svc,
      v.2 = rescanned r.dir r.proxyCmd r.args svc := by
  have hexist : ∀ a ∈ r.plan.actions, a.status = .planned → (r.disk a.source.path).isSome := by
    intro a ha hs
    obtain ⟨scan', hscan', rfl⟩ := exists_scan ha
    obtain ⟨helig, -, data, found, hread, htext, hsel⟩ := mem_scans hscan'
    obtain ⟨data', hplan, -⟩ := planAction_spec r.proxyCmd r.dir r.args helig hread htext hsel
      ((status_planAction hscan').1 hs)
    rw [hplan]
    exact (isSome_of_files hread).2
  have hplanned : ∃ a ∈ r.plan.actions, a.status = .planned :=
    ⟨_, List.mem_map_of_mem hscan, (status_planAction hscan).2 hne⟩
  -- other files may share a path: only the last write is what the next scan reads
  obtain ⟨m, hm, hs, hdisk⟩ := @exists_last_planned r.disk r.plan.actions r.weather hplanned
  obtain ⟨hrecorded, hmem⟩ := recorded_moments hexist hm
  obtain ⟨-, backup, data', replaced, -, -, hnew, hafter, -⟩ := hrecorded.success (hdone m hm hs)
  obtain ⟨scan', hscan', haction⟩ := exists_scan hmem
  obtain ⟨helig, hhost, data, all, hread, htext, hsel⟩ := mem_scans hscan'
  rw [haction] at hs hnew hafter
  have hne' := (status_planAction hscan').1 hs
  obtain ⟨data'', hplan, -⟩ := planAction_spec r.proxyCmd r.dir r.args helig hread htext hsel hne'
  obtain ⟨found', htext', hfound'⟩ := newContents_planAction hscan' hnew
  have hread' : Disk.files r.after scan'.host.path = some data' := by
    obtain ⟨name, hname⟩ := Option.isSome_iff_exists.1 (isSome_of_files hread).1
    rw [hplan] at hafter
    rw [after_eq, hdisk, Disk.files, hname, hafter]
  obtain ⟨svc, hsvc⟩ := List.exists_mem_of_ne_nil _ hne'
  refine ⟨(scan'.host, rescanned r.dir r.proxyCmd r.args svc), mem_found.2
    ⟨⟨scan'.host, found'⟩, mem_scanAll.2 ⟨hhost, data', hread', htext'⟩, rfl, hfound' svc hsvc⟩,
    svc, rfl⟩

/-- Nothing selected is nothing rewritten. -/
theorem after_of_noneSelected (h : ∀ scan ∈ r.scans, scan.services = []) : r.after = r.disk := by
  rw [after_eq]
  refine diskAfter_of_none_planned fun a ha hs => ?_
  obtain ⟨scan, hscan, rfl⟩ := exists_scan ha
  exact (status_planAction hscan).1 hs (h scan hscan)

/-! ## The next daemon config -/

/-- Where no name is lost, a proxy that was found is a server. -/
theorem not_noProxy_of_found
    (hnodup : ((r.nextServices env).map HostService.name).Nodup)
    {v : HostFile × HostService} (hv : v ∈ found (scanAll (Disk.files r.after) r.hosts))
    {socket : String} (hcmd : v.2.command = r.proxyCmd)
    (hargs : v.2.args = proxyArgs r.args socket) :
    ¬ r.NotSelfPointing env := by
  intro h
  obtain ⟨w, hw, hwv, -⟩ := exists_named_of_found hv
  obtain ⟨hc, ha, -⟩ := servicesEquivalent_iff.1 hwv
  have hmem : { w with enabled := none } ∈ r.nextServices env := by
    rw [nextServices, services_advanceToStep2]
    exact List.mem_append_left _ (List.mem_map.2 ⟨w, hw, rfl⟩)
  have hget : (r.nextDaemon env).servers.get ({ w with enabled := none } : HostService).name =
      some (serverConfig r.dir { w with enabled := none }) :=
    HashMap.get_fill_of_nodup hnodup hmem
  exact h.noProxy _ _ hget (congrArg some (hc.trans hcmd)) socket (congrArg some (ha.trans hargs))

/-- Where there is no proxy to be found, there is none among the servers. -/
theorem NoProxies.notSelfPointing (h : r.NoProxies) (root : String) (devProject pipInstalled : Bool)
    (running : List RunningMcpProcess) (listens : String → Bool) :
    r.NotSelfPointing
      ⟨discoverVibecraftedMcp root devProject pipInstalled, running, listens⟩ := by
  refine ⟨fun name cfg hget hcmd socket hargs => ?_, fun scan hscan svc hsvc => ?_⟩
  · obtain ⟨w, hw, -, rfl⟩ := HashMap.exists_of_get_fill hget
    rw [nextServices, services_advanceToStep2, after_of_noneSelected h.noneSelected,
      List.mem_append] at hw
    -- a merged service comes from a scan, and the other is the default server
    rcases hw with hw | hw
    · obtain ⟨u, hu, rfl⟩ := List.mem_map.1 hw
      obtain ⟨v, hv, hequiv⟩ := exists_found_of_named hu
      obtain ⟨hc, ha, -⟩ := servicesEquivalent_iff.1 hequiv
      obtain ⟨scan, hscan, -, hsvc⟩ := mem_found.1 hv
      exact h.noneThere scan hscan v.2 hsvc (hc.symm.trans (Option.some.inj hcmd)) socket
        (ha.symm.trans (Option.some.inj hargs))
    · obtain ⟨discovered, hmem, rfl⟩ := List.mem_map.1 hw
      exact args_discoverVibecraftedMcp (Option.mem_toList.1 hmem) r.args socket
        (Option.some.inj hargs)
  · rw [h.noneSelected scan hscan] at hsvc
    cases hsvc

/-- **The next daemon config does not point at the mux when there is no proxy to be
found**, for every set of files, every selection and whatever the second run
sees around it; and where the second run loses no name, then only. -/
theorem notSelfPointing_of_noProxies (r : Rewire) (hdone : r.Done) (root : String)
    (devProject pipInstalled : Bool) (running : List RunningMcpProcess) (listens : String → Bool) :
    let env : Surroundings :=
      ⟨discoverVibecraftedMcp root devProject pipInstalled, running, listens⟩
    (r.NoProxies → r.NotSelfPointing env) ∧
      (((r.nextServices env).map HostService.name).Nodup →
        (r.NotSelfPointing env ↔ r.NoProxies)) := by
  intro env
  have hback := fun h : r.NoProxies =>
    h.notSelfPointing root devProject pipInstalled running listens
  refine ⟨hback, fun hnodup => ⟨fun h => ?_, hback⟩⟩
  have hnone : ∀ scan ∈ r.scans, scan.services = [] := by
    intro scan hscan
    by_contra hne
    obtain ⟨v, hv, svc, heq⟩ := exists_rescanned hdone hscan hne
    exact not_noProxy_of_found hnodup hv (congrArg HostService.command heq)
      (congrArg HostService.args heq) h
  refine ⟨hnone, fun scan hscan svc hsvc hcmd socket hargs => ?_⟩
  rw [← after_of_noneSelected hnone] at hscan
  have hv : (scan.host, svc) ∈ found (scanAll (Disk.files r.after) r.hosts) :=
    mem_found.2 ⟨scan, hscan, rfl, hsvc⟩
  exact not_noProxy_of_found hnodup hv hcmd hargs h

/-- Claude's file with one server, and a rewrite of what is selected in it. -/
def oneServerRewire (selected : Bool) : Rewire where
  disk p := if p = ⟨"/home/u", some ".claude.json"⟩ then some (.file (oneServerText "memory" "npx"))
    else none
  hosts := [sampleHost .claude ".claude.json"]
  selected _ _ := selected
  proxyCmd := "rust-mux-proxy"
  args := []
  dir := "/mux/sockets"
  weather _ := ⟨5, true, .done, .done⟩

theorem done_oneServerRewire (selected : Bool) : (oneServerRewire selected).Done := by
  cases selected <;>
  · show ∀ m ∈ moments _ _ _, m.action.status = .planned → m.outcome.written = true
    decide +kernel

/-- With nothing selected there is nothing to point at. -/
theorem notSelfPointing_oneServer : (oneServerRewire false).NotSelfPointing
    ⟨discoverVibecraftedMcp "/home/u" false false, [], fun _ => false⟩ := by
  refine (notSelfPointing_of_noProxies (oneServerRewire false) (done_oneServerRewire false)
    "/home/u" false false [] fun _ => false).1 ⟨by decide +kernel, ?_⟩
  intro scan hscan svc hsvc hcmd
  have hnpx : ∀ scan ∈ scanAll (Disk.files (oneServerRewire false).disk)
      (oneServerRewire false).hosts, ∀ svc ∈ scan.services, svc.command ≠ "rust-mux-proxy" := by
    decide +kernel
  exact absurd hcmd (hnpx scan hscan svc hsvc)

/-- **With it selected, the daemon runs the proxy on its own socket**: the next config
has `memory`, which runs `rust-mux-proxy --socket /mux/sockets/memory.sock` and
listens there. -/
theorem not_notSelfPointing_oneServer :
    ¬ ∀ (r : Rewire), r.Done → ∀ (root : String) (devProject pipInstalled : Bool)
      (running : List RunningMcpProcess) (listens : String → Bool),
      r.NotSelfPointing
        ⟨discoverVibecraftedMcp root devProject pipInstalled, running, listens⟩ := by
  intro h
  have hnot := h (oneServerRewire true) (done_oneServerRewire true) "/home/u" false false []
    fun _ => false
  have hget : ((oneServerRewire true).nextDaemon
      ⟨discoverVibecraftedMcp "/home/u" false false, [], fun _ => false⟩).servers.get "memory" =
      some (serverConfig "/mux/sockets" { sampleService "memory" "rust-mux-proxy" with
        args := ["--socket", "/mux/sockets/memory.sock"] }) := by
    decide +kernel
  exact hnot.noProxy _ _ hget rfl "/mux/sockets/memory.sock" rfl

end Rewire

end Config

end VcOperator
