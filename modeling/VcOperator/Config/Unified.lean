import VcOperator.Config.DistinctNames
import VcOperator.Config.Model.Wizard
/-!
# The unified generator

`build_merge_from_services` hands the selected entries to the generators
as they are. Only the entries made from scans went through
`merge_services`: the default server and the orphans join them under
names of their own making, and nothing compares those with what is
there. All are then inserted into maps keyed by name.
-/

namespace VcOperator

namespace Config

/-- An entry of a client map leads to a socket. -/
def PointsAt (entries : HashMap String ClientServer) (args : List String) (name socket : String) :
    Prop :=
  ∃ entry, entries.get name = some entry ∧ entry.args = args ++ ["--socket", socket]

/-- **Every selected service survives**: it has its own entry in the daemon config,
with its command, args, cwd and env; exactly one entry of each client file
leads to that entry's socket, and it has the service's name; and each file
has as many entries as services were selected. -/
structure Lossless (services : List ServiceEntry) (muxDir proxyCmd : String)
    (args : List String) : Prop where
  served : let out := buildMuxOutputs (buildMergeFromServices services) muxDir proxyCmd args
    ∀ svc ∈ services, svc.selected = true → ∃ cfg socket,
      out.configToml.servers.get svc.name = some cfg ∧ cfg.socket = some socket ∧
        cfg.cmd = some (svc.config.cmd.getD "") ∧ cfg.args = some (svc.config.args.getD []) ∧
        cfg.cwd = svc.config.cwd ∧ cfg.env = svc.config.env ∧
        PointsAt out.mcpJson.mcpServers args svc.name socket ∧
        (∀ name, PointsAt out.mcpJson.mcpServers args name socket → name = svc.name) ∧
        PointsAt out.mcpToml.mcpServers args svc.name socket ∧
        ∀ name, PointsAt out.mcpToml.mcpServers args name socket → name = svc.name
  daemonLen : (buildMuxOutputs (buildMergeFromServices services) muxDir proxyCmd
    args).configToml.servers.len = (services.filter (·.selected)).length
  jsonLen : (buildMuxOutputs (buildMergeFromServices services) muxDir proxyCmd
    args).mcpJson.mcpServers.len = (services.filter (·.selected)).length
  tomlLen : (buildMuxOutputs (buildMergeFromServices services) muxDir proxyCmd
    args).mcpToml.mcpServers.len = (services.filter (·.selected)).length

/-- No two selected entries have one name, or one socket. -/
structure SelectedApart (services : List ServiceEntry) (socketDir : String) : Prop where
  names : ((services.filter (·.selected)).map ServiceEntry.name).Nodup
  sockets : ((services.filter (·.selected)).map fun svc =>
    socketOf socketDir svc.toHostService).Nodup

theorem names_merge (services : List ServiceEntry) :
    (buildMergeFromServices services).services.map HostService.name =
      (services.filter (·.selected)).map ServiceEntry.name := by
  rw [buildMergeFromServices, List.map_map]
  rfl

/-- The entry of a client file for a name is made from a selected service of it. -/
theorem pointsAt_iff {svcs : List HostService} {dir proxyCmd : String} {args : List String}
    (hnodup : (svcs.map HostService.name).Nodup) {name socket : String} :
    PointsAt (.fill HostService.name (clientServer dir proxyCmd args) svcs) args name socket ↔
      ∃ w ∈ svcs, w.name = name ∧ socketOf dir w = socket := by
  constructor
  · rintro ⟨entry, hget, hargs⟩
    obtain ⟨w, hw, hname, rfl⟩ := HashMap.exists_of_get_fill hget
    exact ⟨w, hw, hname, proxyArgs_inj.1 hargs⟩
  · rintro ⟨w, hw, rfl, rfl⟩
    exact ⟨_, HashMap.get_fill_of_nodup hnodup hw, rfl⟩

theorem SelectedApart.lossless {services : List ServiceEntry} {muxDir : String}
    (h : SelectedApart services (defaultSocketDir muxDir)) (proxyCmd : String)
    (args : List String) : Lossless services muxDir proxyCmd args := by
  have hnodup : ((buildMergeFromServices services).services.map HostService.name).Nodup := by
    rw [names_merge]
    exact h.names
  have hlen : (buildMergeFromServices services).services.length =
      (services.filter (·.selected)).length := List.length_map _
  refine ⟨fun svc hsvc hsel => ?_, ?_, ?_, ?_⟩
  · have hmem : svc ∈ services.filter (·.selected) := List.mem_filter.2 ⟨hsvc, hsel⟩
    have hhost : svc.toHostService ∈ (buildMergeFromServices services).services :=
      List.mem_map_of_mem hmem
    have hpoints : PointsAt (.fill HostService.name
        (clientServer (defaultSocketDir muxDir) proxyCmd args)
        (buildMergeFromServices services).services) args svc.name
        (socketOf (defaultSocketDir muxDir) svc.toHostService) :=
      (pointsAt_iff hnodup).2 ⟨_, hhost, rfl, rfl⟩
    -- an entry on the same socket is of the same service
    have honly : ∀ name, PointsAt (.fill HostService.name
        (clientServer (defaultSocketDir muxDir) proxyCmd args)
        (buildMergeFromServices services).services) args name
        (socketOf (defaultSocketDir muxDir) svc.toHostService) → name = svc.name := by
      intro name hp
      obtain ⟨w, hw, rfl, hsock⟩ := (pointsAt_iff hnodup).1 hp
      obtain ⟨svc', hsvc', rfl⟩ := List.mem_map.1 hw
      rw [List.inj_on_of_nodup_map h.sockets hsvc' hmem hsock]
      rfl
    exact ⟨_, _, HashMap.get_fill_of_nodup hnodup hhost, rfl, rfl, rfl, rfl, rfl, hpoints, honly,
      hpoints, honly⟩
  · exact (HashMap.len_fill_eq_length_iff.2 hnodup).trans hlen
  · exact (HashMap.len_fill_eq_length_iff.2 hnodup).trans hlen
  · exact (HashMap.len_fill_eq_length_iff.2 hnodup).trans hlen

theorem Lossless.selectedApart {services : List ServiceEntry} {muxDir proxyCmd : String}
    {args : List String} (h : Lossless services muxDir proxyCmd args) :
    SelectedApart services (defaultSocketDir muxDir) := by
  have hlen : (buildMergeFromServices services).services.length =
      (services.filter (·.selected)).length := List.length_map _
  -- a map as long as the list it is filled from has lost no name
  have hnodup : ((buildMergeFromServices services).services.map HostService.name).Nodup :=
    HashMap.len_fill_eq_length_iff.1 (h.daemonLen.trans hlen.symm)
  have hnames : ((services.filter (·.selected)).map ServiceEntry.name).Nodup := by
    rw [← names_merge]
    exact hnodup
  refine ⟨hnames, List.Nodup.map_on ?_ hnames.of_map⟩
  intro svc hsvc svc' hsvc' hsock
  obtain ⟨hmem, hsel⟩ := List.mem_filter.1 hsvc
  obtain ⟨cfg, socket, hget, hcs, -, -, -, -, -, honly, -⟩ := h.served svc hmem hsel
  have hhost : ∀ s ∈ services.filter (·.selected),
      s.toHostService ∈ (buildMergeFromServices services).services :=
    fun _ hs => List.mem_map_of_mem hs
  have hcfg : (buildDaemonConfig (buildMergeFromServices services).services
      (defaultSocketDir muxDir)).servers.get svc.toHostService.name =
        some (serverConfig (defaultSocketDir muxDir) svc.toHostService) :=
    HashMap.get_fill_of_nodup hnodup (hhost svc hsvc)
  rw [show svc.name = svc.toHostService.name from rfl] at hget
  obtain rfl := Option.some.inj (hget.symm.trans hcfg)
  obtain rfl := Option.some.inj hcs
  -- the entry of the other one leads to this socket too
  have hname := honly svc'.name ((pointsAt_iff hnodup).2
    ⟨_, hhost svc' hsvc', rfl, hsock.symm⟩)
  exact List.inj_on_of_nodup_map hnames hsvc hsvc' hname.symm

/-- **The unified generator is lossless exactly where the selected services have
distinct names and distinct sockets**, whatever the wizard's service list and
the selection in it, for every mux directory and proxy. -/
theorem lossless_iff (services : List ServiceEntry) (muxDir proxyCmd : String)
    (args : List String) : Lossless services muxDir proxyCmd args ↔
      SelectedApart services (defaultSocketDir muxDir) :=
  ⟨Lossless.selectedApart, fun h => h.lossless proxyCmd args⟩

/-- Claude's config has a server called `vibecrafted-mcp`, and the default server
of that name is installed. -/
def defaultTwice : List ServiceEntry :=
  advanceToStep2
    [⟨sampleHost .claude ".claude.json", [sampleService "vibecrafted-mcp" "uvx"]⟩]
    ⟨discoverVibecraftedMcp "/home/u/Libraxis/vibecrafted/vibecrafted-mcp" false true, [],
      fun _ => false⟩

/-- **Two services are selected, and one is written**: the wizard that discovers
`defaultTwice` generates configs with one entry. -/
theorem not_lossless_defaultTwice :
    ¬ ∀ services : List ServiceEntry, Discovered services →
      ∀ (muxDir proxyCmd : String) (args : List String),
        Lossless services muxDir proxyCmd args := by
  intro h
  have hlossless := h defaultTwice (.advance _ _ _ _ _ _) "/home/u/.config/mux" "rust-mux-proxy" []
  exact absurd hlossless.daemonLen (by decide +kernel)

end Config

end VcOperator
