import VcOperator.Config.Helpers.Documents
import VcOperator.Config.DistinctNames
/-!
# What a rewrite leaves alone

A rewrite is to change the selected servers and nothing else, and to leave
no copy of them that still starts the upstream. The scan and the rewrite
choose the map of servers on their own, so this holds exactly where they
choose the same one and no other map has a copy.
-/

namespace VcOperator

namespace Config

/-- The keys under which a scan looks for servers. -/
def mapKeys : List String := ["mcpServers", "servers", "mcp_servers"]

/-- An entry launches the proxy on the socket of a service. -/
def LaunchesProxy (proxyCmd : String) (args : List String) (dir : String) (svc : HostService)
    (raw : RawServer) : Prop :=
  raw.command = some proxyCmd ∧ raw.args = some (proxyArgs args (socketOf dir svc))

/-- An entry still launches the command of a service itself. -/
def StillUpstream (proxyCmd : String) (args : List String) (dir : String) (svc : HostService)
    (node : Node) : Prop :=
  ∃ raw, node.raw = some raw ∧ raw.command = some svc.command ∧
    ¬ LaunchesProxy proxyCmd args dir svc raw

/-- **The rewrite changes exactly the selected servers**: what a file reads back as,
against what it was. -/
structure Exact (file : HostFile) (data : Text) (services : List HostService) (proxyCmd : String)
    (args : List String) (dir : String) (data' : Text) : Prop where
  /-- Other top-level keys are as they were. -/
  other : ∀ k, k ≠ scannedKey file data → top file data' k = top file data k
  /-- Entries of the server map that were not selected are as they were. -/
  kept : ∀ name, name ∉ services.map HostService.name →
    entryAt file data' (scannedKey file data) name = entryAt file data (scannedKey file data) name
  /-- Selected entries launch the proxy, with the environment they had. -/
  selected : ∀ svc ∈ services, ∃ node raw,
    entryAt file data' (scannedKey file data) svc.name = some node ∧ node.raw = some raw ∧
      LaunchesProxy proxyCmd args dir svc raw ∧ raw.env = svc.env
  /-- No map has an entry of a selected name that still launches the upstream. -/
  noStale : ∀ key ∈ mapKeys, ∀ svc ∈ services, ∀ node,
    entryAt file data' key svc.name = some node → ¬ StillUpstream proxyCmd args dir svc node

/-- A JSON file whose schema leaves the map open has a server under `mcpServers`,
or is of the auto schema and has no such key. -/
def MapSettled (file : HostFile) (data : Text) : Prop :=
  file.format = .json → file.schema = .autoJson ∨ file.schema = .mcpServersToml →
    parseJsonServersUnderKey data file.path "mcpServers" false = .ok [] →
      file.schema = .autoJson ∧ top file data "mcpServers" = none

theorem entryAt_congr {file : HostFile} {data data' : Text} {key : String}
    (h : top file data' key = top file data key) (name : String) :
    entryAt file data' key name = entryAt file data key name := by
  rw [entryAt, entryAt, h]

/-- A map in which nothing was found has no entry with a command. -/
theorem not_entryAt_of_parseJson_nil {file : HostFile} {data : Text} {key name : String}
    {required : Bool} (hfmt : file.format = .json)
    (h : parseJsonServersUnderKey data file.path key required = .ok []) {node : Node}
    (hnode : entryAt file data key name = some node) {raw : RawServer}
    (hraw : node.raw = some raw) : raw.command = none := by
  cases hcmd : raw.command with
  | none => rfl
  | some command =>
    exfalso
    have hfound := (foundUnder_of_parseJson hfmt h).mem
      ⟨name, command, raw.args.getD [], raw.cwd, raw.socket, raw.env, raw.enabled⟩
    refine List.not_mem_nil (hfound.2 ⟨node, hnode, ?_⟩)
    rw [hraw, Option.bind_some, RawServer.toHostService, hcmd]
    rfl

theorem isSome_top_json {file : HostFile} {data : Text} (hfmt : file.format = .json)
    (key : String) : (top file data key).isSome =
      (((data.json.bind Value.asObject).getD ∅).get key).isSome := by
  cases hroot : data.json with
  | none => simp [top, Text.root, hfmt, hroot]
  | some root => cases hobj : root.asObject <;> simp [top, Text.root, hfmt, hroot, Node.get, hobj]

theorem rewrittenKey_auto {file : HostFile} {data : Text} (hfmt : file.format = .json)
    (hschema : file.schema = .autoJson) : rewrittenKey file data =
      if (top file data "mcpServers").isSome then "mcpServers"
      else if (top file data "servers").isSome then "servers"
      else "mcpServers" := by
  simp only [rewrittenKey, hfmt, hschema, jsonKey, isSome_top_json hfmt]

/-- **Where the map is settled, scan and rewrite pick the same**, if anything was
found. -/
theorem MapSettled.sameKey {file : HostFile} {data : Text} {name : String} {node : Node}
    (h : MapSettled file data)
    (hnode : entryAt file data (scannedKey file data) name = some node) :
    rewrittenKey file data = scannedKey file data := by
  cases hfmt : file.format with
  | toml => simp only [rewrittenKey, scannedKey, hfmt]
  | json =>
    by_cases hopen : file.schema = .autoJson ∨ file.schema = .mcpServersToml
    swap
    · cases hschema : file.schema <;> simp_all [rewrittenKey, scannedKey, jsonKey]
    obtain ⟨v, hv, -⟩ := Option.bind_eq_some_iff.1 hnode
    by_cases hnil : parseJsonServersUnderKey data file.path "mcpServers" false = .ok []
    · obtain ⟨hauto, hnone⟩ := h hfmt hopen hnil
      have hscanned : scannedKey file data = "servers" := by
        simp only [scannedKey, hfmt, hauto, if_pos hnil]
      rw [hscanned] at hv ⊢
      simp [rewrittenKey_auto hfmt hauto, hnone, hv]
    · have hscanned : scannedKey file data = "mcpServers" := by
        rcases hopen with hschema | hschema <;> simp only [scannedKey, hfmt, hschema, if_neg hnil]
      rw [hscanned] at hv ⊢
      rcases hopen with hschema | hschema
      · simp [rewrittenKey_auto hfmt hschema, hv]
      · simp only [rewrittenKey, hfmt, hschema, jsonKey]

/-- Where it is not, the rewrite picks a map in which the scan found nothing. -/
theorem rewrittenKey_of_not_settled {file : HostFile} {data : Text} (h : ¬ MapSettled file data) :
    file.format = .json ∧ rewrittenKey file data = "mcpServers" ∧
      scannedKey file data = "servers" ∧
      parseJsonServersUnderKey data file.path "mcpServers" false = .ok [] := by
  unfold MapSettled at h
  push Not at h
  obtain ⟨hfmt, hopen, hnil, hsome⟩ := h
  refine ⟨hfmt, ?_, ?_, hnil⟩
  · rcases hopen with hschema | hschema
    · rw [rewrittenKey_auto hfmt hschema, if_pos (Option.isSome_iff_ne_none.2 (hsome hschema))]
    · simp only [rewrittenKey, hfmt, hschema, jsonKey]
  · rcases hopen with hschema | hschema <;> simp only [scannedKey, hfmt, hschema, if_pos hnil]

/-! ## Exactness -/

/-- The action for a selection of what was found in a file writes it anew. -/
theorem planAction_spec {files : Files} {file : HostFile} {data : Text}
    {found services : List HostService} (proxyCmd dir : String) (args : List String)
    (helig : file.eligibleForDanger = true) (hread : files file.path = some data)
    (hscan : scanText data file = .ok found) (hsel : services.Sublist found)
    (hne : services ≠ []) :
    ∃ data', planAction files proxyCmd args dir ⟨file, services⟩ =
        { source := file
          status := .planned
          newContents := some data'
          changeLines := services.map (changeLine proxyCmd)
          skipReason := none
          existingServices := services } ∧
      Rewritten file data (rewrittenKey file data) services proxyCmd args dir data' := by
  have hfound := foundUnder_scannedKey hscan
  obtain ⟨svc, svcs, rfl⟩ := List.exists_cons_of_ne_nil hne
  obtain ⟨node, hnode, -⟩ := (hfound.mem svc).1 (hsel.subset List.mem_cons_self)
  have hnodup : ((svc :: svcs).map HostService.name).Nodup :=
    (hsel.map HostService.name).nodup hfound.nodup
  obtain ⟨data', hdata', hrewritten⟩ := rewriteText_spec hnodup hnode
  refine ⟨data', ?_, hrewritten⟩
  simp [planAction, rewriteAction, helig, hread, hdata']

end Config

end VcOperator
