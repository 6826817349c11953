import VcOperator.Config.Agreement
import VcOperator.Config.MergeExact
import VcOperator.Config.Model.Wizard
/-!
# Does a disabled server stay disabled?

Both parsers read the `enabled` flag of an entry, and nothing after them does: the
rewritten entry has no flag, and neither have the entries of the generated files. So a
server that is turned off stays off as long as it is not selected.
-/

namespace VcOperator

namespace Config

/-- An entry that is unchanged, or still marked as disabled. -/
def StillOff (file : HostFile) (data data' : Text) (key name : String) : Prop :=
  entryAt file data' key name = entryAt file data key name ∨
    ∃ node raw, entryAt file data' key name = some node ∧ node.raw = some raw ∧
      raw.enabled = some false

/-- A service that is turned off, in every file that defines it. -/
def TurnedOff (scans : List ScanResult) (v : HostFile × HostService) : Prop :=
  v ∈ found scans ∧ ∀ u ∈ found scans, u.2.name = v.2.name →
    servicesEquivalent u.2 v.2 = true → u.2.enabled = some false

/-- A merged service that stands for one that was found. -/
def StandsFor (w svc : HostService) : Prop :=
  servicesEquivalent w svc = true ∧
    (w.name = svc.name ∨ ∃ kind i, w.name = variantName svc.name kind i)

/-- No generated file has an entry of a name. -/
def NoneGenerated (services : List HostService) (dir proxyCmd : String) (args : List String)
    (name : String) : Prop :=
  (buildDaemonConfig services dir).servers.get name = none ∧
    (buildClientJson services dir proxyCmd args).mcpServers.get name = none ∧
    (buildClientToml services dir proxyCmd args).mcpServers.get name = none

/-- **A disabled server stays disabled**: no entry of its name is turned on by the rewrite, and
no entry is generated for it, from the merged services or from those of the wizard. -/
structure StaysOff (files : Files) (scans : List ScanResult) (proxyCmd : String)
    (args : List String) (dir : String) : Prop where
  rewritten : ∀ scan ∈ scans, ∀ data services data', files scan.host.path = some data →
    scanText data scan.host = .ok services →
    (planAction files proxyCmd args dir scan).newContents = some data' →
    ∀ svc ∈ services, svc.enabled = some false → ∀ key,
      StillOff scan.host data data' key svc.name
  generated : ∀ services, services = (mergeServices scans).services ∨
      services = (buildMergeFromServices (buildServicesFromScans scans)).services →
    ∀ v, TurnedOff scans v → ∀ w ∈ services, StandsFor w v.2 →
      NoneGenerated services dir proxyCmd args w.name

variable {files : Files} {scans : List ScanResult} {scan : ScanResult} {proxyCmd dir : String}
  {args : List String} {file : HostFile} {data data' : Text} {services : List HostService}

/-- **What is not rewritten is unchanged**, under every key. -/
theorem entryAt_of_notMem (h : Rewritten file data (rewrittenKey file data) services proxyCmd args
    dir data') {name : String} (hname : name ∉ services.map HostService.name) (key : String) :
    entryAt file data' key name = entryAt file data key name := by
  by_cases hkey : key = rewrittenKey file data
  · rw [hkey]
    exact h.kept name hname
  · exact entryAt_congr (h.other key hkey) name

/-- **A rewritten entry is turned on**, where it was off. -/
theorem not_stillOff (hscan : scanText data file = .ok services) {svc : HostService}
    (hsvc : svc ∈ services) (hoff : svc.enabled = some false) {node : Node}
    (hentry : entryAt file data' (rewrittenKey file data) svc.name = some node)
    (hraw : node.raw = some (proxied dir proxyCmd args svc)) :
    ¬ StillOff file data data' (rewrittenKey file data) svc.name := by
  obtain ⟨node₀, hentry₀, hraw₀⟩ := ((foundUnder_scannedKey hscan).mem svc).1 hsvc
  rintro (hsame | ⟨node', raw, hentry', hraw', hfalse⟩)
  · rw [hentry] at hsame
    by_cases hsettled : MapSettled file data
    · -- the entry that was found is not the proxy's, which has no flag
      rw [hsettled.sameKey hentry₀, hentry₀] at hsame
      rw [← Option.some.inj hsame, hraw, Option.bind_some] at hraw₀
      rw [← Option.some.inj hraw₀] at hoff
      cases hoff
    · obtain ⟨hfmt, hrewritten, -, hnil⟩ := rewrittenKey_of_not_settled hsettled
      rw [hrewritten] at hsame
      cases not_entryAt_of_parseJson_nil hfmt hnil hsame.symm hraw
  · obtain rfl := Option.some.inj (hentry.symm.trans hentry')
    obtain rfl := Option.some.inj (hraw.symm.trans hraw')
    cases hfalse

/-- The services of a scan are a selection of what is found in its file. -/
def Selection (files : Files) (scan : ScanResult) : Prop :=
  ∃ data services, files scan.host.path = some data ∧ scanText data scan.host = .ok services ∧
    scan.services.Sublist services

/-- **Nothing that is turned off is selected**: not in a file that is rewritten, and not in all
the files that define it. -/
structure NoneOff (scans : List ScanResult) : Prop where
  rewritten : ∀ scan ∈ scans, scan.host.eligibleForDanger = true →
    ∀ svc ∈ scan.services, svc.enabled ≠ some false
  generated : ∀ v, ¬ TurnedOff scans v

/-- A file keeps what is turned off in it, where that is not selected. -/
theorem stillOff_of_not_selected (hscan : scanText data scan.host = .ok services)
    (hread : files scan.host.path = some data) (hsel : scan.services.Sublist services)
    (hnone : scan.host.eligibleForDanger = true → ∀ svc ∈ scan.services,
      svc.enabled ≠ some false)
    (hnew : (planAction files proxyCmd args dir scan).newContents = some data')
    {svc : HostService} (hsvc : svc ∈ services) (hoff : svc.enabled = some false) (key : String) :
    StillOff scan.host data data' key svc.name := by
  have hnodup := (foundUnder_scannedKey hscan).nodup
  have helig : scan.host.eligibleForDanger = true := by
    by_contra hnot
    rw [Bool.not_eq_true] at hnot
    simp [planAction, hnot] at hnew
  have hne : scan.services ≠ [] := by
    intro hnil
    simp [planAction, helig, hnil] at hnew
  obtain ⟨data₁, hplan, hrewritten⟩ := planAction_spec proxyCmd dir args helig hread hscan hsel hne
  rw [hplan] at hnew
  obtain rfl := Option.some.inj hnew
  refine .inl (entryAt_of_notMem hrewritten (fun hname => ?_) key)
  -- a selected service of its name would be the disabled one
  obtain ⟨svc', hsvc', hn⟩ := List.mem_map.1 hname
  have heq := List.inj_on_of_nodup_map hnodup (hsel.subset hsvc') hsvc hn
  exact hnone helig svc' hsvc' (heq ▸ hoff)

/-- **Every service has an entry in the daemon config.** -/
theorem isSome_daemon_of_mem {w : HostService} (h : w ∈ services) :
    ((buildDaemonConfig services dir).servers.get w.name).isSome :=
  HashMap.mem_keys_iff_get.1 (HashMap.mem_keys_fill.2 (List.mem_map_of_mem h))

/-- **A disabled server stays disabled exactly where it is not selected**: for every list of
sources and every selection of what is found in each. -/
theorem staysOff_iff (hscans : ∀ scan ∈ scans, Selection files scan) :
    StaysOff files scans proxyCmd args dir ↔ NoneOff scans := by
  constructor
  · intro h
    refine ⟨fun scan hscan helig svc hsvc hoff => ?_, fun v hv => ?_⟩
    · obtain ⟨data, services, hread, htext, hsel⟩ := hscans scan hscan
      obtain ⟨data', hplan, hrewritten⟩ := planAction_spec proxyCmd dir args helig hread htext hsel
        (List.ne_nil_of_mem hsvc)
      obtain ⟨node, hentry, hraw⟩ := hrewritten.entry svc hsvc
      exact not_stillOff htext (hsel.subset hsvc) hoff hentry hraw
        (h.rewritten scan hscan data services data' hread htext (by rw [hplan]) svc
          (hsel.subset hsvc) hoff _)
    · obtain ⟨w, hw, hstands⟩ := exists_merged_of_found hv.1
      have hsome : ((buildDaemonConfig (mergeServices scans).services dir).servers.get
          w.name).isSome := isSome_daemon_of_mem hw
      rw [(h.generated _ (.inl rfl) v hv w hw hstands).1] at hsome
      cases hsome
  · intro h
    refine ⟨fun scan hscan data services data' hread htext hnew svc hsvc hoff key => ?_,
      fun _ _ v hv => absurd hv (h.generated v)⟩
    obtain ⟨data₀, services₀, hread₀, htext₀, hsel⟩ := hscans scan hscan
    obtain rfl := Option.some.inj (hread.symm.trans hread₀)
    obtain rfl := Except.ok.inj (htext.symm.trans htext₀)
    exact stillOff_of_not_selected htext hread hsel (h.rewritten scan hscan) hnew hsvc hoff key

/-- A file in which nothing is turned off. -/
theorem staysOff_claude : StaysOff clashingFiles
    [⟨sampleHost .claude ".claude.json", [sampleService "memory" "npx"]⟩] "rust-mux-proxy" []
    "/mux/sockets" := by
  have hscans : ∀ scan ∈ [(⟨sampleHost .claude ".claude.json", [sampleService "memory" "npx"]⟩ :
      ScanResult)], Selection clashingFiles scan := by
    intro scan hscan
    rw [List.mem_singleton.1 hscan]
    exact (scannedFrom_clashing _ List.mem_cons_self).read
  have hon : ∀ v ∈ found [⟨sampleHost .claude ".claude.json", [sampleService "memory" "npx"]⟩],
      v.2.enabled ≠ some false := by
    decide +kernel
  refine (staysOff_iff hscans).2 ⟨fun scan hscan _ svc hsvc => ?_, fun v hv => ?_⟩
  · exact hon (scan.host, svc) (mem_found.2 ⟨scan, hscan, rfl, hsvc⟩)
  · exact hon v hv.1 (hv.2 v hv.1 rfl (servicesEquivalent_refl _))

/-- Claude's file with `memory` turned off. -/
def disabledText : Text :=
  .ofJson (.object [("mcpServers", .object [("memory", .object
    [("command", .string "npx"), ("enabled", .bool false)])])])

/-- The disk with that file. -/
def disabledFiles : Files := fun _ => some disabledText

/-- **The rewrite turns it on.** -/
theorem not_staysOff_disabled : ¬ ∀ (files : Files) (scans : List ScanResult)
    (proxyCmd : String) (args : List String) (dir : String),
      (∀ scan ∈ scans, Selection files scan) → StaysOff files scans proxyCmd args dir := by
  intro h
  let svc : HostService := { sampleService "memory" "npx" with enabled := some false }
  have hscan : scanText disabledText (sampleHost .claude ".claude.json") = .ok [svc] := by
    decide +kernel
  have hread : disabledFiles (sampleHost .claude ".claude.json").path = some disabledText := rfl
  have hscans : ∀ scan ∈ [(⟨sampleHost .claude ".claude.json", [svc]⟩ : ScanResult)],
      Selection disabledFiles scan := by
    intro scan hmem
    rw [List.mem_singleton.1 hmem]
    exact ⟨disabledText, _, hread, hscan, List.Sublist.refl _⟩
  obtain ⟨data', hplan, hrewritten⟩ := planAction_spec "rust-mux-proxy" "/mux/sockets" [] rfl hread
    hscan (List.Sublist.refl _) (List.cons_ne_nil _ _)
  obtain ⟨node, hentry, hraw⟩ := hrewritten.entry svc List.mem_cons_self
  exact not_stillOff hscan List.mem_cons_self rfl hentry hraw
    ((h _ _ "rust-mux-proxy" [] "/mux/sockets" hscans).rewritten _ List.mem_cons_self _ _ _ hread
      hscan (by rw [hplan]) svc List.mem_cons_self rfl _)

end Config

end VcOperator
