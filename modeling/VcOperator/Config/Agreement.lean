import VcOperator.Config.PerClient
import VcOperator.Config.ExactRewrite
/-!
# Rewritten clients and the daemon config

The rewrite makes a service's socket from the name it has in its file; the
daemon config makes it from the name the service has after the merge. A
service that has a socket of its own is reached under any name. One that
has none is reached where the merge has kept its name, and a name that is
defined in two ways is not kept.
-/

namespace VcOperator

namespace Config

/-- A scan the danger flow plans on: an eligible file that parses, with the services
selected of those found in it. -/
structure ScannedFrom (files : Files) (scan : ScanResult) : Prop where
  eligible : scan.host.eligibleForDanger = true
  read : ∃ data found, files scan.host.path = some data ∧ scanText data scan.host = .ok found ∧
    scan.services.Sublist found

/-- **Rewritten clients agree with the daemon**: every entry that is written names,
after `--socket`, a socket on which one server of the daemon config listens, and
that server runs what the entry ran before. -/
def RewriteAgrees (files : Files) (scans : List ScanResult) (proxyCmd : String)
    (args : List String) (dir : String) : Prop :=
  ∀ scan ∈ scans, ∀ data data', files scan.host.path = some data →
    (planAction files proxyCmd args dir scan).newContents = some data' →
    ∀ svc ∈ scan.services, ∃ node raw socket,
      entryAt scan.host data' (rewrittenKey scan.host data) svc.name = some node ∧
        node.raw = some raw ∧ raw.args = some (args ++ ["--socket", socket]) ∧
        Served (buildDaemonConfig (mergeServices scans).services dir) socket svc

/-- **When the merge keeps every name that makes a socket**: no name it gives is in
use already, no two merged services have one socket, and a service without a
socket of its own has a name that is defined in one way only. -/
structure NamesKept (scans : List ScanResult) (dir : String) : Prop where
  noneReused : NoneReused scans
  socketsApart : SocketsApart scans dir
  single : ∀ v ∈ found scans, v.2.socket = none → ¬ Conflicting scans v.2.name

/-- What is written for a selection is the proxy on the socket of each service. -/
theorem ScannedFrom.entry {files : Files} {scan : ScanResult} (h : ScannedFrom files scan)
    {svc : HostService} (hsvc : svc ∈ scan.services) (proxyCmd dir : String) (args : List String) :
    ∃ data data', files scan.host.path = some data ∧
      (planAction files proxyCmd args dir scan).newContents = some data' ∧
      ∃ node, entryAt scan.host data' (rewrittenKey scan.host data) svc.name = some node ∧
        node.raw = some (proxied dir proxyCmd args svc) := by
  obtain ⟨data, all, hread, hscan, hsel⟩ := h.read
  obtain ⟨data', hplan, hrewritten⟩ := planAction_spec proxyCmd dir args h.eligible hread hscan
    hsel (List.ne_nil_of_mem hsvc)
  exact ⟨data, data', hread, congrArg DangerAction.newContents hplan, hrewritten.entry svc hsvc⟩

/-- Agreement, over the services found. -/
theorem rewriteAgrees_iff {files : Files} {scans : List ScanResult} {proxyCmd dir : String}
    {args : List String} (hscans : ∀ scan ∈ scans, ScannedFrom files scan) :
    RewriteAgrees files scans proxyCmd args dir ↔
      ∀ v ∈ found scans, Served (buildDaemonConfig (named scans) dir) (socketOf dir v.2) v.2 := by
  unfold RewriteAgrees
  rw [mergeServices_services]
  constructor
  · rintro h ⟨host, svc⟩ hv
    obtain ⟨scan, hscan, rfl, hsvc⟩ := mem_found.1 hv
    obtain ⟨data, data', hread, hnew, node, hnode, hraw⟩ :=
      (hscans scan hscan).entry hsvc proxyCmd dir args
    obtain ⟨node', raw, socket, hnode', hraw', hargs, hserved⟩ :=
      h scan hscan data data' hread hnew svc hsvc
    obtain rfl := Option.some.inj (hnode.symm.trans hnode')
    obtain rfl := Option.some.inj (hraw.symm.trans hraw')
    rw [proxyArgs_inj.1 (Option.some.inj hargs)]
    exact hserved
  · intro h scan hscan data data' hread hnew svc hsvc
    obtain ⟨data₀, data₁, hread', hnew', node, hnode, hraw⟩ :=
      (hscans scan hscan).entry hsvc proxyCmd dir args
    obtain rfl := Option.some.inj (hread.symm.trans hread')
    obtain rfl := Option.some.inj (hnew.symm.trans hnew')
    exact ⟨node, _, _, hnode, hraw, rfl, h (scan.host, svc) (mem_found.2 ⟨scan, hscan, rfl, hsvc⟩)⟩

theorem NamesKept.served {scans : List ScanResult} {dir : String} (h : NamesKept scans dir)
    {v : HostFile × HostService} (hv : v ∈ found scans) :
    Served (buildDaemonConfig (named scans) dir) (socketOf dir v.2) v.2 := by
  obtain ⟨w, hw, hwv, hname⟩ := exists_named_of_found hv
  obtain ⟨hprog, hws⟩ := servicesEquivalent_iff_sameProgram.1 hwv
  have hsock := socketOf_congr dir hws fun hs => hname (h.single v hv hs)
  exact h.socketsApart.served h.noneReused hw hprog hsock

/-- Of ordinary scans, names are kept where the two agree. -/
theorem namesKept_of_served {scans : List ScanResult} {dir : String} (hord : Ordinary scans dir)
    (h : ∀ v ∈ found scans, Served (buildDaemonConfig (named scans) dir) (socketOf dir v.2) v.2) :
    NamesKept scans dir := by
  have hnodup := named_nodup_iff.2 hord.noneReused
  refine ⟨hord.noneReused, fun w hw w' hw' heq => ?_, fun v hv hsock hconf => ?_⟩
  · rcases hs : w.socket with _ | s
    · -- a default socket: the names make it
      exact hord.name_eq_of_default hw hw' hs heq
    · -- a socket of its own: the entry it was found with names it
      obtain ⟨v, hv, hwv⟩ := exists_found_of_named hw
      have hsv := (servicesEquivalent_iff.1 hwv).2.2.2.2
      have hsock : socketOf dir w = socketOf dir v.2 :=
        socketOf_congr dir hsv fun hnone => by rw [← hsv, hs] at hnone; cases hnone
      obtain ⟨u, -, -, -, hone⟩ := (served_iff hnodup).1 (h v hv)
      exact (hone w hw hsock).trans (hone w' hw' (heq.symm.trans hsock)).symm
  · obtain ⟨w, hw, hws, -, -⟩ := (served_iff hnodup).1 (h v hv)
    have hwn := (hord.eq_of_socketOf hw (hord.relative v hv) (hord.ownApart v hv) hws).2 hsock
    exact hord.name_ne_of_conflicting hw hv hconf hwn

/-- **Rewritten clients agree with the daemon config when the merge keeps the names
that make sockets**, for every list of scans the danger flow plans on. Of
ordinary scans, where sockets and names are told apart by how they are
written, they agree then only. -/
theorem rewriteAgrees_of_namesKept (files : Files) (scans : List ScanResult) (proxyCmd : String)
    (args : List String) (dir : String) (hscans : ∀ scan ∈ scans, ScannedFrom files scan) :
    (NamesKept scans dir → RewriteAgrees files scans proxyCmd args dir) ∧
      (Ordinary scans dir →
        (RewriteAgrees files scans proxyCmd args dir ↔ NamesKept scans dir)) := by
  rw [rewriteAgrees_iff hscans]
  exact ⟨fun h _ => h.served, fun hord => ⟨namesKept_of_served hord, fun h _ => h.served⟩⟩

/-- A JSON file with one server. -/
def oneServerText (name command : String) : Text :=
  .ofJson (.object [("mcpServers", .object [(name, .object [("command", .string command)])])])

/-- Claude's file and Cursor's, each with a server called `memory`, and not the same. -/
def clashingFiles : Files := fun path =>
  some (oneServerText "memory" (if path.fileName = some ".claude.json" then "npx" else "uvx"))

/-- What is found in them. -/
def clashingScans : List ScanResult :=
  [⟨sampleHost .claude ".claude.json", [sampleService "memory" "npx"]⟩,
    ⟨sampleHost .cursor "mcp.json", [sampleService "memory" "uvx"]⟩]

theorem scannedFrom_clashing : ∀ scan ∈ clashingScans, ScannedFrom clashingFiles scan := by
  intro scan hscan
  rcases List.mem_cons.1 hscan with rfl | hscan
  · exact ⟨rfl, oneServerText "memory" "npx", _, rfl, by decide +kernel, List.Sublist.refl _⟩
  · obtain rfl := List.mem_singleton.1 hscan
    exact ⟨rfl, oneServerText "memory" "uvx", _, rfl, by decide +kernel, List.Sublist.refl _⟩

/-- Claude's file alone: nothing is renamed, and the two agree. -/
theorem rewriteAgrees_claude :
    RewriteAgrees clashingFiles
      [⟨sampleHost .claude ".claude.json", [sampleService "memory" "npx"]⟩]
      "rust-mux-proxy" [] "/mux/sockets" := by
  let scans : List ScanResult :=
    [⟨sampleHost .claude ".claude.json", [sampleService "memory" "npx"]⟩]
  have hscans : ∀ scan ∈ scans, ScannedFrom clashingFiles scan := fun scan hscan =>
    scannedFrom_clashing scan (List.mem_singleton.1 hscan ▸ List.mem_cons_self)
  have hapart : ∀ w ∈ named scans, ∀ w' ∈ named scans,
      socketOf "/mux/sockets" w = socketOf "/mux/sockets" w' → w.name = w'.name := by
    decide +kernel
  have hsingle : ∀ v ∈ found scans, v.2.socket = none → ¬ Conflicting scans v.2.name := by
    decide +kernel
  exact (rewriteAgrees_of_namesKept clashingFiles scans "rust-mux-proxy" [] "/mux/sockets"
    hscans).1 ⟨named_nodup_iff.1 (by decide +kernel), hapart, hsingle⟩

/-- **Both rewritten files name `memory.sock`, and no server listens there**: the
daemon config has `memory-from-claude` and `memory-from-cursor`. -/
theorem not_rewriteAgrees_clashing :
    ¬ ∀ (files : Files) (scans : List ScanResult) (proxyCmd : String) (args : List String)
      (dir : String), (∀ scan ∈ scans, ScannedFrom files scan) →
        RewriteAgrees files scans proxyCmd args dir := by
  intro h
  have hserved := (rewriteAgrees_iff scannedFrom_clashing).1
    (h clashingFiles clashingScans "rust-mux-proxy" [] "/mux/sockets" scannedFrom_clashing)
    (sampleHost .claude ".claude.json", sampleService "memory" "npx")
    (mem_found.2 ⟨_, List.mem_cons_self, rfl, List.mem_cons_self⟩)
  obtain ⟨name, cfg, hget, hsock, -⟩ := hserved
  obtain ⟨w, hw, -, rfl⟩ := HashMap.exists_of_get_fill hget
  have hnone : ∀ w ∈ named clashingScans,
      (serverConfig "/mux/sockets" w).socket ≠ some "/mux/sockets/memory.sock" := by
    decide +kernel
  exact hnone w hw hsock

end Config

end VcOperator
