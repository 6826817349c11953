import VcOperator.Config.Helpers.Documents
import VcOperator.Config.Helpers.VariantNames
import VcOperator.Control.Model.Verify
/-!
# Where the verify gate holds

The gate is open when the scan finds no server that fails a test of its
command line. So what the scan does not find is not tested: files that do
not parse, servers without a command, the map it passes over. And the test
is whether two words occur anywhere. On the other side, the client takes
every answer that is not a refusal for a permission.
-/

namespace VcOperator

namespace Control

open Config

/-! ## What the gate is to say -/

/-- An entry launches the mux proxy: the binary of that name, or the `proxy` command
of the mux itself. -/
def launchesMux (raw : RawServer) : Bool :=
  match raw.command with
  | none => false
  | some command =>
    basename command = "rust-mux-proxy".toList ||
      (decide (basename command ∈ ["rust-mux".toList, "mux-agent".toList]) &&
        decide ((raw.args.getD []).head? = some "proxy"))

/-- The keys of a source under which its client looks for servers. -/
def serverMaps (file : HostFile) : List String :=
  match file.format, file.schema with
  | .toml, _ => ["mcp_servers"]
  | .json, .mcpServersJson => ["mcpServers"]
  | .json, .serversJson => ["servers"]
  | .json, .autoJson | .json, .mcpServersToml => ["mcpServers", "servers"]

/-- A server entry launches the mux proxy. -/
def Proxied (node : Config.Node) : Prop := ∃ raw, node.raw = some raw ∧ launchesMux raw = true

/-- A file can be read and parsed. -/
def Readable (home : Home) (file : HostFile) (data : Text) : Prop :=
  home.files file.path = some data ∧ (data.root file.format).isSome

/-- **Every server of a client goes through the mux**: each of its existing files can
be read and parsed, and every entry of its server maps launches the proxy. -/
def AllProxied (home : Home) (kind : HostKind) : Prop :=
  ∀ file ∈ discoverHosts home, file.kind = kind → ∃ data, Readable home file data ∧
    ∀ key ∈ serverMaps file, ∀ name node, entryAt file data key name = some node → Proxied node

/-- The scan finds an entry. -/
def Seen (file : HostFile) (data : Text) (key name : String) : Prop :=
  key = scannedKey file data ∧
    ∃ found, scanText data file = .ok found ∧ ∃ srv ∈ found, srv.name = name

/-- **The gate has no gap** for a client. -/
structure NoGap (home : Home) (kind : HostKind) : Prop where
  /-- Every file can be read and parsed. -/
  parses : ∀ file ∈ discoverHosts home, file.kind = kind → ∃ data, Readable home file data
  /-- What the scan does not find launches the proxy. -/
  unseen : ∀ file ∈ discoverHosts home, file.kind = kind → ∀ data, Readable home file data →
    ∀ key ∈ serverMaps file, ∀ name node, entryAt file data key name = some node →
      ¬ Seen file data key name → Proxied node
  /-- What the scan finds and names the mux launches the proxy. -/
  named : ∀ scan ∈ scanHosts home, scan.host.kind = kind → ∀ srv ∈ scan.services,
    namesMux srv = true →
      launchesMux ⟨some srv.command, some srv.args, none, none, none, none⟩ = true

/-- The scan finds a server that does not name the mux, and the gate is shut. -/
def Refuses (home : Home) (kind : HostKind) : Prop :=
  ∃ scan ∈ scanHosts home, scan.host.kind = kind ∧ ∃ srv ∈ scan.services, namesMux srv = false

/-! ## The answer -/

theorem handleVerify_ok_iff {home : Home} {kind : ClientKind} {clientType : HostKind}
    (hkind : kind.host = some clientType) :
    (handleVerify home kind).ok = true ↔ ¬ Refuses home clientType := by
  unfold handleVerify Refuses
  rw [hkind]
  simp only [List.isEmpty_iff, List.flatMap_eq_nil_iff]
  constructor
  · rintro h ⟨scan, hscan, hk, srv, hsrv, hname⟩
    have := h scan hscan
    rw [hk, if_neg (not_not.2 rfl), List.map_eq_nil_iff, List.filter_eq_nil_iff] at this
    exact this srv hsrv (by rw [hname]; rfl)
  · intro h scan hscan
    by_cases hk : scan.host.kind = clientType
    · rw [hk, if_neg (not_not.2 rfl), List.map_eq_nil_iff, List.filter_eq_nil_iff]
      intro srv hsrv hname
      exact h ⟨scan, hscan, hk, srv, hsrv, by simpa using hname⟩
    · rw [if_pos fun heq => hk (asLabel_injective heq)]

/-- The scanned map is one of the server maps. -/
theorem scannedKey_mem_serverMaps (file : HostFile) (data : Text) :
    scannedKey file data ∈ serverMaps file := by
  unfold scannedKey serverMaps
  cases file.format with
  | toml => simp
  | json =>
    cases file.schema with
    | mcpServersJson => simp
    | serversJson => simp
    | autoJson => simp only; split_ifs <;> simp
    | mcpServersToml => simp only; split_ifs <;> simp

/-- What a scan reads of an entry is what the entry launches. -/
theorem launchesMux_of_toHostService {raw : RawServer} {name : String} {srv : HostService}
    (h : raw.toHostService name = some srv) : launchesMux raw =
      launchesMux ⟨some srv.command, some srv.args, none, none, none, none⟩ := by
  obtain ⟨command, hcmd, rfl⟩ := Option.map_eq_some_iff.1 h
  simp only [launchesMux, hcmd, Option.getD_some]

/-- **Where nothing the scan finds is refused, the gate is right exactly if it has no
gap.** -/
theorem allProxied_iff_noGap {home : Home} {kind : HostKind} (h : ¬ Refuses home kind) :
    AllProxied home kind ↔ NoGap home kind := by
  constructor
  · intro hall
    refine ⟨fun file hfile hk => ?_, fun file hfile hk data hdata key hkey name node hnode _ => ?_,
      fun scan hscan hk srv hsrv _ => ?_⟩
    · obtain ⟨data, hdata, -⟩ := hall file hfile hk
      exact ⟨data, hdata⟩
    · obtain ⟨data', hdata', hentries⟩ := hall file hfile hk
      obtain rfl := Option.some.inj (hdata.1.symm.trans hdata'.1)
      exact hentries key hkey name node hnode
    · -- what the scan found is an entry of the map it reads
      obtain ⟨hfile, data, hread, htext⟩ := mem_scanAll.1 hscan
      obtain ⟨data', hdata', hentries⟩ := hall scan.host hfile hk
      obtain rfl := Option.some.inj (hread.symm.trans hdata'.1)
      obtain ⟨node, hnode, hbind⟩ := ((foundUnder_scannedKey htext).mem srv).1 hsrv
      obtain ⟨raw, hraw, hsome⟩ := Option.bind_eq_some_iff.1 hbind
      obtain ⟨raw', hraw', hlaunch⟩ :=
        hentries _ (scannedKey_mem_serverMaps _ _) srv.name node hnode
      obtain rfl := Option.some.inj (hraw.symm.trans hraw')
      rw [← launchesMux_of_toHostService hsome]
      exact hlaunch
  · intro hgap file hfile hk
    obtain ⟨data, hdata⟩ := hgap.parses file hfile hk
    refine ⟨data, hdata, fun key hkey name node hnode => ?_⟩
    -- found, it names the mux, or the gate were shut; not found, it is one of the gap
    by_cases hseen : Seen file data key name
    · obtain ⟨rfl, found, htext, srv, hsrv, rfl⟩ := hseen
      have hscan : (⟨file, found⟩ : ScanResult) ∈ scanHosts home :=
        mem_scanAll.2 ⟨hfile, data, hdata.1, htext⟩
      have hnames : namesMux srv = true := by
        by_contra hnot
        exact h ⟨⟨file, found⟩, hscan, hk, srv, hsrv, by simpa using hnot⟩
      obtain ⟨node', hnode', hbind⟩ := ((foundUnder_scannedKey htext).mem srv).1 hsrv
      obtain rfl := Option.some.inj (hnode.symm.trans hnode')
      obtain ⟨raw, hraw, hsome⟩ := Option.bind_eq_some_iff.1 hbind
      refine ⟨raw, hraw, ?_⟩
      rw [launchesMux_of_toHostService hsome]
      exact hgap.named _ hscan hk srv hsrv hnames
    · exact hgap.unseen file hfile hk data hdata key hkey name node hnode hseen

/-! ## Before a launch -/

variable {σ ε : Type}

/-- The peer has answered that all is well. -/
def Vouches (decode : String → Option (MuxControlResponse σ ε)) (peer : Peer) : Prop :=
  ∃ line res, responseLine peer = some line ∧ decode line = some (.verifyResult res) ∧
    res.ok = true

/-- A line the peer answers, if there is one, is a verify result. -/
def AnswersInKind (decode : String → Option (MuxControlResponse σ ε)) (peer : Peer) : Prop :=
  ∀ line, responseLine peer = some line → line ≠ "" → ∃ res, decode line = some (.verifyResult res)

/-- **A permission is an answer, exactly if answers are verify results.** -/
theorem preLaunchVerify_iff {decode : String → Option (MuxControlResponse σ ε)} {peer : Peer}
    (hpeer : peer ≠ .down) :
    (preLaunchVerify decode peer = .ok () → Vouches decode peer) ↔ AnswersInKind decode peer := by
  cases peer with
  | down => exact absurd rfl hpeer
  | deaf => exact ⟨fun _ _ h => (nomatch h), fun _ h => by cases h⟩
  | answers bytes closes =>
    simp only [preLaunchVerify, Vouches, AnswersInKind]
    cases hline : responseLine (.answers bytes closes) with
    | none => exact ⟨fun _ _ h => (nomatch h), fun _ h => by cases h⟩
    | some line =>
      by_cases hempty : line = ""
      · simp [hempty]
      simp only [if_neg hempty, Option.some.injEq]
      cases hres : decode line with
      | none => simpa [hres] using hempty
      | some resp =>
        -- every answer but a refusal is `Ok`, so those of another kind have to be ruled out
        cases resp with
        | verifyResult res => cases hok : res.ok <;> simp [hres, hok]
        | ok => simpa [hres] using hempty
        | status snapshot => simpa [hres] using hempty
        | routes routes => simpa [hres] using hempty
        | event event => simpa [hres] using hempty
        | error message => simpa [hres] using hempty
        | unimplemented => simpa [hres] using hempty

/-! ## The gate -/

/-- **The gate is sound exactly where it shuts for a server it finds, or has no gap**,
for every home directory and every kind of client that has files; **and on the
client's side exactly where answers are verify results**. -/
theorem gate_iff (home : Home) (kind : ClientKind) (clientType : HostKind)
    (hkind : kind.host = some clientType) (decode : String → Option (MuxControlResponse σ ε))
    (peer : Peer) (hpeer : peer ≠ .down) :
    (((handleVerify home kind).ok = true → AllProxied home clientType) ↔
        Refuses home clientType ∨ NoGap home clientType) ∧
      ((preLaunchVerify decode peer = .ok () → Vouches decode peer) ↔
        AnswersInKind decode peer) := by
  refine ⟨?_, preLaunchVerify_iff hpeer⟩
  rw [handleVerify_ok_iff hkind]
  by_cases h : Refuses home clientType
  · exact ⟨fun _ => .inl h, fun _ hnot => absurd h hnot⟩
  · rw [allProxied_iff_noGap h]
    exact ⟨fun hgap => .inr (hgap h), fun hor _ => hor.resolve_left h⟩

/-- A home directory where Claude's file has one entry. -/
def claudeHome (entry : Value) : Home where
  dir := "/home/u"
  exist path := path = ⟨"/home/u", some ".claude.json"⟩
  files path :=
    if path = ⟨"/home/u", some ".claude.json"⟩ then
      some (.ofJson (.object [("mcpServers", .object [("docs", entry)])]))
    else none

/-- What the mux answers when all is well. -/
def allWell : String :=
  "\x7b\"status\":\"VerifyResult\",\"payload\":\x7b\"ok\":true,\"non_mux_servers\":[]\x7d\x7d\n"

/-- An upstream server that is found, and a mux that answers. -/
theorem gate_iff_npx :
    let home := claudeHome (.object [("command", .string "npx")])
    let decode : String → Option (MuxControlResponse Unit Unit) := fun line =>
      if line = allWell then some (.verifyResult ⟨true, []⟩) else none
    let peer := Peer.answers allWell.toUTF8.data.toList true
    ((handleVerify home .claude).ok = true → AllProxied home .claude) ∧
      (preLaunchVerify decode peer = .ok () → Vouches decode peer) := by
  intro home decode peer
  have hline : responseLine peer = some allWell := by decide +kernel
  have hrefuses : ∃ scan ∈ scanHosts home, scan.host.kind = .claude ∧
      ∃ srv ∈ scan.services, namesMux srv = false := by decide +kernel
  have hgate := gate_iff home .claude .claude rfl decode peer (by nofun)
  refine ⟨hgate.1.2 (.inl hrefuses), hgate.2.2 fun line heq _ => ⟨⟨true, []⟩, ?_⟩⟩
  obtain rfl := Option.some.inj (hline.symm.trans heq)
  exact if_pos rfl

/-- **A remote server passes the gate**, because the scan does not find it; **and an
empty line passes for a permission**. -/
theorem not_gate :
    (¬ ∀ (home : Home) (kind : ClientKind) (clientType : HostKind),
        kind.host = some clientType → (handleVerify home kind).ok = true →
          AllProxied home clientType) ∧
      ¬ ∀ (decode : String → Option (MuxControlResponse Unit Unit)) (peer : Peer),
        peer ≠ .down → preLaunchVerify decode peer = .ok () → Vouches decode peer := by
  constructor
  · intro h
    have hall := h (claudeHome (.object [("type", .string "http")])) .claude .claude rfl
      (by decide +kernel)
    obtain ⟨data, ⟨hread, -⟩, hentries⟩ := hall
      (source "/home/u" .claude "" ".claude.json" .json .mcpServersJson true)
      (by decide +kernel) rfl
    obtain rfl := Option.some.inj hread
    obtain ⟨raw, hraw, hlaunch⟩ := hentries "mcpServers" (by decide) "docs"
      (.json (.object [("type", .string "http")])) rfl
    have hnone : (rawServerOfJson (.object [("type", .string "http")])).map launchesMux =
        some false := by decide +kernel
    rw [show rawServerOfJson (.object [("type", .string "http")]) = some raw from hraw,
      Option.map_some, hlaunch] at hnone
    cases hnone
  · intro h
    obtain ⟨line, res, hline, hdecode, -⟩ := h (fun _ => none) (.answers [10] true) nofun
      (by decide +kernel)
    cases hdecode

end Control

end VcOperator
