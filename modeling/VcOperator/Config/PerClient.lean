import Mathlib.Data.List.Induction
import VcOperator.Config.Helpers.Sockets
/-!
# Per-client files and the daemon config

`build_per_client_outputs` merges twice: all scans for the daemon config,
and the scans of each kind of client for that client's file. A service
that has no socket of its own is reached under its name, so the two agree
on it exactly when both merges give it one name. They need not: a name
that two clients define differently is renamed in the daemon config and
kept in the client files.
-/

namespace VcOperator

namespace Config

/-! ## The groups -/

/-- The scans of one kind of client. -/
def scansOf (kind : HostKind) (scans : List ScanResult) : List ScanResult :=
  scans.filter fun scan => scan.host.kind = kind

theorem kinds_joinGroup (scan : ScanResult) (groups : List (HostFile × List ScanResult)) :
    (joinGroup scan groups).map (·.1.kind) =
      if scan.host.kind ∈ groups.map (·.1.kind) then groups.map (·.1.kind)
      else groups.map (·.1.kind) ++ [scan.host.kind] := by
  induction groups with
  | nil => rfl
  | cons g groups ih =>
    obtain ⟨host, grouped⟩ := g
    rw [joinGroup]
    split_ifs with hk hmem hmem
    · rfl
    · exact absurd (by simp [hk]) hmem
    · rw [List.map_cons, ih, if_pos]
      · rfl
      · rw [List.map_cons, List.mem_cons] at hmem
        exact hmem.resolve_left (Ne.symm hk)
    · rw [List.map_cons, ih, if_neg]
      · rfl
      · exact fun h => hmem (List.mem_cons_of_mem _ h)

/-- What one scan does to the groups. -/
theorem mem_joinGroup {scan : ScanResult} {groups : List (HostFile × List ScanResult)}
    (hnodup : (groups.map (·.1.kind)).Nodup) {g : HostFile × List ScanResult}
    (h : g ∈ joinGroup scan groups) :
    (g ∈ groups ∧ g.1.kind ≠ scan.host.kind) ∨
      (∃ grouped, (g.1, grouped) ∈ groups ∧ g.1.kind = scan.host.kind ∧
        g.2 = grouped ++ [scan]) ∨
      (g = (scan.host, [scan]) ∧ scan.host.kind ∉ groups.map (·.1.kind)) := by
  induction groups with
  | nil => exact .inr (.inr ⟨List.mem_singleton.1 h, List.not_mem_nil⟩)
  | cons g' groups ih =>
    obtain ⟨host, grouped⟩ := g'
    obtain ⟨hnew, hrest⟩ := List.nodup_cons.1 hnodup
    rw [joinGroup] at h
    -- the first group is the one of the kind, or the scan goes further down
    split_ifs at h with hk
    · rcases List.mem_cons.1 h with rfl | h
      · exact .inr (.inl ⟨grouped, List.mem_cons_self, hk, rfl⟩)
      · refine .inl ⟨List.mem_cons_of_mem _ h, fun heq => hnew ?_⟩
        exact List.mem_map.2 ⟨g, h, heq.trans hk.symm⟩
    · rcases List.mem_cons.1 h with rfl | h
      · exact .inl ⟨List.mem_cons_self, hk⟩
      · rcases ih hrest h with ⟨hg, hne⟩ | ⟨gs, hgs, hkind, happ⟩ | ⟨rfl, hnone⟩
        · exact .inl ⟨List.mem_cons_of_mem _ hg, hne⟩
        · exact .inr (.inl ⟨gs, List.mem_cons_of_mem _ hgs, hkind, happ⟩)
        · refine .inr (.inr ⟨rfl, ?_⟩)
          rw [List.map_cons, List.mem_cons]
          rintro (heq | hmem)
          · exact hk heq.symm
          · exact hnone hmem

/-- **The groups are the scans by kind**, one group for each kind. -/
theorem groups_spec (scans : List ScanResult) :
    let groups := scans.foldl (fun groups scan => joinGroup scan groups) []
    (groups.map (·.1.kind)).Nodup ∧ (∀ g ∈ groups, g.2 = scansOf g.1.kind scans) ∧
      ∀ kind, kind ∈ groups.map (·.1.kind) ↔ ∃ scan ∈ scans, scan.host.kind = kind := by
  induction scans using List.reverseRecOn with
  | nil => simp
  | append_singleton scans scan ih =>
    obtain ⟨hnodup, hgroups, hkinds⟩ := ih
    simp only [List.foldl_append, List.foldl_cons, List.foldl_nil]
    generalize scans.foldl (fun groups scan => joinGroup scan groups) [] = groups at *
    have hof : ∀ kind, scansOf kind (scans ++ [scan]) =
        scansOf kind scans ++ if scan.host.kind = kind then [scan] else [] := by
      intro kind
      rw [scansOf, List.filter_append]
      by_cases hk : scan.host.kind = kind <;> simp [scansOf, hk]
    refine ⟨?_, fun g hg => ?_, fun kind => ?_⟩
    · -- the kinds stay distinct
      rw [kinds_joinGroup]
      split_ifs with hmem
      · exact hnodup
      · exact List.nodup_append.2 ⟨hnodup, List.nodup_singleton _, fun a ha b hb => by
          rw [List.mem_singleton.1 hb]
          exact fun heq => hmem (heq ▸ ha)⟩
    · -- a group the scan passed by, the one it joined, or a new one
      rcases mem_joinGroup hnodup hg with ⟨hg, hne⟩ | ⟨grouped, hgs, hkind, happ⟩ | ⟨rfl, hnone⟩
      · rw [hof, if_neg (Ne.symm hne), List.append_nil, hgroups g hg]
      · rw [hof, if_pos hkind.symm, happ, ← hgroups _ hgs]
      · have hempty : scansOf scan.host.kind scans = [] := by
          refine List.filter_eq_nil_iff.2 fun s hs => ?_
          simpa using fun heq => hnone ((hkinds _).2 ⟨s, hs, heq⟩)
        rw [hof, hempty, if_pos rfl, List.nil_append]
    · rw [kinds_joinGroup]
      have hone : (∃ s ∈ scans ++ [scan], s.host.kind = kind) ↔
          (∃ s ∈ scans, s.host.kind = kind) ∨ kind = scan.host.kind := by
        constructor
        · rintro ⟨s, hs, rfl⟩
          rcases List.mem_append.1 hs with hs | hs
          · exact .inl ⟨s, hs, rfl⟩
          · rw [List.mem_singleton] at hs
            exact .inr (by rw [hs])
        · rintro (⟨s, hs, hk⟩ | rfl)
          · exact ⟨s, List.mem_append_left _ hs, hk⟩
          · exact ⟨scan, List.mem_append_right _ List.mem_cons_self, rfl⟩
      rw [hone, ← hkinds kind]
      split_ifs with hmem
      · refine ⟨.inl, ?_⟩
        rintro (h | rfl)
        · exact h
        · exact hmem
      · rw [List.mem_append, List.mem_singleton]

/-- The scans `group_scans_by_kind` makes: the merge of each kind. -/
theorem mem_groupScansByKind {scans : List ScanResult} {g : ScanResult}
    (h : g ∈ groupScansByKind scans) : g.services = named (scansOf g.host.kind scans) := by
  obtain ⟨group, hgroup, rfl⟩ := List.mem_map.1 h
  obtain ⟨-, hgroups, -⟩ := groups_spec scans
  show (mergeServices group.2).services = _
  rw [mergeServices_services, hgroups group hgroup]

theorem exists_group {scans : List ScanResult} {kind : HostKind}
    (h : ∃ scan ∈ scans, scan.host.kind = kind) :
    ∃ g ∈ groupScansByKind scans, g.host.kind = kind := by
  obtain ⟨-, -, hkinds⟩ := groups_spec scans
  obtain ⟨group, hgroup, hkind⟩ := List.mem_map.1 ((hkinds kind).2 h)
  exact ⟨_, List.mem_map.2 ⟨group, hgroup, rfl⟩, hkind⟩

/-! ## The entries -/

/-- The service an entry of a map was made from: the last one with its name. -/
def madeFrom (svcs : List HostService) (name : String) : Option HostService :=
  (svcs.filter fun svc => svc.name = name).getLast?

theorem mem_of_madeFrom {svcs : List HostService} {name : String} {svc : HostService}
    (h : madeFrom svcs name = some svc) : svc ∈ svcs ∧ svc.name = name := by
  have := List.mem_filter.1 (List.mem_of_getLast? h)
  exact ⟨this.1, by simpa using this.2⟩

theorem madeFrom_of_nodup {svcs : List HostService} (hnodup : (svcs.map HostService.name).Nodup)
    {svc : HostService} (h : svc ∈ svcs) : madeFrom svcs svc.name = some svc := by
  have hget : (HashMap.fill HostService.name id svcs).get svc.name = some svc :=
    HashMap.get_fill_of_nodup hnodup h
  rw [HashMap.get_fill, Option.map_id] at hget
  exact hget

/-- **Per-client files and daemon config agree**: every server entry of every file
names a socket that exactly one server of the daemon config listens on, and
that server runs the service the entry was made from. -/
def PerClientAgree (scans : List ScanResult) (muxDir proxyCmd : String) (args : List String) :
    Prop :=
  ∀ file ∈ (buildPerClientOutputs scans muxDir proxyCmd args).clients,
    ∀ name entry, file.contents.servers.get name = some entry →
      ∃ svc socket, madeFrom file.services name = some svc ∧
        entry.args = args ++ ["--socket", socket] ∧
        Served (buildPerClientOutputs scans muxDir proxyCmd args).configToml socket svc

/-- The map of a native payload. -/
theorem servers_clientNativePayload (scan : ScanResult) (dir proxyCmd : String)
    (args : List String) : (clientNativePayload scan dir proxyCmd args).2.2.servers =
      .fill HostService.name (clientServer dir proxyCmd args) scan.services := by
  unfold clientNativePayload
  split <;> rfl

/-- **The per-client files**: one for each kind of client that has a merged service, with
the map made of the services of its kind. -/
structure FileFor (scans : List ScanResult) (kind : HostKind) (dir proxyCmd : String)
    (args : List String) (file : PerClientFile) : Prop where
  services : file.services = named (scansOf kind scans)
  servers : file.contents.servers =
    .fill HostService.name (clientServer dir proxyCmd args) file.services

theorem exists_fileFor {scans : List ScanResult} {kind : HostKind} (muxDir proxyCmd : String)
    (args : List String) (hkind : ∃ scan ∈ scans, scan.host.kind = kind)
    (hne : named (scansOf kind scans) ≠ []) :
    ∃ file ∈ (buildPerClientOutputs scans muxDir proxyCmd args).clients,
      FileFor scans kind (defaultSocketDir muxDir) proxyCmd args file := by
  obtain ⟨g, hg, rfl⟩ := exists_group hkind
  have hservices := mem_groupScansByKind hg
  have hfull : g.services.isEmpty = false := by
    rw [hservices]
    exact List.isEmpty_eq_false_iff.2 hne
  let payload := clientNativePayload g (defaultSocketDir muxDir) proxyCmd args
  refine ⟨⟨g.host.kind, joinPath muxDir payload.1, payload.2.1, payload.2.2, g.services⟩,
    List.mem_filterMap.2 ⟨g, hg, ?_⟩, hservices, servers_clientNativePayload g _ proxyCmd args⟩
  rw [hfull]
  rfl

theorem fileFor_of_mem {scans : List ScanResult} {muxDir proxyCmd : String} {args : List String}
    {file : PerClientFile}
    (h : file ∈ (buildPerClientOutputs scans muxDir proxyCmd args).clients) :
    ∃ kind, (∃ scan ∈ scans, scan.host.kind = kind) ∧
      FileFor scans kind (defaultSocketDir muxDir) proxyCmd args file := by
  obtain ⟨g, hg, hmk⟩ := List.mem_filterMap.1 h
  split_ifs at hmk
  obtain rfl := Option.some.inj hmk
  have hservices := mem_groupScansByKind hg
  obtain ⟨group, hgroup, rfl⟩ := List.mem_map.1 hg
  exact ⟨_, ((groups_spec scans).2.2 _).1 (List.mem_map.2 ⟨group, hgroup, rfl⟩), hservices,
    servers_clientNativePayload _ _ proxyCmd args⟩

/-- Agreement, over the merged services of each kind. -/
theorem perClientAgree_iff {scans : List ScanResult} {muxDir proxyCmd : String}
    {args : List String} : PerClientAgree scans muxDir proxyCmd args ↔
      ∀ kind, (∃ scan ∈ scans, scan.host.kind = kind) →
        ∀ name svc, madeFrom (named (scansOf kind scans)) name = some svc →
          Served (buildDaemonConfig (named scans) (defaultSocketDir muxDir))
            (socketOf (defaultSocketDir muxDir) svc) svc := by
  have hdaemon : (buildPerClientOutputs scans muxDir proxyCmd args).configToml =
      buildDaemonConfig (named scans) (defaultSocketDir muxDir) := by
    rw [← mergeServices_services]
    rfl
  unfold PerClientAgree
  rw [hdaemon]
  constructor
  · -- a kind with a merged service has a file, and its entry is the one of the service
    intro h kind hkind name svc hsvc
    obtain ⟨file, hfile, hfor⟩ := exists_fileFor muxDir proxyCmd args hkind
      (List.ne_nil_of_mem (mem_of_madeFrom hsvc).1)
    rw [← hfor.services] at hsvc
    have hget : file.contents.servers.get name =
        some (clientServer (defaultSocketDir muxDir) proxyCmd args svc) := by
      rw [hfor.servers, HashMap.get_fill]
      exact congrArg _ hsvc
    obtain ⟨svc', socket, hmade, hargs, hserved⟩ := h file hfile name _ hget
    obtain rfl := Option.some.inj (hsvc.symm.trans hmade)
    rw [proxyArgs_inj.1 hargs]
    exact hserved
  · -- and an entry of a file is made from a service of the file
    intro h file hfile name entry hget
    obtain ⟨kind, hkind, hfor⟩ := fileFor_of_mem hfile
    rw [hfor.servers, HashMap.get_fill, Option.map_eq_some_iff] at hget
    obtain ⟨svc, hsvc, rfl⟩ := hget
    exact ⟨svc, _, hsvc, rfl, h kind hkind name svc (hfor.services ▸ hsvc)⟩

/-! ## When the two merges agree -/

theorem mem_found_scansOf {scans : List ScanResult} {kind : HostKind}
    {v : HostFile × HostService} :
    v ∈ found (scansOf kind scans) ↔ v ∈ found scans ∧ v.1.kind = kind := by
  simp only [mem_found, scansOf, List.mem_filter, decide_eq_true_eq]
  constructor
  · rintro ⟨scan, ⟨hscan, hkind⟩, hhost, hsvc⟩
    exact ⟨⟨scan, hscan, hhost, hsvc⟩, hhost ▸ hkind⟩
  · rintro ⟨⟨scan, hscan, hhost, hsvc⟩, hkind⟩
    exact ⟨scan, ⟨hscan, hhost ▸ hkind⟩, hhost, hsvc⟩

/-- A conflict within a kind is one overall. -/
theorem conflicting_of_scansOf {scans : List ScanResult} {kind : HostKind} {name : String}
    (h : Conflicting (scansOf kind scans) name) : Conflicting scans name := by
  obtain ⟨v, hv, w, hw, hvn, hwn, hdiff⟩ := conflicting_iff.1 h
  exact conflicting_iff.2
    ⟨v, (mem_found_scansOf.1 hv).1, w, (mem_found_scansOf.1 hw).1, hvn, hwn, hdiff⟩

/-- Within a kind, the variants of the kind are all there are. -/
theorem variantsOf_scansOf (scans : List ScanResult) (kind : HostKind) (name : String) :
    variantsOf (scansOf kind scans) name kind = definitions (scansOf kind scans) name :=
  List.filter_eq_self.2 fun v hv => by
    simpa using (mem_found_scansOf.1 (name_of_mem_definitions hv).1).2

theorem kind_of_variantsOf_scansOf {scans : List ScanResult} {kind kind' : HostKind}
    {name : String} {i : ℕ} {v : HostFile × HostService}
    (h : (variantsOf (scansOf kind scans) name kind')[i]? = some v) : kind' = kind := by
  obtain ⟨hv, hk⟩ := List.mem_filter.1 (List.mem_of_getElem? h)
  have hkind := (mem_found_scansOf.1 (name_of_mem_definitions hv).1).2
  exact (by simpa using hk : v.1.kind = kind').symm.trans hkind

/-- A name that is defined in two ways anywhere is defined in two ways by every
kind of client that needs it, and each definition without a socket of its own
has, among those of its kind, the place it has among all that were first found
with that kind. -/
def PlacesKept (scans : List ScanResult) : Prop :=
  ∀ name, Conflicting scans name → ∀ (kind : HostKind) (i : ℕ) (v : HostFile × HostService),
    (definitions (scansOf kind scans) name)[i]? = some v → v.2.socket = none →
      Conflicting (scansOf kind scans) name ∧ ∃ w : HostFile × HostService,
        (variantsOf scans name kind)[i]? = some w ∧ servicesEquivalent w.2 v.2 = true

/-- **When a service is reached under one name from both sides.** -/
structure NamedAlike (scans : List ScanResult) (dir : String) : Prop where
  noneReused : NoneReused scans
  socketsApart : SocketsApart scans dir
  placesKept : PlacesKept scans

/-- Then a service of a client's merge is, with its socket, one of the daemon's. -/
theorem NamedAlike.exists_named {scans : List ScanResult} {dir : String}
    (h : NamedAlike scans dir) {kind : HostKind} {svc : HostService}
    (hsvc : svc ∈ named (scansOf kind scans)) :
    ∃ w ∈ named scans, SameProgram w svc ∧ socketOf dir w = socketOf dir svc := by
  -- found with a socket of its own, it has that socket under every name
  have hown : ∀ s, svc.socket = some s →
      ∃ w ∈ named scans, SameProgram w svc ∧ socketOf dir w = socketOf dir svc := by
    intro s hs
    obtain ⟨v, hv, heq⟩ := exists_found_of_named hsvc
    obtain ⟨w, hw, hwv, -⟩ := exists_named_of_found (mem_found_scansOf.1 hv).1
    obtain ⟨hprog, hsock⟩ := servicesEquivalent_iff_sameProgram.1
      (servicesEquivalent_trans hwv (servicesEquivalent_symm heq))
    exact ⟨w, hw, hprog, socketOf_congr dir hsock fun hnone => by rw [hs] at hnone; cases hnone⟩
  rcases hsock : svc.socket with _ | s
  swap
  · exact hown s hsock
  rcases mem_named hsvc with ⟨v, hv, rfl⟩ | ⟨n, kind', i, v, hconf, hv, rfl⟩
  · -- the only definition its kind has of its name: no conflict anywhere
    have hmem : v ∈ definitions (scansOf kind scans) v.2.name := hv ▸ List.mem_cons_self
    have hsingle : ¬ Conflicting scans v.2.name := by
      intro hconf
      exact not_conflicting_of_single hv
        (h.placesKept _ hconf kind 0 v (by rw [hv]; rfl) hsock).1
    obtain ⟨w, hw, hwv, hname⟩ := exists_named_of_found
      (mem_found_scansOf.1 (name_of_mem_definitions hmem).1).1
    obtain ⟨hprog, hws⟩ := servicesEquivalent_iff_sameProgram.1 hwv
    exact ⟨w, hw, hprog, socketOf_congr dir hws fun _ => hname hsingle⟩
  · obtain rfl := kind_of_variantsOf_scansOf hv
    rw [variantsOf_scansOf] at hv
    obtain ⟨-, w, hw, hwv⟩ := h.placesKept n (conflicting_of_scansOf hconf) _ i v hv hsock
    obtain ⟨hprog, hws⟩ := servicesEquivalent_iff_sameProgram.1 hwv
    refine ⟨_, mem_named_of_variant (conflicting_of_scansOf hconf) hw, hprog, ?_⟩
    simp only [socketOf, hws]

theorem NamedAlike.agree {scans : List ScanResult} {muxDir : String}
    (h : NamedAlike scans (defaultSocketDir muxDir)) (proxyCmd : String) (args : List String) :
    PerClientAgree scans muxDir proxyCmd args := by
  refine perClientAgree_iff.2 fun kind _ name svc hsvc => ?_
  obtain ⟨w, hw, hprog, hsock⟩ := h.exists_named (mem_of_madeFrom hsvc).1
  exact h.socketsApart.served h.noneReused hw hprog hsock

/-! ## When they do not -/

theorem Ordinary.scansOf {scans : List ScanResult} {dir : String} (h : Ordinary scans dir)
    (kind : HostKind) : Ordinary (scansOf kind scans) dir where
  relative v hv := h.relative v (mem_found_scansOf.1 hv).1
  noneGiven v hv u hu := h.noneGiven v (mem_found_scansOf.1 hv).1 u (mem_found_scansOf.1 hu).1
  ownApart v hv := h.ownApart v (mem_found_scansOf.1 hv).1

/-- Of ordinary scans, what serves an entry is the service itself, under its name
where the name makes the socket. -/
theorem PerClientAgree.exists_named {scans : List ScanResult} {muxDir proxyCmd : String}
    {args : List String} (hord : Ordinary scans (defaultSocketDir muxDir))
    (h : PerClientAgree scans muxDir proxyCmd args) {kind : HostKind} {svc : HostService}
    (hsvc : svc ∈ named (scansOf kind scans)) :
    ∃ w ∈ named scans, servicesEquivalent w svc = true ∧ (svc.socket = none → w.name = svc.name) ∧
      ∀ w' ∈ named scans, socketOf (defaultSocketDir muxDir) w' =
        socketOf (defaultSocketDir muxDir) svc → w'.name = w.name := by
  obtain ⟨v, hv, heq⟩ := exists_found_of_named hsvc
  have hordk := hord.scansOf kind
  have hkind : ∃ scan ∈ scans, scan.host.kind = kind := by
    obtain ⟨hv, hkind⟩ := mem_found_scansOf.1 hv
    obtain ⟨scan, hscan, hhost, -⟩ := mem_found.1 hv
    exact ⟨scan, hscan, by rw [← hhost, hkind]⟩
  have hserved := perClientAgree_iff.1 h kind hkind svc.name svc
    (madeFrom_of_nodup (named_nodup_iff.2 hordk.noneReused) hsvc)
  obtain ⟨w, hw, hsock, hprog, hone⟩ :=
    (served_iff (named_nodup_iff.2 hord.noneReused)).1 hserved
  have hown : ∀ s, svc.socket = some s → ∀ x, Relative x →
      s ≠ joinPath (defaultSocketDir muxDir) (x ++ ".sock") := by
    intro s hs
    exact hordk.ownApart v hv s ((servicesEquivalent_iff.1 heq).2.2.2.2 ▸ hs)
  obtain ⟨hws, hname⟩ := hord.eq_of_socketOf hw (hordk.relative_named hsvc) hown hsock
  exact ⟨w, hw, servicesEquivalent_iff_sameProgram.2 ⟨hprog, hws⟩, hname, hone⟩

theorem PerClientAgree.socketsApart {scans : List ScanResult} {muxDir proxyCmd : String}
    {args : List String} (hord : Ordinary scans (defaultSocketDir muxDir))
    (h : PerClientAgree scans muxDir proxyCmd args) :
    SocketsApart scans (defaultSocketDir muxDir) := by
  intro w hw w' hw' heq
  obtain ⟨v, hv, hwv⟩ := exists_found_of_named hw
  have hsv := (servicesEquivalent_iff.1 hwv).2.2.2.2
  rcases hs : w.socket with _ | s
  · -- a default socket: the names make it
    exact hord.name_eq_of_default hw hw' hs heq
  · -- a socket of its own: an entry of a client names it
    have hvk : v ∈ found (scansOf v.1.kind scans) := mem_found_scansOf.2 ⟨hv, rfl⟩
    obtain ⟨svc, hsvc, hsvcv, -⟩ := exists_named_of_found hvk
    obtain ⟨u, -, -, -, hone⟩ := h.exists_named hord hsvc
    have hsvcs : svc.socket = some s := by
      rw [(servicesEquivalent_iff.1 hsvcv).2.2.2.2, ← hsv, hs]
    have hsock : socketOf (defaultSocketDir muxDir) w = socketOf (defaultSocketDir muxDir) svc :=
      socketOf_congr _ (hs.trans hsvcs.symm) fun hnone => by rw [hsvcs] at hnone; cases hnone
    exact (hone w hw hsock).trans (hone w' hw' (heq.symm.trans hsock)).symm

theorem PerClientAgree.placesKept {scans : List ScanResult} {muxDir proxyCmd : String}
    {args : List String} (hord : Ordinary scans (defaultSocketDir muxDir))
    (h : PerClientAgree scans muxDir proxyCmd args) : PlacesKept scans := by
  intro name hconf kind i v hv hsock
  have hmem : v ∈ definitions (scansOf kind scans) name := List.mem_of_getElem? hv
  obtain ⟨hfound, hname⟩ := name_of_mem_definitions hmem
  by_cases hlocal : Conflicting (scansOf kind scans) name
  · refine ⟨hlocal, ?_⟩
    have hv' : (variantsOf (scansOf kind scans) name kind)[i]? = some v := by
      rw [variantsOf_scansOf]
      exact hv
    obtain ⟨w, hw, heq, hwname, -⟩ := h.exists_named hord (mem_named_of_variant hlocal hv')
    have hwn : w.name = variantName name kind i := hwname hsock
    -- the daemon has it as a variant, of this conflict and at this place
    rcases mem_named hw with ⟨u, hu, rfl⟩ | ⟨n, kind', j, u, hconf', hu, rfl⟩
    · have humem : u ∈ definitions scans u.2.name := hu ▸ List.mem_cons_self
      subst hname
      exact absurd hwn (hord.noneGiven u (name_of_mem_definitions humem).1 v
        (mem_found_scansOf.1 hfound).1 kind i)
    · obtain ⟨rfl, rfl, rfl⟩ := variantName_injective hwn
      exact ⟨u, hu, heq⟩
  · -- kept by its client, the name is one the daemon config does not have
    exfalso
    subst hname
    obtain ⟨w, hw, -, hwname, -⟩ := h.exists_named hord (mem_named_of_single hmem hlocal)
    exact hord.name_ne_of_conflicting hw (mem_found_scansOf.1 hfound).1 hconf (hwname hsock)

/-- **Per-client files agree with the daemon config when services are named alike
in both merges**, for every list of scans, mux directory, proxy command and
arguments. Of ordinary scans, where sockets and names are told apart by how
they are written, they agree then only. -/
theorem perClientAgree_of_namedAlike (scans : List ScanResult) (muxDir proxyCmd : String)
    (args : List String) :
    (NamedAlike scans (defaultSocketDir muxDir) → PerClientAgree scans muxDir proxyCmd args) ∧
      (Ordinary scans (defaultSocketDir muxDir) →
        (PerClientAgree scans muxDir proxyCmd args ↔
          NamedAlike scans (defaultSocketDir muxDir))) := by
  refine ⟨fun h => h.agree proxyCmd args, fun hord => ⟨fun h => ?_, fun h => h.agree proxyCmd args⟩⟩
  exact ⟨hord.noneReused, h.socketsApart hord, h.placesKept hord⟩

/-- Claude and Codex each have one server called `memory`, and not the same. -/
def driftingScans : List ScanResult :=
  [⟨sampleHost .claude ".claude.json", [sampleService "memory" "npx"]⟩,
    ⟨sampleHost .codex "config.toml", [sampleService "memory" "uvx"]⟩]

/-- **The file for Claude names `memory.sock`, and no server listens there**: the
daemon config has `memory-from-claude` and `memory-from-codex`. -/
theorem not_perClientAgree_driftingScans :
    ¬ ∀ (scans : List ScanResult) (muxDir proxyCmd : String) (args : List String),
      PerClientAgree scans muxDir proxyCmd args := by
  intro h
  have hagree := h driftingScans "/home/u/.config/mux" "rust-mux-proxy" []
  have hserved := perClientAgree_iff.1 hagree .claude ⟨_, List.mem_cons_self, rfl⟩ "memory"
    (sampleService "memory" "npx") (by decide +kernel)
  obtain ⟨name, cfg, hget, hsock, -⟩ := hserved
  obtain ⟨w, hw, -, rfl⟩ := HashMap.exists_of_get_fill hget
  have hnone : ∀ w ∈ named driftingScans, (serverConfig "/home/u/.config/mux/sockets" w).socket ≠
      some "/home/u/.config/mux/sockets/memory.sock" := by decide +kernel
  exact hnone w hw hsock

end Config

end VcOperator
