import VcOperator.Config.DistinctNames
/-!
# Who listens on a socket

The daemon config says which server listens on which socket; a client
entry names a socket after `--socket`. `Served` is what the two owe each
other: one server listens there, and it runs what the entry stands for.
Over services with distinct names it is a statement about the services
themselves (`served_iff`).

The last section has what the agreement results share: `SocketsApart`,
under which a socket determines a server, and `Ordinary`, the inputs on
which a default socket determines a name.
-/

namespace VcOperator

namespace Config

/-- A server runs the command, args, cwd and env of a service. -/
def Runs (cfg : ServerConfig) (svc : HostService) : Prop :=
  cfg.cmd = some svc.command ∧ cfg.args = some svc.args ∧ cfg.cwd = svc.cwd ∧ cfg.env = svc.env

/-- **Exactly one server of the daemon listens on the socket, and it runs the
service.** -/
def Served (daemon : DaemonConfig) (socket : String) (svc : HostService) : Prop :=
  ∃ name cfg, daemon.servers.get name = some cfg ∧ cfg.socket = some socket ∧ Runs cfg svc ∧
    ∀ name' cfg', daemon.servers.get name' = some cfg' → cfg'.socket = some socket → name' = name

/-- Two services run the same program. -/
def SameProgram (a b : HostService) : Prop :=
  a.command = b.command ∧ a.args = b.args ∧ a.cwd = b.cwd ∧ a.env = b.env

theorem servicesEquivalent_iff_sameProgram {a b : HostService} :
    servicesEquivalent a b = true ↔ SameProgram a b ∧ a.socket = b.socket := by
  rw [servicesEquivalent_iff, SameProgram]
  tauto

theorem runs_serverConfig {dir : String} {w svc : HostService} :
    Runs (serverConfig dir w) svc ↔ SameProgram w svc := by
  simp [Runs, serverConfig, SameProgram]

/-- The servers of the daemon are the services, when no name is lost. -/
theorem get_daemon_iff {svcs : List HostService} {dir name : String} {cfg : ServerConfig}
    (hnodup : (svcs.map HostService.name).Nodup) :
    (buildDaemonConfig svcs dir).servers.get name = some cfg ↔
      ∃ w ∈ svcs, w.name = name ∧ cfg = serverConfig dir w := by
  constructor
  · intro h
    obtain ⟨w, hw, hname, hcfg⟩ := HashMap.exists_of_get_fill h
    exact ⟨w, hw, hname, hcfg.symm⟩
  · rintro ⟨w, hw, rfl, rfl⟩
    exact HashMap.get_fill_of_nodup hnodup hw

/-- `Served`, over the services the daemon config was built from. -/
theorem served_iff {svcs : List HostService} {dir socket : String} {svc : HostService}
    (hnodup : (svcs.map HostService.name).Nodup) :
    Served (buildDaemonConfig svcs dir) socket svc ↔
      ∃ w ∈ svcs, socketOf dir w = socket ∧ SameProgram w svc ∧
        ∀ w' ∈ svcs, socketOf dir w' = socket → w'.name = w.name := by
  constructor
  · rintro ⟨name, cfg, hget, hsocket, hruns, hone⟩
    obtain ⟨w, hw, rfl, rfl⟩ := (get_daemon_iff hnodup).1 hget
    refine ⟨w, hw, Option.some.inj hsocket, runs_serverConfig.1 hruns, fun w' hw' hs => ?_⟩
    exact hone w'.name _ ((get_daemon_iff hnodup).2 ⟨w', hw', rfl, rfl⟩) (congrArg some hs)
  · rintro ⟨w, hw, hsocket, hprog, hone⟩
    refine ⟨w.name, serverConfig dir w, (get_daemon_iff hnodup).2 ⟨w, hw, rfl, rfl⟩,
      congrArg some hsocket, runs_serverConfig.2 hprog, fun name' cfg' hget hs => ?_⟩
    obtain ⟨w', hw', rfl, rfl⟩ := (get_daemon_iff hnodup).1 hget
    exact hone w' hw' (Option.some.inj hs)

/-! ## Default sockets -/

/-- A name that a directory can be joined with. -/
def Relative (name : String) : Prop := name.toList.head? ≠ some '/'

instance (name : String) : Decidable (Relative name) :=
  inferInstanceAs (Decidable (¬ _))

theorem joinPath_sock {dir name : String} (h : Relative name) :
    joinPath dir (name ++ ".sock") =
      (if dir.toList.getLast? = some '/' ∨ dir = "" then dir else dir ++ "/") ++ name ++
        ".sock" := by
  have hhead : (name ++ ".sock").toList.head? ≠ some '/' := by
    rw [String.toList_append]
    unfold Relative at h
    cases hl : name.toList with
    | nil => simp
    | cons c cs =>
      rw [hl] at h
      simpa using h
  rw [joinPath, if_neg hhead]
  split_ifs
  · rw [String.append_assoc]
  · simp only [String.append_assoc]

/-- A default socket determines the name it was made from. -/
theorem joinPath_injective {dir name name' : String} (h : Relative name) (h' : Relative name')
    (heq : joinPath dir (name ++ ".sock") = joinPath dir (name' ++ ".sock")) : name = name' := by
  rw [joinPath_sock h, joinPath_sock h', String.append_assoc, String.append_assoc] at heq
  have hl := congrArg String.toList heq
  simp only [String.toList_append] at hl
  exact String.toList_injective (List.append_cancel_right (List.append_cancel_left hl))

theorem relative_variantName {name : String} (h : Relative name) (kind : HostKind) (i : ℕ) :
    Relative (variantName name kind i) := by
  have hl : (variantName name kind i).toList =
      name.toList ++ ("-from-".toList ++ (numbered kind.asLabel i).toList) := by
    rw [variantName, numbered_append, String.toList_append, String.toList_append,
      List.append_assoc]
  unfold Relative at h ⊢
  rw [hl]
  cases hn : name.toList with
  | nil => simp
  | cons c cs =>
    rw [hn] at h
    simpa using h

/-! ## The merged services, one by one -/

/-- A merged service is the one definition of its name, or a variant of a conflict
under one of the conflict's names. -/
theorem mem_named {scans : List ScanResult} {w : HostService} (h : w ∈ named scans) :
    (∃ v, definitions scans w.name = [v] ∧ w = v.2) ∨
      ∃ (n : String) (kind : HostKind) (i : ℕ) (v : HostFile × HostService),
        Conflicting scans n ∧ (variantsOf scans n kind)[i]? = some v ∧
          w = { v.2 with name := variantName n kind i } := by
  obtain ⟨n, hn, hw⟩ := List.mem_flatMap.1 h
  by_cases hconf : Conflicting scans n
  · obtain ⟨kind, i, v, hv, rfl⟩ := (mem_outcome_of_conflicting hconf).1 hw
    exact .inr ⟨n, kind, i, v, hconf, hv, rfl⟩
  · obtain ⟨v, hv, hout⟩ := outcome_of_not_conflicting hn hconf
    rw [hout, List.mem_singleton] at hw
    subst hw
    have hname := (name_of_mem_definitions (hv ▸ List.mem_cons_self : v ∈ definitions scans n)).2
    exact .inl ⟨v, hname ▸ hv, rfl⟩

theorem mem_named_of_single {scans : List ScanResult} {v : HostFile × HostService}
    (h : v ∈ definitions scans v.2.name) (hsingle : ¬ Conflicting scans v.2.name) :
    v.2 ∈ named scans := by
  have hkey : v.2.name ∈ (byName scans).keys :=
    mem_keys_byName.2 ⟨v, (name_of_mem_definitions h).1, rfl⟩
  obtain ⟨u, hu, hout⟩ := outcome_of_not_conflicting hkey hsingle
  rw [hu, List.mem_singleton] at h
  refine List.mem_flatMap.2 ⟨v.2.name, hkey, ?_⟩
  rw [hout, h]
  exact List.mem_cons_self

theorem mem_named_of_variant {scans : List ScanResult} {n : String} {kind : HostKind} {i : ℕ}
    {v : HostFile × HostService} (hconf : Conflicting scans n)
    (hv : (variantsOf scans n kind)[i]? = some v) :
    { v.2 with name := variantName n kind i } ∈ named scans :=
  List.mem_flatMap.2 ⟨n, mem_keys_of_conflicting hconf,
    (mem_outcome_of_conflicting hconf).2 ⟨kind, i, v, hv, rfl⟩⟩

/-- **Every service found is among the merged ones**, up to its name, and with its
name when all the definitions of the name agree. -/
theorem exists_named_of_found {scans : List ScanResult} {v : HostFile × HostService}
    (h : v ∈ found scans) : ∃ w ∈ named scans, servicesEquivalent w v.2 = true ∧
      (¬ Conflicting scans v.2.name → w.name = v.2.name) := by
  obtain ⟨e, he, heq⟩ := exists_mem_definitions h
  have hname := (name_of_mem_definitions he).2
  by_cases hconf : Conflicting scans v.2.name
  · have hmem : e ∈ variantsOf scans v.2.name e.1.kind := List.mem_filter.2 ⟨he, by simp⟩
    obtain ⟨i, hi⟩ := List.getElem?_of_mem hmem
    exact ⟨_, mem_named_of_variant hconf hi, heq, fun h => absurd hconf h⟩
  · rw [← hname] at he hconf
    exact ⟨e.2, mem_named_of_single he hconf, heq, fun _ => hname⟩

/-- And every merged service was found, up to its name. -/
theorem exists_found_of_named {scans : List ScanResult} {w : HostService} (h : w ∈ named scans) :
    ∃ v ∈ found scans, servicesEquivalent w v.2 = true := by
  rcases mem_named h with ⟨v, hv, rfl⟩ | ⟨n, kind, i, v, -, hv, rfl⟩
  · have hmem : v ∈ definitions scans v.2.name := hv ▸ List.mem_cons_self
    exact ⟨v, (name_of_mem_definitions hmem).1, servicesEquivalent_refl _⟩
  · have hmem := (List.mem_filter.1 (List.mem_of_getElem? hv)).1
    exact ⟨v, (name_of_mem_definitions hmem).1, servicesEquivalent_refl _⟩

theorem named_nodup_iff {scans : List ScanResult} :
    ((named scans).map HostService.name).Nodup ↔ NoneReused scans := by
  rw [← mergeServices_services]
  exact nodup_names_iff scans

/-! ## When sockets and names say the same -/

/-- Services with one socket field have one socket, if they have one name where the
field is empty. -/
theorem socketOf_congr (dir : String) {w svc : HostService} (h : w.socket = svc.socket)
    (hname : svc.socket = none → w.name = svc.name) : socketOf dir w = socketOf dir svc := by
  cases hs : svc.socket with
  | none => rw [socketOf, socketOf, h, hname hs]
  | some s =>
    rw [socketOf, socketOf, h, hs]
    rfl

/-- No two of the merged services have one socket. -/
def SocketsApart (scans : List ScanResult) (dir : String) : Prop :=
  ∀ w ∈ named scans, ∀ w' ∈ named scans, socketOf dir w = socketOf dir w' → w.name = w'.name

/-- Where names and sockets are told apart, a merged service with a socket serves it. -/
theorem SocketsApart.served {scans : List ScanResult} {dir socket : String}
    (h : SocketsApart scans dir) (hnone : NoneReused scans) {w svc : HostService}
    (hw : w ∈ named scans) (hprog : SameProgram w svc) (hsock : socketOf dir w = socket) :
    Served (buildDaemonConfig (named scans) dir) socket svc := by
  refine (served_iff (named_nodup_iff.2 hnone)).2 ⟨w, hw, hsock, hprog, fun w' hw' hs => ?_⟩
  exact h w' hw' w hw (hs.trans hsock.symm)

/-- Sockets and names are told apart by how they are written: no name starts with
`/`, no name found is a name that a conflict over another one could give,
and no socket of a service's own is a default one. -/
structure Ordinary (scans : List ScanResult) (dir : String) : Prop where
  relative : ∀ v ∈ found scans, Relative v.2.name
  noneGiven : ∀ v ∈ found scans, ∀ u ∈ found scans, ∀ kind i,
    v.2.name ≠ variantName u.2.name kind i
  ownApart : ∀ v ∈ found scans, ∀ s, v.2.socket = some s →
    ∀ x, Relative x → s ≠ joinPath dir (x ++ ".sock")

/-- A conflicting name was found. -/
theorem exists_found_of_conflicting {scans : List ScanResult} {n : String}
    (h : Conflicting scans n) : ∃ v ∈ found scans, v.2.name = n :=
  mem_keys_byName.1 (mem_keys_of_conflicting h)

theorem Ordinary.noneReused {scans : List ScanResult} {dir : String} (h : Ordinary scans dir) :
    NoneReused scans := by
  rintro s name kind i ⟨v, hv, rfl⟩ - hconf -
  obtain ⟨u, hu, rfl⟩ := exists_found_of_conflicting hconf
  exact h.noneGiven v hv u hu kind i

/-- Of ordinary scans, every merged name is relative. -/
theorem Ordinary.relative_named {scans : List ScanResult} {dir : String} (h : Ordinary scans dir)
    {w : HostService} (hw : w ∈ named scans) : Relative w.name := by
  rcases mem_named hw with ⟨v, hv, rfl⟩ | ⟨n, kind, i, v, hconf, -, rfl⟩
  · have hmem : v ∈ definitions scans v.2.name := hv ▸ List.mem_cons_self
    exact h.relative v (name_of_mem_definitions hmem).1
  · obtain ⟨u, hu, rfl⟩ := exists_found_of_conflicting hconf
    exact relative_variantName (h.relative u hu) kind i

/-- Of ordinary scans, the socket of a merged service tells its own socket or, if
it has none, its name. -/
theorem Ordinary.eq_of_socketOf {scans : List ScanResult} {dir : String} (h : Ordinary scans dir)
    {w : HostService} (hw : w ∈ named scans) {svc : HostService} (hrel : Relative svc.name)
    (hown : ∀ s, svc.socket = some s → ∀ x, Relative x → s ≠ joinPath dir (x ++ ".sock"))
    (heq : socketOf dir w = socketOf dir svc) :
    w.socket = svc.socket ∧ (svc.socket = none → w.name = svc.name) := by
  have hwrel := h.relative_named hw
  have hwown : ∀ s, w.socket = some s → ∀ x, Relative x → s ≠ joinPath dir (x ++ ".sock") := by
    intro s hs
    obtain ⟨v, hv, hveq⟩ := exists_found_of_named hw
    exact h.ownApart v hv s ((servicesEquivalent_iff.1 hveq).2.2.2.2 ▸ hs)
  unfold socketOf at heq
  -- a socket of its own is never a default one, so both are of one sort
  cases hs : svc.socket with
  | none =>
    cases hws : w.socket with
    | none =>
      rw [hs, hws] at heq
      exact ⟨rfl, fun _ => joinPath_injective hwrel hrel heq⟩
    | some s =>
      rw [hs, hws] at heq
      exact absurd heq (hwown s hws _ hrel)
  | some s =>
    cases hws : w.socket with
    | none =>
      rw [hs, hws] at heq
      exact absurd heq.symm (hown s hs _ hwrel)
    | some s' =>
      rw [hs, hws] at heq
      exact ⟨congrArg some heq, nofun⟩

/-- Two merged services with one socket, where it is a default one, have one name. -/
theorem Ordinary.name_eq_of_default {scans : List ScanResult} {dir : String}
    (h : Ordinary scans dir) {w w' : HostService} (hw : w ∈ named scans) (hw' : w' ∈ named scans)
    (hs : w.socket = none) (heq : socketOf dir w = socketOf dir w') : w.name = w'.name := by
  have hnone : ∀ s, w.socket = some s → ∀ x, Relative x → s ≠ joinPath dir (x ++ ".sock") := by
    intro s hs'
    rw [hs] at hs'
    cases hs'
  exact ((h.eq_of_socketOf hw' (h.relative_named hw) hnone heq.symm).2 hs).symm

/-- No merged service has a name that is defined in two ways. -/
theorem Ordinary.name_ne_of_conflicting {scans : List ScanResult} {dir : String}
    (h : Ordinary scans dir) {w : HostService} (hw : w ∈ named scans)
    {v : HostFile × HostService} (hv : v ∈ found scans) (hconf : Conflicting scans v.2.name) :
    w.name ≠ v.2.name := by
  intro hwn
  rcases mem_named hw with ⟨u, hu, rfl⟩ | ⟨n, kind, i, u, hconf', -, rfl⟩
  · rw [hwn] at hu
    exact not_conflicting_of_single hu hconf
  · obtain ⟨u', hu', rfl⟩ := exists_found_of_conflicting hconf'
    exact h.noneGiven v hv u' hu' kind i hwn.symm

end Config

end VcOperator
