import VcOperator.Common.Text
import VcOperator.Config.DistinctNames
import VcOperator.Config.MergeExact
import VcOperator.Config.Model.Wizard
/-!
# Where an entry comes from

The wizard attributes an entry to the first file that has its command line: the key of
the index joins the command, the arguments and the environment, and leaves out the name, the
directory and the socket. So an entry is attributed to the first file that has its service
where no other file has that command line before it.
-/

namespace VcOperator

namespace Config

variable {scans : List ScanResult} {scan scan' : ScanResult} {p : HostService → Prop}

/-! ## The first scan -/

/-- The scan is the first with a service of a kind. -/
def FirstWith (p : HostService → Prop) (scans : List ScanResult) (scan : ScanResult) : Prop :=
  ∃ before after, scans = before ++ scan :: after ∧ (∃ svc ∈ scan.services, p svc) ∧
    ∀ earlier ∈ before, ∀ svc ∈ earlier.services, ¬ p svc

theorem firstWith_iff [DecidablePred p] : FirstWith p scans scan ↔
    (scans.find? fun scan => scan.services.any (p ·)) = some scan := by
  rw [List.find?_eq_some_iff_append]
  simp only [List.any_eq_true, decide_eq_true_eq, Bool.not_eq_true', List.any_eq_false, FirstWith]
  constructor
  · rintro ⟨before, after, hsplit, hany, hbefore⟩
    exact ⟨hany, before, after, hsplit, hbefore⟩
  · rintro ⟨hany, before, after, hsplit, hbefore⟩
    exact ⟨before, after, hsplit, hany, hbefore⟩

/-- Some scan is the first, where one has such a service. -/
theorem exists_firstWith [DecidablePred p] {v : HostFile × HostService} (h : v ∈ found scans)
    (hp : p v.2) : ∃ scan, FirstWith p scans scan := by
  obtain ⟨scan, hscan, -, hsvc⟩ := mem_found.1 h
  have hsome : (scans.find? fun scan => scan.services.any (p ·)).isSome := by
    rw [List.find?_isSome]
    exact ⟨scan, hscan, List.any_eq_true.2 ⟨v.2, hsvc, decide_eq_true hp⟩⟩
  obtain ⟨first, hfirst⟩ := Option.isSome_iff_exists.1 hsome
  exact ⟨first, firstWith_iff.2 hfirst⟩

/-- And no other is. -/
theorem FirstWith.unique [DecidablePred p] (h : FirstWith p scans scan)
    (h' : FirstWith p scans scan') : scan = scan' :=
  Option.some.inj ((firstWith_iff.1 h).symm.trans (firstWith_iff.1 h'))

/-- **The first service of a kind is found in the first scan that has one.** -/
theorem find?_found [DecidablePred p] (h : FirstWith p scans scan) :
    ((found scans).find? (p ·.2)).map Prod.fst = some scan.host := by
  obtain ⟨before, after, rfl, ⟨svc, hsvc, hsat⟩, hbefore⟩ := h
  have hnone : (found before).find? (p ·.2) = none := by
    rw [List.find?_eq_none]
    intro v hv
    obtain ⟨earlier, hearlier, -, hmem⟩ := mem_found.1 hv
    simpa using hbefore earlier hearlier v.2 hmem
  have hsome : ((scan.services.map fun s => (scan.host, s)).find? (p ·.2)).isSome := by
    rw [List.find?_isSome]
    exact ⟨(scan.host, svc), List.mem_map_of_mem hsvc, decide_eq_true hsat⟩
  obtain ⟨v, hv⟩ := Option.isSome_iff_exists.1 hsome
  obtain ⟨s, -, rfl⟩ := List.mem_map.1 (List.mem_of_find?_eq_some hv)
  have hsplit : found (before ++ scan :: after) =
      found before ++ ((scan.services.map fun s => (scan.host, s)) ++ found after) := by
    rw [found, List.flatMap_append, List.flatMap_cons]
    rfl
  rw [hsplit, List.find?_append, hnone, Option.none_or, List.find?_append, hv, Option.some_or,
    Option.map_some]

/-- Services that are one service have one command line. -/
theorem svcKey_eq {svc svc' : HostService} (h : servicesEquivalent svc svc' = true) :
    svcKey svc = svcKey svc' := by
  obtain ⟨hcommand, hargs, -, henv, -⟩ := servicesEquivalent_iff.1 h
  rw [svcKey, svcKey, hcommand, hargs, henv]

/-- **The index holds the first file of each command line.** -/
theorem get_originIndex {key : String} (h : FirstWith (svcKey · = key) scans scan) :
    (originIndex scans).get key = some (scan.host.kind, scan.host.path) := by
  have hflat : originIndex scans = (found scans).foldl
      (fun m v => if (m.get (svcKey v.2)).isSome then m
        else m.insert (svcKey v.2) (v.1.kind, v.1.path)) ∅ := by
    rw [found, List.foldl_flatMap, originIndex]
    simp only [List.foldl_map]
  have hfirst := find?_found h
  rw [Option.map_eq_some_iff] at hfirst
  obtain ⟨v, hv, hhost⟩ := hfirst
  rw [hflat, HashMap.get_foldl_orInsert, HashMap.get_empty, Option.none_or, hv, Option.map_some,
    hhost]

/-! ## The key -/

/-- An entry of an environment, as the key has it. -/
def entryText (e : String × String) : List Char := e.1.toList ++ '=' :: e.2.toList

theorem entryText_inj {es es' : List (String × String)} (h : ∀ e ∈ es, '=' ∉ e.1.toList)
    (h' : ∀ e ∈ es', '=' ∉ e.1.toList) (heq : es.map entryText = es'.map entryText) : es = es' := by
  induction es generalizing es' with
  | nil => exact (List.map_eq_nil_iff.1 heq.symm).symm
  | cons e es ih =>
    cases es' with
    | nil => cases heq
    | cons e' es' =>
      obtain ⟨hhead, htail⟩ := List.cons.inj heq
      obtain ⟨hname, hvalue⟩ :=
        split_at_first (h e List.mem_cons_self) (h' e' List.mem_cons_self) hhead
      rw [Prod.ext (String.toList_injective hname) (String.toList_injective hvalue),
        ih (fun e he => h e (List.mem_cons_of_mem _ he))
          (fun e he => h' e (List.mem_cons_of_mem _ he)) htail]

/-- No text of the service has a separator of the key in it. -/
structure KeyPlain (svc : HostService) : Prop where
  command : '|' ∉ svc.command.toList
  args : ∀ arg ∈ svc.args, arg ≠ "" ∧ ' ' ∉ arg.toList ∧ '|' ∉ arg.toList
  env : ∀ e ∈ (svc.env.getD ∅).entries, '=' ∉ e.1.toList ∧ ',' ∉ e.1.toList ∧ ',' ∉ e.2.toList

theorem envSignature_eq (env : Option Env) : (envSignature env).toList =
    [','].intercalate ((env.getD ∅).entries.map entryText) := by
  cases env with
  | none => rfl
  | some env =>
    rw [envSignature, String.toList_intercalate, List.map_map, Option.getD_some]
    simp only [Function.comp_def, String.toList_append, List.append_assoc]
    rfl

/-- **Then the key tells the command, the arguments and the environment**, and nothing else. -/
theorem svcKey_inj {svc svc' : HostService} (h : KeyPlain svc) (h' : KeyPlain svc')
    (heq : svcKey svc = svcKey svc') : svc.command = svc'.command ∧ svc.args = svc'.args ∧
      (svc.env.getD ∅).entries = (svc'.env.getD ∅).entries := by
  have hkey : ∀ svc : HostService, (svcKey svc).toList = svc.command.toList ++
      '|' :: ([' '].intercalate (svc.args.map String.toList) ++
        '|' :: (envSignature svc.env).toList) := by
    intro svc
    simp [svcKey, String.toList_append, String.toList_intercalate]
  have hargs : ∀ {svc : HostService}, KeyPlain svc → ∀ arg ∈ svc.args.map String.toList,
      arg ≠ [] ∧ ' ' ∉ arg ∧ '|' ∉ arg := by
    intro svc h chars hmem
    obtain ⟨arg, harg, rfl⟩ := List.mem_map.1 hmem
    obtain ⟨hne, hblank, hbar⟩ := h.args arg harg
    exact ⟨fun hnil => hne (String.toList_injective hnil), hblank, hbar⟩
  have henv : ∀ {svc : HostService}, KeyPlain svc →
      ∀ chars ∈ (svc.env.getD ∅).entries.map entryText, chars ≠ [] ∧ ',' ∉ chars := by
    intro svc h chars hmem
    obtain ⟨e, he, rfl⟩ := List.mem_map.1 hmem
    obtain ⟨-, hname, hvalue⟩ := h.env e he
    simp [entryText, hname, hvalue]
  have hbar : ∀ {svc : HostService}, KeyPlain svc →
      '|' ∉ [' '].intercalate (svc.args.map String.toList) := fun h =>
    notMem_intercalate (by decide) fun arg harg => (hargs h arg harg).2.2
  have hchars := congrArg String.toList heq
  rw [hkey, hkey] at hchars
  obtain ⟨hcommand, hrest⟩ := split_at_first h.command h'.command hchars
  obtain ⟨hargsText, henvText⟩ := split_at_first (hbar h) (hbar h') hrest
  rw [envSignature_eq, envSignature_eq] at henvText
  refine ⟨String.toList_injective hcommand, ?_, ?_⟩
  · have hmap := intercalate_inj (fun arg harg => (hargs h arg harg).imp_right And.left)
      (fun arg harg => (hargs h' arg harg).imp_right And.left) hargsText
    exact List.map_injective_iff.2 (fun _ _ h => String.toList_injective h) hmap
  · exact entryText_inj (fun e he => (h.env e he).1) (fun e he => (h'.env e he).1)
      (intercalate_inj (henv h) (henv h') henvText)

/-! ## The entries -/

/-- A service is another one: it has its name, and runs what it runs. -/
def SameService (svc other : HostService) : Prop :=
  other.name = svc.name ∧ servicesEquivalent other svc = true

instance (svc : HostService) : DecidablePred (SameService svc) :=
  fun _ => inferInstanceAs (Decidable (_ ∧ _))

/-- **Provenance is right**: each entry is attributed to the first scan that has the service it
was made from, and never to a file that does not have it. -/
structure Provenance (scans : List ScanResult) : Prop where
  first : List.Forall₂ (fun v entry => ∃ scan, FirstWith (SameService v.2) scans scan ∧
    entry.source = .client scan.host.kind scan.host.path)
    (origins scans) (buildServicesFromScans scans)
  contained : List.Forall₂ (fun v entry => ∀ kind path, entry.source = .client kind path →
    ∃ scan ∈ scans, scan.host.kind = kind ∧ scan.host.path = path ∧
      ∃ svc ∈ scan.services, SameService v.2 svc)
    (origins scans) (buildServicesFromScans scans)

/-- The first file that has a service is the first that has its command line. -/
def FirstOfItsKey (scans : List ScanResult) (svc : HostService) : Prop :=
  ∀ scan scan', FirstWith (SameService svc) scans scan →
    FirstWith (svcKey · = svcKey svc) scans scan' →
    scan'.host.kind = scan.host.kind ∧ scan'.host.path = scan.host.path

/-- No service has its command line in another file, before the first that has it. -/
def NoneBorrowed (scans : List ScanResult) : Prop :=
  ∀ v ∈ found scans, FirstOfItsKey scans v.2

theorem firstOfItsKey_congr {svc svc' : HostService} (hname : svc.name = svc'.name)
    (heq : servicesEquivalent svc svc' = true) :
    FirstOfItsKey scans svc ↔ FirstOfItsKey scans svc' := by
  have hsame : SameService svc = SameService svc' := by
    funext other
    refine propext (and_congr (by rw [hname]) ⟨fun h => ?_, fun h => ?_⟩)
    · exact servicesEquivalent_trans h heq
    · exact servicesEquivalent_trans h (servicesEquivalent_symm heq)
  rw [FirstOfItsKey, FirstOfItsKey, hsame, svcKey_eq heq]

/-- The entry of a merged service, as `build_services_from_scans` attributes it. -/
def attributed (scans : List ScanResult) (svc : HostService) : ServiceSource :=
  match (originIndex scans).get (svcKey svc) with
  | some (kind, path) => .client kind path
  | none => .detectedRunning

/-- It is attributed to the first file that has its command line. -/
theorem attributed_eq {v : HostFile × HostService} {svc : HostService} (hmade : MadeFrom v svc)
    (h : FirstWith (svcKey · = svcKey v.2) scans scan) :
    attributed scans svc = .client scan.host.kind scan.host.path := by
  rw [attributed, svcKey_eq hmade.equivalent, get_originIndex h]

/-- **One entry** is attributed to the first file that has its service, if no other has its
command line before. -/
theorem attributed_first_iff {v : HostFile × HostService} {svc : HostService}
    (hv : v ∈ found scans) (hmade : MadeFrom v svc) :
    (∃ scan, FirstWith (SameService v.2) scans scan ∧
      attributed scans svc = .client scan.host.kind scan.host.path) ↔
      FirstOfItsKey scans v.2 := by
  obtain ⟨keyed, hkeyed⟩ := exists_firstWith (p := (svcKey · = svcKey v.2)) hv rfl
  rw [attributed_eq hmade hkeyed]
  constructor
  · rintro ⟨scan, hscan, hsource⟩ scan₁ scan' hscan₁ hscan'
    obtain rfl := hscan.unique hscan₁
    obtain rfl := hkeyed.unique hscan'
    exact ⟨(ServiceSource.client.inj hsource).1, (ServiceSource.client.inj hsource).2⟩
  · intro h
    obtain ⟨scan, hscan⟩ := exists_firstWith (p := SameService v.2) hv
      ⟨rfl, servicesEquivalent_refl _⟩
    obtain ⟨hkind, hpath⟩ := h scan keyed hscan hkeyed
    exact ⟨scan, hscan, by rw [hkind, hpath]⟩

/-- **All of them**, the entries in the order of what they were made from. -/
theorem forall₂_first_iff : List.Forall₂ (fun v entry => ∃ scan,
      FirstWith (SameService v.2) scans scan ∧
        entry.source = .client scan.host.kind scan.host.path)
      (origins scans) (buildServicesFromScans scans) ↔
    ∀ v ∈ origins scans, FirstOfItsKey scans v.2 := by
  rw [buildServicesFromScans, List.forall₂_map_right_iff]
  exact forall₂_iff_forall_mem (madeFrom_origins scans) fun v hv svc hmade =>
    attributed_first_iff (found_of_mem_origins hv) hmade

/-- **Provenance is right exactly where no command line is borrowed**, for every list of scans. -/
theorem provenance_iff (scans : List ScanResult) : Provenance scans ↔ NoneBorrowed scans := by
  constructor
  · intro h v hv
    obtain ⟨e, he, hname, heq⟩ := exists_mem_origins hv
    exact (firstOfItsKey_congr hname heq).1 (forall₂_first_iff.1 h.first e he)
  · intro h
    have hfirst := forall₂_first_iff.2 fun v hv => h v (found_of_mem_origins hv)
    refine ⟨hfirst, hfirst.imp ?_⟩
    rintro v entry ⟨scan, ⟨before, after, rfl, ⟨svc, hsvc, hsame⟩, -⟩, hsource⟩ kind path hclient
    obtain ⟨rfl, rfl⟩ := ServiceSource.client.inj (hsource.symm.trans hclient)
    exact ⟨scan, by simp, rfl, rfl, svc, hsvc, hsame⟩

/-- **Nothing is borrowed where a command line identifies a service.** -/
theorem noneBorrowed_of_identified
    (h : ∀ v ∈ found scans, ∀ w ∈ found scans, svcKey w.2 = svcKey v.2 → SameService v.2 w.2) :
    NoneBorrowed scans := by
  intro v hv scan scan' hscan hscan'
  have hfirst : FirstWith (SameService v.2) scans scan' := by
    obtain ⟨before, after, rfl, ⟨svc, hsvc, hkey⟩, hbefore⟩ := hscan'
    refine ⟨before, after, rfl, ⟨svc, hsvc, ?_⟩, fun earlier he svc' hsvc' hsame => ?_⟩
    · exact h v hv (scan'.host, svc) (mem_found.2 ⟨scan', by simp, rfl, hsvc⟩) hkey
    · exact hbefore earlier he svc' hsvc' (svcKey_eq hsame.2)
  obtain rfl := hscan.unique hfirst
  exact ⟨rfl, rfl⟩

/-- **Nothing is borrowed** where no text has a separator in it, and services that run one command
with one environment are one service. -/
theorem noneBorrowed_of_keyPlain (hplain : ∀ v ∈ found scans, KeyPlain v.2)
    (hone : ∀ v ∈ found scans, ∀ w ∈ found scans, w.2.command = v.2.command →
      w.2.args = v.2.args → (w.2.env.getD ∅).entries = (v.2.env.getD ∅).entries →
        SameService v.2 w.2) : NoneBorrowed scans := by
  refine noneBorrowed_of_identified fun v hv w hw hkey => ?_
  obtain ⟨hcommand, hargs, henv⟩ := svcKey_inj (hplain w hw) (hplain v hv) hkey
  exact hone v hv w hw hcommand hargs henv

/-- What Claude runs as `memory`. -/
def memoryScan : ScanResult :=
  ⟨sampleHost .claude ".claude.json", [sampleService "memory" "npx"]⟩

/-- What Cursor runs as `notes`: the same command line. -/
def notesScan : ScanResult :=
  ⟨sampleHost .cursor "mcp.json", [sampleService "notes" "npx"]⟩

/-- **The second is attributed to the file of the first.** -/
theorem not_provenance_borrowing : ¬ ∀ scans, Provenance scans := by
  intro h
  have hmem : (notesScan.host, sampleService "notes" "npx") ∈ origins [memoryScan, notesScan] := by
    decide +kernel
  have hfirst : FirstWith (SameService (sampleService "notes" "npx")) [memoryScan, notesScan]
      notesScan :=
    ⟨[memoryScan], [], rfl, ⟨_, List.mem_cons_self, rfl, servicesEquivalent_refl _⟩,
      by decide +kernel⟩
  have hkeyed : FirstWith (svcKey · = svcKey (sampleService "notes" "npx"))
      [memoryScan, notesScan] memoryScan :=
    ⟨[], [notesScan], rfl, ⟨_, List.mem_cons_self, by decide +kernel⟩, fun _ h => nomatch h⟩
  have hkind := (forall₂_first_iff.1 (h [memoryScan, notesScan]).first _ hmem notesScan memoryScan
    hfirst hkeyed).1
  cases hkind

end Config

end VcOperator
