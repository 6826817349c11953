import VcOperator.Config.Helpers.Entries
import VcOperator.Config.Provenance
import VcOperator.Wizard.Model.Persist
/-!
# Is the selection of STEP 2 honoured?

A strategy reads the sources again, and looks for the ticked entries by what they run:
the filter leaves out the directory, and the name too where the name of an entry has
`-from-` in it. A ticked service is always found. One that is not ticked passes where
a ticked entry is mistaken for it.
-/

namespace VcOperator

namespace Wizard

open Config

/-! ## Ticks -/

/-- The entries, ticked by their places. -/
def ticked (ticks : ℕ → Bool) (services : List ServiceEntry) : List ServiceEntry :=
  services.mapIdx fun i svc => { svc with selected := ticks i }

/-- Space ticks or unticks one of them. -/
theorem toggleSelected_ticked (ticks : ℕ → Bool) (services : List ServiceEntry) (idx : ℕ) :
    toggleSelected (ticked ticks services) idx =
      ticked (Function.update ticks idx (!ticks idx)) services := by
  refine List.ext_getElem? fun i => ?_
  rw [toggleSelected, ticked, ticked, List.getElem?_modify, List.getElem?_mapIdx,
    List.getElem?_mapIdx]
  rcases eq_or_ne idx i with rfl | hne
  · cases services[idx]? <;> simp
  · cases services[i]? <;> simp [hne, hne.symm]

/-- **Every list the wizard can have** is that of STEP 2, with ticks. -/
theorem exists_ticked_of_discovered {services : List ServiceEntry} (h : Discovered services) :
    ∃ scans env ticks, services = ticked ticks (Config.advanceToStep2 scans env) := by
  induction h with
  | advance scans root devProject pipInstalled running listens =>
    refine ⟨scans, ⟨discoverVibecraftedMcp root devProject pipInstalled, running, listens⟩,
      fun i => (((Config.advanceToStep2 scans
        ⟨discoverVibecraftedMcp root devProject pipInstalled, running, listens⟩)[i]?).map
          ServiceEntry.selected).getD false, List.ext_getElem? fun i => ?_⟩
    rw [ticked, List.getElem?_mapIdx]
    cases hget : (Config.advanceToStep2 scans
      ⟨discoverVibecraftedMcp root devProject pipInstalled, running, listens⟩)[i]? <;> simp
  | toggle idx _ ih =>
    obtain ⟨scans, env, ticks, rfl⟩ := ih
    exact ⟨scans, env, _, toggleSelected_ticked ticks _ idx⟩

/-! ## The filter -/

/-- The filter takes a service for an entry. -/
def Taken (made svc : HostService) : Prop :=
  shapeOf made = shapeOf svc ∧ (made.name = svc.name ∨ containsText made.name "-from-" = true)

theorem mem_selected {services : List ServiceEntry} {p : HostService → Prop} :
    (∃ w ∈ (services.filter (·.selected)).map ServiceEntry.toHostService, p w) ↔
      ∃ entry ∈ services, entry.selected = true ∧ p entry.toHostService := by
  simp only [List.mem_map, List.mem_filter]
  constructor
  · rintro ⟨_, ⟨entry, ⟨hmem, hsel⟩, rfl⟩, hp⟩
    exact ⟨entry, hmem, hsel, hp⟩
  · rintro ⟨entry, hmem, hsel, hp⟩
    exact ⟨_, ⟨entry, ⟨hmem, hsel⟩, rfl⟩, hp⟩

theorem matchesService_iff {app : AppState} {svc : HostService} :
    (SelectedServiceFilter.fromApp app).matchesService svc = true ↔
      ∃ entry ∈ app.services, entry.selected = true ∧ Taken entry.toHostService svc := by
  have hexact : (⟨svc.name, shapeOf svc⟩ : ServiceExactKey) ∈
      (SelectedServiceFilter.fromApp app).exact ↔
        ∃ w ∈ (app.services.filter (·.selected)).map ServiceEntry.toHostService,
          w.name = svc.name ∧ shapeOf w = shapeOf svc := by
    simp only [SelectedServiceFilter.fromApp, List.mem_map (f := fun svc =>
      (⟨svc.name, shapeOf svc⟩ : ServiceExactKey)), ServiceExactKey.mk.injEq]
  have hconflict : shapeOf svc ∈ (SelectedServiceFilter.fromApp app).conflictShapes ↔
      ∃ w ∈ (app.services.filter (·.selected)).map ServiceEntry.toHostService,
        containsText w.name "-from-" = true ∧ shapeOf w = shapeOf svc := by
    simp only [SelectedServiceFilter.fromApp, List.mem_map (f := shapeOf), List.mem_filter,
      and_assoc]
  rw [SelectedServiceFilter.matchesService, Bool.or_eq_true, decide_eq_true_iff,
    decide_eq_true_iff, hexact, hconflict, mem_selected, mem_selected]
  constructor
  · rintro (⟨entry, hmem, hsel, hname, hshape⟩ | ⟨entry, hmem, hsel, hfrom, hshape⟩)
    · exact ⟨entry, hmem, hsel, hshape, .inl hname⟩
    · exact ⟨entry, hmem, hsel, hshape, .inr hfrom⟩
  · rintro ⟨entry, hmem, hsel, hshape, hname | hfrom⟩
    · exact .inl ⟨entry, hmem, hsel, hname, hshape⟩
    · exact .inr ⟨entry, hmem, hsel, hfrom, hshape⟩

/-- With ticks, it goes by the places of the list. -/
theorem matchesService_ticked_iff {app : AppState} {ticks : ℕ → Bool}
    {services : List ServiceEntry} {svc : HostService} :
    (SelectedServiceFilter.fromApp { app with services := ticked ticks services }).matchesService
        svc = true ↔
      ∃ i row, (services.map rowOf)[i]? = some row ∧ ticks i = true ∧ Taken row.2 svc := by
  rw [matchesService_iff]
  constructor
  · rintro ⟨entry, hmem, hsel, htaken⟩
    obtain ⟨i, hi, rfl⟩ := List.mem_mapIdx.1 hmem
    exact ⟨i, rowOf services[i], by simp [hi], hsel, htaken⟩
  · rintro ⟨i, row, hrow, htick, htaken⟩
    rw [List.getElem?_map, Option.map_eq_some_iff] at hrow
    obtain ⟨entry, hentry, rfl⟩ := hrow
    refine ⟨{ entry with selected := ticks i }, ?_, htick, htaken⟩
    refine List.mem_of_getElem? (i := i) ?_
    rw [ticked, List.getElem?_mapIdx, hentry, Option.map_some]

/-! ## The places of the list -/

/-- A place of two lists in a row is a place of one of them. -/
theorem exists_getElem?_append {α : Type*} {l l' : List α} {p : ℕ → α → Prop} :
    (∃ i a, (l ++ l')[i]? = some a ∧ p i a) ↔
      (∃ i a, l[i]? = some a ∧ p i a) ∨ ∃ i a, l'[i]? = some a ∧ p (l.length + i) a := by
  constructor
  · rintro ⟨i, a, hget, hp⟩
    rcases Nat.lt_or_ge i l.length with hlt | hge
    · exact .inl ⟨i, a, List.getElem?_append_left hlt ▸ hget, hp⟩
    · refine .inr ⟨i - l.length, a, List.getElem?_append_right hge ▸ hget, ?_⟩
      rwa [Nat.add_sub_cancel' hge]
  · rintro (⟨i, a, hget, hp⟩ | ⟨i, a, hget, hp⟩)
    · exact ⟨i, a, by rw [List.getElem?_append_left (List.getElem?_eq_some_iff.1 hget).1, hget], hp⟩
    · refine ⟨l.length + i, a, ?_, hp⟩
      rw [List.getElem?_append_right (Nat.le_add_right _ _), Nat.add_sub_cancel_left, hget]

/-- A process that has the shape of a service runs it. -/
theorem procRuns_of_shape {proc : RunningMcpProcess} {w : HostService}
    (h : shapeOf (orphan proc).toHostService = shapeOf w) : procRuns proc w = true := by
  have hcommand : proc.cmd = w.command := congrArg ServiceShapeKey.command h
  have hargs : proc.args = w.args := congrArg ServiceShapeKey.args h
  rw [procRuns, hcommand, hargs, cmdsEquivalent]
  cases hprobe : w.args.find? (· ≠ "") with
  | none => simp
  | some probe =>
    have hmem := List.mem_of_find?_eq_some hprobe
    simp only [decide_true, Bool.true_or, Bool.true_and, List.any_eq_true]
    exact ⟨probe, hmem, decide_eq_true (List.infix_refl _)⟩

theorem shapeOf_eq {svc svc' : HostService} (h : servicesEquivalent svc svc' = true) :
    shapeOf svc = shapeOf svc' := by
  obtain ⟨hcommand, hargs, -, henv, hsocket⟩ := servicesEquivalent_iff.1 h
  rw [shapeOf, shapeOf, hcommand, hargs, henv, hsocket]

variable {scans : List ScanResult} {env : Surroundings} {ticks : ℕ → Bool} {app : AppState}
  {v : HostFile × HostService}

/-- A process that no merged entry accounts for has the shape of no service that was found. -/
theorem not_taken_orphan (hv : v ∈ found scans) {proc : RunningMcpProcess}
    (hnone : ∀ w ∈ named scans, procRuns proc w = false) :
    ¬ Taken (orphan proc).toHostService v.2 := by
  intro htaken
  obtain ⟨w, hw, heq, -⟩ := exists_merged_of_found hv
  rw [mergeServices_services] at hw
  have hruns := procRuns_of_shape (htaken.1.trans (shapeOf_eq (servicesEquivalent_symm heq)))
  rw [hnone w hw] at hruns
  cases hruns

/-- **A service that was found is taken for a merged entry or for the default server**. -/
theorem matches_found_iff (hv : v ∈ found scans) :
    (SelectedServiceFilter.fromApp
      { app with services := ticked ticks (Config.advanceToStep2 scans env) }).matchesService v.2 =
        true ↔
      (∃ i w, (named scans)[i]? = some w ∧ ticks i = true ∧ Taken w v.2) ∨
        ∃ d, env.discovered = some d ∧ ticks (named scans).length = true ∧ Taken d.service v.2 := by
  obtain ⟨orphans, hrows, hnone⟩ := rows_advanceToStep2 scans env
  rw [matchesService_ticked_iff, hrows, exists_getElem?_append, exists_getElem?_append,
    List.length_map]
  constructor
  · rintro ((⟨i, row, hrow, htick, htaken⟩ | ⟨i, row, hrow, htick, htaken⟩) |
      ⟨i, row, hrow, htick, htaken⟩)
    · rw [List.getElem?_map, Option.map_eq_some_iff] at hrow
      obtain ⟨w, hw, rfl⟩ := hrow
      exact .inl ⟨i, w, hw, htick, htaken⟩
    · rw [List.getElem?_map, Option.map_eq_some_iff] at hrow
      obtain ⟨d, hd, rfl⟩ := hrow
      cases hdisc : env.discovered with
      | none => rw [hdisc] at hd; cases hd
      | some d' =>
        rw [hdisc] at hd
        cases i with
        | zero =>
          obtain rfl := Option.some.inj hd
          exact .inr ⟨d', rfl, htick, htaken⟩
        | succ i => cases hd
    · obtain ⟨proc, hproc, rfl⟩ := List.mem_map.1 (List.mem_of_getElem? hrow)
      exact absurd htaken (not_taken_orphan hv (hnone proc hproc))
  · rintro (⟨i, w, hw, htick, htaken⟩ | ⟨d, hdisc, htick, htaken⟩)
    · exact .inl (.inl ⟨i, _, by rw [List.getElem?_map, hw, Option.map_some], htick, htaken⟩)
    · exact .inl (.inr ⟨0, (true, d.service), by rw [hdisc]; rfl, htick, htaken⟩)

/-! ## The selection -/

/-- The entry made from a service is ticked. -/
def EntryTicked (scans : List ScanResult) (ticks : ℕ → Bool) (svc : HostService) : Prop :=
  ∃ i e, (origins scans)[i]? = some e ∧ SameService svc e.2 ∧ ticks i = true

/-- **The selection is honoured**: a service read again passes the filter if and only if the entry
made from it is ticked. -/
def Honoured (scans : List ScanResult) (ticks : ℕ → Bool) (app : AppState) : Prop :=
  ∀ v ∈ found scans, (SelectedServiceFilter.fromApp app).matchesService v.2 = true ↔
    EntryTicked scans ticks v.2

/-- **No ticked entry is mistaken for that of a service that is not ticked**, though it runs the
same command on the same socket. -/
structure NoneMistaken (scans : List ScanResult) (discovered : Option DiscoveredMcp)
    (ticks : ℕ → Bool) : Prop where
  /-- The name of a ticked entry is its own, and has no `-from-` in it. -/
  merged : ∀ v ∈ found scans, ¬ EntryTicked scans ticks v.2 → ∀ i e,
    (origins scans)[i]? = some e → ticks i = true → shapeOf e.2 = shapeOf v.2 →
      ¬ Conflicting scans e.2.name ∧ containsText e.2.name "-from-" = false
  /-- The default server is another one. -/
  default : ∀ d, discovered = some d → ticks (origins scans).length = true → ∀ v ∈ found scans,
    ¬ EntryTicked scans ticks v.2 → ¬ Taken d.service v.2

/-- A name that is conflicting becomes one with `-from-`. -/
theorem containsText_variantName (name : String) (kind : HostKind) (i : ℕ) :
    containsText (variantName name kind i) "-from-" = true := by
  refine decide_eq_true ?_
  rw [variantName, String.append_assoc, numbered_append, numbered_append, String.toList_append,
    String.toList_append]
  exact ⟨name.toList, (numbered kind.asLabel i).toList, by simp⟩

/-- **What the filter takes a service for**, of the merged entries. -/
theorem taken_merged_iff {e : HostFile × HostService} {w : HostService} (hw : NamedFrom scans e w)
    {svc : HostService} : Taken w svc ↔ shapeOf e.2 = shapeOf svc ∧
      (Conflicting scans e.2.name ∨ e.2.name = svc.name ∨
        containsText e.2.name "-from-" = true) := by
  rw [Taken, shapeOf_eq hw.made.equivalent]
  refine and_congr_right fun _ => ?_
  by_cases hconf : Conflicting scans e.2.name
  · obtain ⟨kind, i, hname⟩ := hw.variant hconf
    simp [hconf, hname, containsText_variantName]
  · simp [hconf, hw.own hconf]

/-- Of a name that is not conflicting there is one service. -/
theorem sameService_of_name {e : HostFile × HostService} (he : e ∈ found scans)
    (hv : v ∈ found scans) (hname : e.2.name = v.2.name)
    (hconf : ¬ Conflicting scans e.2.name) : SameService v.2 e.2 := by
  refine ⟨hname, ?_⟩
  by_contra hne
  exact hconf (conflicting_iff.2 ⟨e, he, v, hv, rfl, hname.symm, by simpa using hne⟩)

/-- **A ticked entry is always found again.** -/
theorem matches_of_entryTicked (hv : v ∈ found scans) (h : EntryTicked scans ticks v.2) :
    (SelectedServiceFilter.fromApp
      { app with services := ticked ticks (Config.advanceToStep2 scans env) }).matchesService v.2 =
        true := by
  obtain ⟨i, e, he, ⟨hname, heq⟩, htick⟩ := h
  obtain ⟨w, hw, hnamed⟩ := exists_getElem?_of_forall₂ (namedFrom_origins scans) he
  rw [mergeServices_services] at hw
  exact (matches_found_iff hv).2 (.inl ⟨i, w, hw, htick,
    (taken_merged_iff hnamed).2 ⟨shapeOf_eq heq, .inr (.inl hname)⟩⟩)

/-- **The selection is honoured exactly where no ticked entry is mistaken for another**, for every
list of scans, whatever else is found, and for all ticks. -/
theorem honoured_iff (scans : List ScanResult) (env : Surroundings) (ticks : ℕ → Bool)
    (app : AppState) :
    Honoured scans ticks
        { app with services := ticked ticks (Config.advanceToStep2 scans env) } ↔
      NoneMistaken scans env.discovered ticks := by
  have hlen : (origins scans).length = (named scans).length := by
    rw [(namedFrom_origins scans).length_eq, mergeServices_services]
  constructor
  · intro h
    refine ⟨fun v hv hnot i e he htick hshape => ?_, fun d hd htick v hv hnot htaken => ?_⟩
    · obtain ⟨w, hw, hnamed⟩ := exists_getElem?_of_forall₂ (namedFrom_origins scans) he
      rw [mergeServices_services] at hw
      have hno : ¬ Taken w v.2 := fun htaken =>
        hnot ((h v hv).1 ((matches_found_iff hv).2 (.inl ⟨i, w, hw, htick, htaken⟩)))
      rw [taken_merged_iff hnamed] at hno
      refine ⟨fun hconf => hno ⟨hshape, .inl hconf⟩, ?_⟩
      rw [← Bool.not_eq_true]
      exact fun hfrom => hno ⟨hshape, .inr (.inr hfrom)⟩
    · exact hnot ((h v hv).1 ((matches_found_iff hv).2 (.inr ⟨d, hd, hlen ▸ htick, htaken⟩)))
  · refine fun h v hv => ⟨fun hmatches => ?_, matches_of_entryTicked hv⟩
    by_contra hnot
    rcases (matches_found_iff hv).1 hmatches with ⟨i, w, hw, htick, htaken⟩ | ⟨d, hd, htick, htaken⟩
    · rw [← mergeServices_services] at hw
      obtain ⟨e, he, hnamed⟩ := exists_getElem?_of_forall₂ (namedFrom_origins scans).flip hw
      obtain ⟨hshape, hname⟩ := (taken_merged_iff hnamed).1 htaken
      obtain ⟨hconf, hfrom⟩ := h.merged v hv hnot i e he htick hshape
      rcases hname with hc | hn | hf
      · exact hconf hc
      · have hfound := found_of_mem_origins (List.mem_of_getElem? he)
        exact hnot ⟨i, e, he, sameService_of_name hfound hv hn hconf, htick⟩
      · rw [hfrom] at hf
        cases hf
    · exact h.default d hd (hlen ▸ htick) v hv hnot htaken

/-- **And then the strategies see what is ticked**, and nothing else, of each source. -/
theorem selectedScans_of_honoured {files : Files}
    (h : Honoured (sourceScans files app.sources) ticks app) :
    List.Forall₂ (fun scan kept => kept.host = scan.host ∧ ∀ svc, svc ∈ kept.services ↔
      svc ∈ scan.services ∧ EntryTicked (sourceScans files app.sources) ticks svc)
      (sourceScans files app.sources) (selectedScans files app) := by
  rw [selectedScans, List.forall₂_map_right_iff, List.forall₂_same]
  refine fun scan hscan => ⟨rfl, fun svc => ?_⟩
  rw [List.mem_filter]
  refine and_congr_right fun hsvc => ?_
  exact h (scan.host, svc) (mem_found.2 ⟨scan, hscan, rfl, hsvc⟩)

/-- `memory`, as a client runs it in a directory. -/
def memoryIn (dir : String) : HostService := { sampleService "memory" "npx" with cwd := some dir }

/-- Claude and Cursor run one command in two directories. -/
def twoDirectories : List ScanResult :=
  [⟨sampleHost .claude ".claude.json", [memoryIn "/a"]⟩,
    ⟨sampleHost .cursor "mcp.json", [memoryIn "/b"]⟩]

/-- **Claude's is ticked, and Cursor's passes too.** -/
theorem not_honoured_twoDirectories : ¬ ∀ (scans : List ScanResult) (env : Surroundings)
    (ticks : ℕ → Bool) (app : AppState), Honoured scans ticks
      { app with services := ticked ticks (Config.advanceToStep2 scans env) } := by
  intro h
  let env : Surroundings := ⟨none, [], fun _ => false⟩
  let first : ℕ → Bool := fun i => decide (i = 0)
  have hfound : ((sampleHost .cursor "mcp.json"), memoryIn "/b") ∈ found twoDirectories := by
    decide +kernel
  have horigins : (origins twoDirectories).map (·.2) = [memoryIn "/a", memoryIn "/b"] := by
    decide +kernel
  let app := (Session.start [] .unified "" false).app
  let filter := SelectedServiceFilter.fromApp
    { app with services := ticked first (Config.advanceToStep2 twoDirectories env) }
  have hpasses : filter.matchesService (memoryIn "/b") = true := by decide +kernel
  obtain ⟨i, e, he, hsame, htick⟩ := (h twoDirectories env first app _ hfound).1 hpasses
  obtain rfl : i = 0 := of_decide_eq_true htick
  have hfirst := congrArg (·[0]?) horigins
  rw [List.getElem?_map, he] at hfirst
  obtain hrun := Option.some.inj hfirst
  have hsame : SameService (memoryIn "/b") e.2 := hsame
  rw [show e.2 = memoryIn "/a" from hrun] at hsame
  exact absurd hsame (by decide +kernel)

end Wizard

end VcOperator
