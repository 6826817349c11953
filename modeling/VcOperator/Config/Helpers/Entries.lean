import VcOperator.Config.Helpers.Merge
import VcOperator.Config.Model.Wizard
/-!
# The entries of STEP 2

What the wizard lists: an entry for each merged service, one for the default server, and
one for each running process that no entry accounts for. Stamping a process into an entry
changes its pid alone.
-/

namespace VcOperator

namespace Config

/-- An entry, as the strategies see it: whether it is ticked, and what it stands for. -/
def rowOf (svc : ServiceEntry) : Bool × HostService := (svc.selected, svc.toHostService)

/-- The selected entries, as the generators see them. -/
def shown (services : List ServiceEntry) : List HostService :=
  (services.filter (·.selected)).map ServiceEntry.toHostService

theorem shown_eq_rows (services : List ServiceEntry) :
    shown services = ((services.map rowOf).filter (·.1)).map Prod.snd := by
  rw [shown, List.filter_map, List.map_map]
  rfl

/-- The service of the default server. -/
def DiscoveredMcp.service (discovered : DiscoveredMcp) : HostService where
  name := discovered.name
  command := discovered.command
  args := discovered.args
  cwd := discovered.cwd
  socket := none
  env := none
  enabled := none

/-! ## Running processes -/

theorem rows_stampPid {proc : RunningMcpProcess} {services services' : List ServiceEntry}
    (h : stampPid proc services = some services') : services'.map rowOf = services.map rowOf := by
  induction services generalizing services' with
  | nil => cases h
  | cons svc services ih =>
    rw [stampPid] at h
    split_ifs at h with hmatch
    · obtain rfl := Option.some.inj h
      rfl
    · obtain ⟨rest, hrest, rfl⟩ := Option.map_eq_some_iff.1 h
      rw [List.map_cons, List.map_cons, ih hrest]

/-- A process that is stamped into no entry matches none. -/
theorem not_matches_of_stampPid {proc : RunningMcpProcess} {services : List ServiceEntry}
    (h : stampPid proc services = none) : ∀ svc ∈ services, procMatchesEntry proc svc = false := by
  induction services with
  | nil => exact fun _ hsvc => nomatch hsvc
  | cons svc services ih =>
    rw [stampPid] at h
    split_ifs at h with hmatch
    exact List.forall_mem_cons.2 ⟨by simpa using hmatch, ih (Option.map_eq_none_iff.1 h)⟩

/-- A process runs what a service runs, as far as `proc_matches_entry` looks. -/
def procRuns (proc : RunningMcpProcess) (w : HostService) : Bool :=
  cmdsEquivalent proc.cmd w.command &&
    match w.args.find? (· ≠ "") with
    | some probe => proc.args.any fun a => containsText a probe
    | none => true

/-- **The entries that running processes add** are not ticked, and no entry there was accounts
for them. -/
theorem rows_enrichRunningState (services : List ServiceEntry)
    (running : List RunningMcpProcess) : ∃ orphans : List RunningMcpProcess,
      (enrichRunningState services running).map rowOf =
          services.map rowOf ++ orphans.map (rowOf ∘ orphan) ∧
        ∀ proc ∈ orphans, ∀ row ∈ services.map rowOf, procRuns proc row.2 = false := by
  unfold enrichRunningState
  induction running generalizing services with
  | nil => exact ⟨[], by simp, fun _ h => nomatch h⟩
  | cons proc running ih =>
    rw [List.foldl_cons]
    cases hstamp : stampPid proc services with
    | some services' =>
      obtain ⟨orphans, hrows, hnone⟩ := ih services'
      rw [rows_stampPid hstamp] at hrows hnone
      exact ⟨orphans, hrows, hnone⟩
    | none =>
      obtain ⟨orphans, hrows, hnone⟩ := ih (services ++ [orphan proc])
      refine ⟨proc :: orphans, ?_,
        List.forall_mem_cons.2 ⟨fun row hrow => ?_, fun p hp row hrow => ?_⟩⟩
      · rw [Option.getD_none, hrows, List.map_append, List.append_assoc]
        rfl
      · obtain ⟨svc, hsvc, rfl⟩ := List.mem_map.1 hrow
        exact not_matches_of_stampPid hstamp svc hsvc
      · exact hnone p hp row (List.map_append ▸ List.mem_append_left _ hrow)

/-! ## The list -/

/-- **What STEP 2 lists**: the merged services and the default server, ticked, and then the
processes that none of them accounts for. -/
theorem rows_advanceToStep2 (scans : List ScanResult) (env : Surroundings) :
    ∃ orphans : List RunningMcpProcess,
      (advanceToStep2 scans env).map rowOf =
        (named scans).map (fun w => (true, { w with enabled := none })) ++
          env.discovered.toList.map (fun d => (true, d.service)) ++
            orphans.map (rowOf ∘ orphan) ∧
      ∀ proc ∈ orphans, ∀ w ∈ named scans, procRuns proc w = false := by
  have hrows : (appendDefaultServices (buildServicesFromScans scans) env.discovered).map rowOf =
      (named scans).map (fun w => (true, { w with enabled := none })) ++
        env.discovered.toList.map (fun d => (true, d.service)) := by
    have hscanned : (buildServicesFromScans scans).map rowOf =
        (named scans).map fun w => (true, { w with enabled := none }) := by
      rw [buildServicesFromScans, mergeServices_services, List.map_map]
      rfl
    cases env.discovered with
    | none =>
      rw [appendDefaultServices, hscanned]
      exact (List.append_nil _).symm
    | some discovered =>
      rw [appendDefaultServices, List.map_append, hscanned]
      rfl
  obtain ⟨orphans, henrich, hnone⟩ := rows_enrichRunningState
    (appendDefaultServices (buildServicesFromScans scans) env.discovered) env.running
  rw [hrows] at henrich hnone
  refine ⟨orphans, ?_, fun proc hproc w hw => ?_⟩
  · rw [advanceToStep2, List.map_map, ← henrich]
    rfl
  · exact hnone proc hproc (true, { w with enabled := none })
      (List.mem_append_left _ (List.mem_map_of_mem hw))

/-- **What the wizard generates from**: the merged services and the default server. -/
theorem services_advanceToStep2 (scans : List ScanResult) (env : Surroundings) :
    (buildMergeFromServices (advanceToStep2 scans env)).services =
      (named scans).map (fun w => { w with enabled := none }) ++
        env.discovered.toList.map DiscoveredMcp.service := by
  have hshown : (buildMergeFromServices (advanceToStep2 scans env)).services =
      shown (advanceToStep2 scans env) := rfl
  obtain ⟨orphans, hrows, -⟩ := rows_advanceToStep2 scans env
  have hticked : ∀ {β : Type} (l : List β) (f : β → HostService),
      ((l.map fun b => (true, f b)).filter (·.1)).map Prod.snd = l.map f := by
    intro β l f
    rw [List.filter_eq_self.2 (by simp), List.map_map]
    rfl
  have hunticked : (orphans.map (rowOf ∘ orphan)).filter (·.1) = [] := by
    rw [List.filter_eq_nil_iff]
    rintro row hrow hsel
    obtain ⟨proc, -, rfl⟩ := List.mem_map.1 hrow
    cases hsel
  rw [hshown, shown_eq_rows, hrows, List.filter_append, List.filter_append, hunticked,
    List.append_nil, List.map_append, hticked, hticked]

end Config

end VcOperator
