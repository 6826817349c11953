import VcOperator.Common.FirstFit
import VcOperator.Config.Helpers.VariantNames
import VcOperator.Wizard.Model.Processes
/-!
# What becomes of the running processes

Every process of the scan is accounted to one entry of the wizard: the first
it matches, whose pid is that of the last one accounted to it, or an entry of
its own. Nothing else of an entry changes.
-/

namespace VcOperator

namespace Wizard

open Config (RunningMcpProcess ServiceEntry cmdsEquivalent enrichRunningState ensureUnique orphan
  procMatchesEntry stampPid)

variable {isAlphanumeric : Char → Bool} {services : List ServiceEntry}
  {running : List RunningMcpProcess}

/-! ## Names -/

/-- The name that is found is free. -/
theorem ensureUnique_notMem (used : List String) (candidate : String) :
    ensureUnique used candidate ∉ used := by
  unfold ensureUnique
  split_ifs with h
  · exact firstFree_notMem (Config.numbered_row_injective candidate) used 2
  · exact h

theorem nodup_listProcess (found : List (ℕ × String)) {out : List RunningMcpProcess}
    (h : (out.map RunningMcpProcess.syntheticName).Nodup) :
    ((found.foldl (listProcess isAlphanumeric) out).map
      RunningMcpProcess.syntheticName).Nodup := by
  induction found generalizing out with
  | nil => exact h
  | cons process found ih =>
    refine ih ?_
    rw [listProcess, List.map_append, List.map_singleton, ← List.concat_eq_append]
    exact h.concat (ensureUnique_notMem _ _)

/-! ## Entries -/

/-- A process matches its own entry. -/
theorem procMatchesEntry_orphan (proc : RunningMcpProcess) :
    procMatchesEntry proc (orphan proc) = true := by
  have hargs : (orphan proc).config.args.getD [] = proc.args := rfl
  rw [procMatchesEntry, hargs, Bool.and_eq_true]
  refine ⟨by simp [cmdsEquivalent, orphan, Config.entryConfig], ?_⟩
  cases hfind : proc.args.find? (· ≠ "") with
  | none => rfl
  | some probe =>
    refine List.any_eq_true.2 ⟨probe, List.mem_of_find?_eq_some hfind, ?_⟩
    exact decide_eq_true (List.infix_refl _)

/-- How processes are placed among the entries. -/
def placing : FirstFit RunningMcpProcess ServiceEntry where
  fits := procMatchesEntry
  stamp proc svc := { svc with pid := some proc.pid }
  new := orphan
  fits_stamp _ _ _ := rfl
  fits_new := procMatchesEntry_orphan

/-- The first entry a process matches is stamped, if there is one. -/
theorem stampPid_eq (proc : RunningMcpProcess) (services : List ServiceEntry) :
    stampPid proc services =
      if placing.index services proc < services.length then
        some (services.modify (placing.index services proc) (placing.stamp proc))
      else none := by
  induction services with
  | nil => rfl
  | cons svc services ih =>
    rw [stampPid, FirstFit.index, List.findIdx_cons]
    have hfits : placing.fits proc svc = procMatchesEntry proc svc := rfl
    rw [hfits]
    cases procMatchesEntry proc svc with
    | true => rfl
    | false =>
      rw [if_neg Bool.false_ne_true, ih, FirstFit.index]
      simp only [cond_false, List.length_cons, Nat.add_lt_add_iff_right, List.modify_succ_cons]
      split_ifs <;> rfl

/-- **`enrich_running_state` places each process.** -/
theorem enrichRunningState_eq (services : List ServiceEntry) (running : List RunningMcpProcess) :
    enrichRunningState services running = running.foldl placing.place services := by
  rw [enrichRunningState]
  congr 1
  funext svcs proc
  rw [stampPid_eq, FirstFit.place]
  split_ifs <;> rfl

/-- The last of several pids stays. -/
theorem stamped_eq (svc : ServiceEntry) (running : List RunningMcpProcess) :
    placing.stamped svc running =
      { svc with pid := (running.getLast?.map RunningMcpProcess.pid).or svc.pid } := by
  induction running using List.reverseRecOn with
  | nil => rfl
  | append_singleton running last ih =>
    rw [FirstFit.stamped, List.foldl_append] at *
    rw [ih]
    simp [placing]

/-- The processes whose first match is the `j`-th entry. -/
def accounted (entries : List ServiceEntry) (running : List RunningMcpProcess) (j : ℕ) :
    List RunningMcpProcess :=
  running.filter fun proc => entries.findIdx (procMatchesEntry proc) = j

/-- **What becomes of the running processes.** They have distinct names, and each of them an entry
that it matches. An entry is one that was there, or that of a process of its own, and its pid is
that of the last process whose first match it is; nothing else of it has changed. -/
theorem processes_exact (isAlphanumeric : Char → Bool) (stdout : Option (List UInt8))
    (services : List ServiceEntry) :
    let running := listRunningMcpProcesses isAlphanumeric stdout
    let entries := enrichRunningState services running
    (running.map RunningMcpProcess.syntheticName).Nodup ∧
      (∀ proc ∈ running, ∃ svc ∈ entries, procMatchesEntry proc svc = true) ∧
      ∀ (j : ℕ) (svc : ServiceEntry), entries[j]? = some svc →
        (∃ before, services[j]? = some before ∧ svc = { before with
          pid := ((accounted entries running j).getLast?.map RunningMcpProcess.pid).or
            before.pid }) ∨
        (services.length ≤ j ∧ ∃ proc, (accounted entries running j).head? = some proc ∧
          svc = { orphan proc with
            pid := (accounted entries running j).getLast?.map RunningMcpProcess.pid }) := by
  intro running entries
  have hentries : entries = running.foldl placing.place services :=
    enrichRunningState_eq services running
  refine ⟨?_, ?_, ?_⟩
  · show ((listRunningMcpProcesses isAlphanumeric stdout).map _).Nodup
    unfold listRunningMcpProcesses
    split
    · exact List.nodup_nil
    · exact nodup_listProcess _ List.nodup_nil
  · intro proc hproc
    have hlt := placing.index_foldl_lt services running proc hproc
    rw [← hentries] at hlt
    exact ⟨entries[entries.findIdx (procMatchesEntry proc)], List.getElem_mem hlt,
      List.findIdx_getElem⟩
  · intro j svc hsvc
    rw [hentries] at hsvc
    have hmine : accounted entries running j = running.filter fun proc =>
        placing.index (running.foldl placing.place services) proc = j := by
      rw [← hentries]
      rfl
    rw [hmine]
    rcases placing.getElem?_foldl services running hsvc with
      ⟨before, hbefore, rfl⟩ | ⟨hle, proc, rest, hrest, rfl⟩
    · exact .inl ⟨before, hbefore, stamped_eq _ _⟩
    · refine .inr ⟨hle, proc, by rw [hrest]; rfl, ?_⟩
      rw [hrest, stamped_eq, List.getLast?_cons]
      cases rest.getLast? <;> rfl

end Wizard

end VcOperator
