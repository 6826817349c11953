import VcOperator.Mux.Model.LockSites
import VcOperator.Mux.Helpers.Apart
import VcOperator.Mux.Helpers.ManagerMoves
/-!
# No task waits for its own guard

Every place of the mux that locks `MuxState` drops its guard before it
locks again, but one: the restart limit of `server_manager` publishes
its last snapshot with the guard alive. `no_task_blocks_itself` says that
this is the only one. Where the manager never finds its limit reached, no
task is ever blocked on a lock it owns; and in the mux itself the guard
of that branch is the only one that outlives its lock section, so the
mutex is then free between any two steps.
-/

namespace VcOperator

namespace Mux

open LockProgram

/-! ## The blocks do not nest -/

/-- **No block of the tasks that has the guard takes the lock**, the
restart limit's apart. -/
theorem Task.flat_body (cfg : ManagerConfig) (t : Task) : (Task.body cfg t).flat = true := by
  cases t <;> rfl

-- The block of the restart limit does: it calls `publish_status`.
example : Task.restartLimit.flat = false := rfl

/-! ## The guard of the restart limit -/

variable {sh sh' : Shared}

theorem HeartbeatOp.stateLocked_run {hb hb' : HeartbeatState} {op : HeartbeatOp}
    {ops : List HeartbeatOp} (h : op.run hb sh = some (hb', sh', ops)) :
    sh'.stateLocked = sh.stateLocked := by
  rw [run_frame h]

/-- **The condition on a step of the mux**: the manager does not find its
restart limit reached. -/
def System.belowLimit (cfg : Config) (s : System) : Label → Bool
  | .manager _ =>
    match s.manager with
    | .checkLimit _ :: _ => !ManagerOp.limitReached cfg.manager s.locals
    | _ => true
  | _ => true

variable {cfg : Config} {s s' : System} {l : Label}

theorem Stepped.stateLocked (h : Stepped cfg s l s') (hok : s.belowLimit cfg l = true) :
    s'.shared.stateLocked = s.shared.stateLocked := by
  cases h with
  | handler hops hrun | writer hops hrun => exact (ClientOp.apart_run hrun).stateLocked
  | @routerTurn event rest hidle hevents =>
    exact (apart_dispatch event rest s.shared).stateLocked
  | router hops hrun => exact (RouterOp.apart_run hrun).stateLocked
  | reaper hops hrun => exact (ReaperOp.apart_run hrun).stateLocked
  | heartbeat hops hrun => exact HeartbeatOp.stateLocked_run hrun
  | manager hops hlock hrun =>
    rcases (ManagerOp.moved_run hrun).stateLocked with heq | ⟨⟨firstMsg, rfl⟩, hlimit, -⟩
    · exact heq
    · simp [System.belowLimit, hops, hlimit] at hok
  | connect | receive | disconnect | decodeError | handshakeTimeout | handshakeTick
  | writerFails | reaperTick | heartbeatTick | heartbeatEvent | childOutput | readerEnds
  | childExits | shutdown | elapse => rfl

/-- **Below its restart limit no task of the mux waits for its own guard.**
In every run of the tasks in which the limit's test fails, no task is
blocked on the lock while it owns it; and in every run of the mux in which
the manager finds its limit not reached, the mutex is free between steps. -/
theorem no_task_blocks_itself (mcfg : ManagerConfig) (cfg : Config) :
    (∀ s : State Task ManagerLocals,
      Run.Reach State.step (fun s l => s.testFails l = true) (Task.start mcfg) s →
      ∀ t, s.selfBlocked t = false) ∧
    ∀ s : System, Reachable cfg (fun s l => s.belowLimit cfg l = true) s →
      s.shared.stateLocked = false := by
  constructor
  · intro s h t
    refine not_selfBlocked h rfl (fun t => ?_) t
    rw [Task.start, outside_cons]
    exact ⟨Task.flat_body mcfg t, fun x hx => by cases hx⟩
  · intro s h
    exact h.invariant (I := fun s => s.shared.stateLocked = false) rfl
      fun s l s' hok hs hstep => ((stepped_of_step hstep).stateLocked hok).trans hs

/-! ## The restart limit -/

/-- A manager that may start its child once. -/
def oneRestart : ManagerConfig where
  lazyStart := false
  restartBackoff := 1000
  restartBackoffMax := 30000
  maxRestarts := 1

/-- The manager starts the child, sees it exit, cleans up, and comes back
to the restart limit. The one branch it takes is that of the exit. -/
def exitRun : List (Task × Bool) :=
  List.replicate 44 (.serverManager, false) ++ (.serverManager, true) ::
    List.replicate 53 (.serverManager, false)

/-- It goes on into the branch of the limit, up to the snapshot. -/
def limitRun : List (Task × Bool) := exitRun ++ List.replicate 7 (.serverManager, false)

/-- Up to its limit the manager is not blocked, and its start leaves the mutex free. -/
theorem no_task_blocks_itself_exitRun :
    (Run.exec State.step (Task.start oneRestart) exitRun).any
        (fun s => !s.selfBlocked .serverManager) = true ∧
      (Config.small.after [.manager .go, .manager .go]).shared.stateLocked = false := by
  constructor
  · have hmeets : Run.meets State.step State.testFails (Task.start oneRestart) exitRun = true := by
      decide +kernel
    have hsome : (Run.exec State.step (Task.start oneRestart) exitRun).isSome = true := by
      decide +kernel
    obtain ⟨s, hs⟩ := Option.isSome_iff_exists.1 hsome
    have hfree := (no_task_blocks_itself oneRestart .small).1 s
      (Run.reach_of_meets hmeets .init hs) .serverManager
    rw [hs, Option.any_some, hfree, Bool.not_false]
  · exact (no_task_blocks_itself oneRestart .small).2 _
      (Config.small.reachable_of_meets _ (by decide +kernel) (by decide +kernel))

/-- **At its restart limit the manager waits for the guard it holds.** -/
theorem not_free_limitRun : ¬ ∀ (cfg : ManagerConfig) (s : State Task ManagerLocals),
    Run.Reach State.step Run.Any (Task.start cfg) s → ∀ t, s.selfBlocked t = false := by
  intro hall
  have hblocked : (Run.exec State.step (Task.start oneRestart) limitRun).any
      (fun s => s.selfBlocked .serverManager) = true := by decide +kernel
  obtain ⟨s, hs, hself⟩ := (Option.any_eq_true _ _).1 hblocked
  rw [hall oneRestart s (Run.reach_of_exec hs .init) .serverManager] at hself
  cases hself

end Mux

end VcOperator
