import VcOperator.Mux.Helpers.Moves
/-!
# The tasks that know neither the manager nor the inspector

Handlers, the router and the reaper neither leave the mutex locked nor
touch the channel on which a restart is asked for.
-/

namespace VcOperator

namespace Mux

/-- **The mutex and the restart channel are left as they are.** -/
structure Apart (sh sh' : Shared) : Prop where
  stateLocked : sh'.stateLocked = sh.stateLocked
  restartRx : sh'.restartRx = sh.restartRx

variable {sh sh' : Shared}

theorem ClientOp.Forwarded.apart {c : ℕ} {msg : Tagged Value} {ops : List ClientOp}
    (h : Forwarded c msg sh sh' ops) : Apart sh sh' := by
  cases h <;> exact ⟨rfl, rfl⟩

theorem ClientOp.Initialized.apart {c : ℕ} {val : Value} {lid : Tagged Value}
    {ops : List ClientOp} (h : Initialized c val lid (initializePending sh c) sh' ops) :
    Apart sh sh' := by
  cases h <;> exact ⟨rfl, rfl⟩

theorem ClientOp.apart_run {enc : Value → ℕ} {c : ℕ} {op : ClientOp} {ops : List ClientOp}
    (h : op.run enc c sh = some (sh', ops)) : Apart sh sh' := by
  cases op with
  | forwardRequest msg =>
    rw [run, Option.some.injEq] at h
    exact (forwarded_of_run h).apart
  | flushBuffered buffered =>
    cases buffered with
    | nil => cases h; exact ⟨rfl, rfl⟩
    | cons msg buffered =>
      cases hr : runForwardRequest c msg sh with
      | mk sh₁ ops₁ =>
        rw [run, hr] at h
        cases h
        exact (forwarded_of_run hr).apart
  | handleInitialize val lid =>
    rw [run, Option.some.injEq] at h
    exact (initialized_of_run h).apart
  | send msg isInitialize =>
    simp only [run] at h
    split at h
    · cases h; exact ⟨rfl, rfl⟩
    · split at h <;> cases h
      cases isInitialize <;> exact ⟨rfl, rfl⟩
  | markServerInitialized msg | trySend msg | checkHandshake msg =>
    simp only [run] at h
    split at h <;> cases h <;> exact ⟨rfl, rfl⟩
  | handleClientMessage _ | rejectTooLarge _ | completeHandshake | bufferMessage _
  | updateQueueDepth | publishStatus | rejectHandshakeTimeout | unregisterClient
  | releasePermit => cases h; exact ⟨rfl, rfl⟩

theorem RouterOp.apart_run {order : List String} {op : RouterOp} {ops : List RouterOp}
    (h : op.run order sh = some (sh', ops)) : Apart sh sh' := by
  rw [run_frame h]
  exact ⟨rfl, rfl⟩

theorem apart_dispatch (event : ServerEvent) (rest : List ServerEvent) (sh : Shared) :
    Apart sh (RouterOp.dispatch event { sh with serverEvents := rest }).1 := by
  rw [RouterOp.dispatch_frame]
  exact ⟨rfl, rfl⟩

theorem ReaperOp.apart_run {order : List String} {op : ReaperOp} {ops : List ReaperOp}
    (h : op.run order sh = some (sh', ops)) : Apart sh sh' := by
  rw [run_frame h]
  exact ⟨rfl, rfl⟩

end Mux

end VcOperator
