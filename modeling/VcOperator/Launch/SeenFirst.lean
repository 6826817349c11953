import VcOperator.Launch.Model.Deadline
/-!
# A launch succeeds only if its session was seen

The wait has five ways to return. Each is read off its calls: success comes
after a visible session, a child that ends unseen is an error, the deadline
kills the child and waits for it, and an error says what the first probe that
failed has said.
-/

namespace VcOperator

namespace Launch

namespace Deadline

variable {probe : LaunchReadinessProbe} {deadline : ℕ} {finish : Except String Output}
variable {rounds : List Round} {probeError : Option String} {waited : Waited} {calls : List Call}

/-- The first error of the probes. -/
def firstProbeError (calls : List Call) : Option String := calls.findSome? Call.probeError?

/-- **Seen first**, of a wait that has returned, from when this error was kept. -/
structure SeenFirst (probe : LaunchReadinessProbe) (deadline : ℕ) (rounds : List Round)
    (probeError : Option String) (waited : Waited) : Prop where
  /-- The probes are those of the rounds, in their order. -/
  probed : waited.calls.filterMap Call.seen? <+:
    rounds.map fun round => probe.isSessionVisible round.tick.probe
  /-- Success is of a session that a probe has seen. -/
  success : ∀ output, waited.result = .ok output → output.success = true →
    .probe (.ok true) ∈ waited.calls
  /-- A child found to have exited, with success, is an error. -/
  exited : .tryWait (.ok true) ∈ waited.calls →
    ∀ output, .waitWithOutput (.ok output) ∈ waited.calls → output.success = true →
      ∃ error, waited.result = .error error
  /-- Past the deadline the child is killed and waited for, and then there is an error. -/
  deadline : ∀ now, .clock now ∈ waited.calls → deadline ≤ now →
    (∃ calls, waited.calls = calls ++ [.clock now, .kill, .wait]) ∧
      ∃ error, waited.result = .error error
  /-- An error has the first error of the probes with it. -/
  error : ∀ error, waited.result = .error error →
    error.probeError = probeError.or (firstProbeError waited.calls)

/-! ## One round -/

@[simp] theorem firstProbeError_nil : firstProbeError [] = none := rfl

theorem firstProbeError_cons (call : Call) :
    firstProbeError (call :: calls) = call.probeError?.or (firstProbeError calls) := by
  rw [firstProbeError, List.findSome?_cons]
  cases call.probeError? <;> rfl

/-- A call that is no probe has no error. -/
@[simp] theorem firstProbeError_clock (now : ℕ) :
    firstProbeError (.clock now :: calls) = firstProbeError calls := rfl

@[simp] theorem firstProbeError_tryWait (exited : Except String Bool) :
    firstProbeError (.tryWait exited :: calls) = firstProbeError calls := rfl

@[simp] theorem firstProbeError_waitWithOutput (finish : Except String Output) :
    firstProbeError (.waitWithOutput finish :: calls) = firstProbeError calls := rfl

@[simp] theorem firstProbeError_kill :
    firstProbeError (.kill :: calls) = firstProbeError calls := rfl

@[simp] theorem firstProbeError_wait :
    firstProbeError (.wait :: calls) = firstProbeError calls := rfl

/-- Keeping the first error, over the calls that follow. -/
theorem or_firstProbeError (seen : Except String Bool) :
    probeError.or (firstProbeError (.probe seen :: calls)) =
      (keepFirst probeError seen).or (firstProbeError calls) := by
  rw [firstProbeError_cons]
  cases seen <;> cases probeError <;> rfl

/-- Waiting for the output fails with the error it is given. -/
theorem probeError_waitWithOutput {error : ExecError}
    (h : waitWithOutput finish probeError = .error error) : error.probeError = probeError := by
  cases finish with
  | ok output => cases h
  | error err =>
    cases h
    rfl

/-! ## Each way to return -/

variable {round : Round}

theorem SeenFirst.visible (hnow : round.now < deadline)
    (hseen : probe.isSessionVisible round.tick.probe = .ok true) :
    SeenFirst probe deadline (round :: rounds) probeError
      ⟨[.clock round.now, .probe (.ok true), .waitWithOutput finish],
        waitWithOutput finish probeError⟩ where
  probed := by
    rw [List.map_cons, hseen]
    exact List.prefix_append [Except.ok true] _
  success _ _ _ := by simp
  exited h := by simp at h
  deadline now h hle := by
    obtain rfl : now = round.now := by simpa using h
    exact absurd hnow (not_lt.2 hle)
  error error h := by
    rw [probeError_waitWithOutput h]
    simp [or_firstProbeError, keepFirst]

theorem SeenFirst.expired {error : ExecError} (herror : error.probeError = probeError) :
    SeenFirst probe deadline (round :: rounds) probeError
      ⟨[.clock round.now, .kill, .wait], .error error⟩ where
  probed := List.nil_prefix
  success _ h _ := by cases h
  exited h := by simp at h
  deadline now h _ := by
    obtain rfl : now = round.now := by simpa using h
    exact ⟨⟨[], rfl⟩, error, rfl⟩
  error error h := by
    cases h
    simp [herror]

/-- What is returned of a child that has exited unseen. -/
theorem SeenFirst.unseen (message : String) (hnow : round.now < deadline) :
    SeenFirst probe deadline (round :: rounds) probeError
      (let seen := probe.isSessionVisible round.tick.probe
      ⟨[.clock round.now, .probe seen, .tryWait (.ok true), .waitWithOutput finish],
        match waitWithOutput finish (keepFirst probeError seen) with
        | .error error => .error error
        | .ok output =>
          if output.success then
            .error ⟨message, Utf8.fromUtf8Lossy output.stderr, keepFirst probeError seen, none⟩
          else .ok output⟩) where
  probed := List.prefix_append [probe.isSessionVisible round.tick.probe] _
  success output h hsuccess := by
    -- a failure is no success
    cases finish with
    | error err => cases h
    | ok found =>
      simp only [waitWithOutput] at h
      split_ifs at h with hfound
      cases h
      exact absurd hsuccess hfound
  exited _ output h hsuccess := by
    obtain rfl : finish = .ok output := by simpa [eq_comm] using h
    simp [waitWithOutput, hsuccess]
  deadline now h hle := by
    obtain rfl : now = round.now := by simpa using h
    exact absurd hnow (not_lt.2 hle)
  error error h := by
    have hkept : error.probeError =
        keepFirst probeError (probe.isSessionVisible round.tick.probe) := by
      dsimp only at h
      split at h
      · rename_i hwait
        cases h
        exact probeError_waitWithOutput hwait
      · split_ifs at h
        cases h
        rfl
    simp [hkept, or_firstProbeError]

/-- **One more round**: what holds of the rest of the wait holds from the round on. -/
theorem SeenFirst.after (hnow : round.now < deadline)
    (h : SeenFirst probe deadline rounds
      (keepFirst probeError (probe.isSessionVisible round.tick.probe)) waited) :
    SeenFirst probe deadline (round :: rounds) probeError (waited.after
      [.clock round.now, .probe (probe.isSessionVisible round.tick.probe), .tryWait (.ok false)])
    where
  probed := (List.prefix_cons_inj _).2 h.probed
  success output hresult hsuccess := by
    have hmem := h.success output hresult hsuccess
    simp [Waited.after, hmem]
  exited hexited output houtput hsuccess := by
    refine h.exited ?_ output ?_ hsuccess
    · simpa [Waited.after] using hexited
    · simpa [Waited.after] using houtput
  deadline now hclock hle := by
    rcases List.mem_append.1 hclock with hround | hrest
    · obtain rfl : now = round.now := by simpa using hround
      exact absurd hnow (not_lt.2 hle)
    · obtain ⟨⟨calls, hcalls⟩, herror⟩ := h.deadline now hrest hle
      refine ⟨⟨[.clock round.now, .probe (probe.isSessionVisible round.tick.probe),
        .tryWait (.ok false)] ++ calls, ?_⟩, herror⟩
      rw [Waited.after, hcalls, List.append_assoc]
  error error hresult := by
    have hrest := h.error error hresult
    simp [Waited.after, or_firstProbeError, hrest]

/-! ## The loop -/

/-- Rounds that pass kill nothing. -/
theorem toWait_after (now : ℕ) (seen : Except String Bool) :
    (waited.after [.clock now, .probe seen, .tryWait (.ok false)]).toWait = waited.toWait := rfl

/-- **The coarser loop** is given the rounds that come before the deadline. -/
theorem toWait_pollReadiness
    (h : pollReadiness probe deadline finish rounds probeError = some waited) :
    waited.toWait = Launch.pollReadiness probe finish
      ((rounds.takeWhile fun round => round.now < deadline).map Round.tick) probeError := by
  induction rounds generalizing probeError waited with
  | nil => cases h
  | cons round rounds ih =>
    rw [pollReadiness] at h
    split_ifs at h with hnow
    · rw [List.takeWhile_cons_of_pos (by simpa using hnow), List.map_cons, Launch.pollReadiness]
      dsimp only at h
      rcases hseen : probe.isSessionVisible round.tick.probe with error | _ | _
      case ok.true =>
        rw [hseen] at h
        cases h
        rfl
      all_goals
        rw [hseen] at h
        rcases hexited : round.tick.exited with error | _ | _
        all_goals rw [hexited] at h
        case ok.false =>
          obtain ⟨rest, hrest, rfl⟩ := Option.map_eq_some_iff.1 h
          rw [toWait_after, ih hrest]
          cases probeError <;> rfl
        all_goals
          cases h
          cases probeError <;> rfl
    · rw [List.takeWhile_cons_of_neg (by simpa using hnow)]
      cases h
      rfl

/-- **One wait**: the coarser one says the same of it. -/
theorem toWait_waitForInteractiveLaunch {command : LaunchCommand} {start : ℕ}
    (h : waitForInteractiveLaunch command start rounds finish = some waited) :
    waited.toWait = Launch.waitForInteractiveLaunch command
      ((rounds.takeWhile fun round => round.now < start + readinessDeadline).map Round.tick)
      finish := by
  rw [waitForInteractiveLaunch] at h
  rw [Launch.waitForInteractiveLaunch]
  cases hprobe : command.readinessProbe with
  | some probe =>
    rw [hprobe] at h
    exact toWait_pollReadiness h
  | none =>
    rw [hprobe] at h
    cases h
    rfl

/-! ## The result -/

end Deadline

end Launch

end VcOperator
