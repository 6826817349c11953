import VcOperator.Launch.Model.Action
/-!
# The readiness deadline, by the clock

`wait_for_interactive_launch` again, with what it asks of the clock, of the
probe and of the child, call by call. The rounds that come before the
deadline are here found by reading the clock, where the coarser
`pollReadiness` is given them.
-/

namespace VcOperator

namespace Launch

namespace Deadline

/-- `READINESS_DEADLINE`, in nanoseconds. -/
def readinessDeadline : ℕ := 2000000000

/-- What a round of the loop finds. -/
structure Round where
  /-- `Instant::now()`. -/
  now : ℕ
  tick : Tick

/-- A call, and what comes of it. -/
inductive Call where
  | clock (now : ℕ)
  | probe (seen : Except String Bool)
  | tryWait (exited : Except String Bool)
  | waitWithOutput (finish : Except String Output)
  | kill
  | wait

/-- A wait that has returned. -/
structure Waited where
  calls : List Call
  result : Except ExecError Output

/-- A round that has passed comes first. -/
def Waited.after (waited : Waited) (calls : List Call) : Waited :=
  { waited with calls := calls ++ waited.calls }

/-- The first error is the one that is kept. -/
def keepFirst (probeError : Option String) : Except String Bool → Option String
  | .ok _ => probeError
  | .error error => some (probeError.getD error)

/-- The loop: `none` while the clock has more readings to come. -/
def pollReadiness (probe : LaunchReadinessProbe) (deadline : ℕ) (finish : Except String Output) :
    List Round → Option String → Option Waited
  | [], _ => none
  | round :: rounds, probeError =>
    if round.now < deadline then
      let seen := probe.isSessionVisible round.tick.probe
      match seen with
      | .ok true =>
        some ⟨[.clock round.now, .probe seen, .waitWithOutput finish],
          waitWithOutput finish probeError⟩
      | .ok false | .error _ =>
        let probeError := keepFirst probeError seen
        match round.tick.exited with
        | .ok true =>
          some ⟨[.clock round.now, .probe seen, .tryWait (.ok true), .waitWithOutput finish],
            match waitWithOutput finish probeError with
            | .error error => .error error
            | .ok output =>
              if output.success then
                .error ⟨"zellij session '" ++ probe.sessionName ++
                  "' exited before the readiness probe saw it",
                  Utf8.fromUtf8Lossy output.stderr, probeError, none⟩
              else .ok output⟩
        | .ok false =>
          (pollReadiness probe deadline finish rounds probeError).map
            (·.after [.clock round.now, .probe seen, .tryWait (.ok false)])
        | .error err =>
          some ⟨[.clock round.now, .probe seen, .tryWait (.error err)],
            .error ⟨"failed to inspect launch child: " ++ err, "", probeError, none⟩⟩
    else
      -- what killing and waiting give is not looked at
      some ⟨[.clock round.now, .kill, .wait], .error {
        message := "zellij session '" ++ probe.sessionName ++
          "' did not appear within the 2000ms readiness window"
        stderr := ""
        probeError := probeError
        probeErrorAtDeadline := probeError.map fun error =>
          "killed after 2000ms, last probe error: " ++ error }⟩

/-- `wait_for_interactive_launch`, from a first reading of the clock on. -/
def waitForInteractiveLaunch (command : LaunchCommand) (start : ℕ) (rounds : List Round)
    (finish : Except String Output) : Option Waited :=
  match command.readinessProbe with
  | some probe => pollReadiness probe (start + readinessDeadline) finish rounds none
  | none => some ⟨[.waitWithOutput finish], waitWithOutput finish none⟩

/-! ## What has been called -/

/-- What a call of the probe says. -/
def Call.seen? : Call → Option (Except String Bool)
  | probe seen => some seen
  | _ => none

/-- The error of a call of the probe. -/
def Call.probeError? : Call → Option String
  | probe (.error error) => some error
  | _ => none

/-- `child.kill()`. -/
def Call.isKill : Call → Bool
  | kill => true
  | _ => false

/-- What the coarser loop says of a wait. -/
def Waited.toWait (waited : Waited) : Wait where
  killed := waited.calls.any Call.isKill
  result := waited.result

end Deadline

end Launch

end VcOperator
