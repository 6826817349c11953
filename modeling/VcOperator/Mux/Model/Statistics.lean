import VcOperator.Common.Machine
import VcOperator.Mux.Model.Heartbeat
/-!
# The statistics of the heartbeat, by their widths

`record_success`, `record_failure` and `should_restart` again, over the
machine's integers. What they leave alone of `HeartbeatState` is not there.
-/

namespace VcOperator

namespace Mux

open Machine (Overflow)

/-- What `HeartbeatState` counts and measures. -/
structure Statistics where
  responseTimes : List (BitVec 64)
  lastHeartbeatMs : Option (BitVec 64)
  avgResponseMs : Option (BitVec 64)
  totalSuccess : BitVec 64
  totalFailures : BitVec 64
  consecutiveFailures : BitVec 32
  /-- `config.max_failures`. -/
  maxFailures : BitVec 32

namespace Statistics

/-- `HeartbeatState::new`. -/
def new (maxFailures : BitVec 32) : Statistics where
  responseTimes := []
  lastHeartbeatMs := none
  avgResponseMs := none
  totalSuccess := 0
  totalFailures := 0
  consecutiveFailures := 0
  maxFailures := maxFailures

/-- `record_success`, at wall-clock time `now`. -/
def recordSuccess (mode : Overflow) (hb : Statistics) (now responseTimeMs : BitVec 64) :
    Option Statistics := do
  let kept :=
    if responseTimeSamples ≤ hb.responseTimes.length then hb.responseTimes.tail
    else hb.responseTimes
  let times := kept ++ [responseTimeMs]
  let sum ← Machine.sum mode times
  let avg ← Machine.div sum (.ofNat 64 times.length)
  let totalSuccess ← Machine.add mode hb.totalSuccess 1
  return { hb with
    responseTimes := times
    lastHeartbeatMs := some now
    avgResponseMs := some avg
    consecutiveFailures := 0
    totalSuccess := totalSuccess }

/-- `record_failure`. -/
def recordFailure (mode : Overflow) (hb : Statistics) : Option Statistics := do
  let consecutiveFailures ← Machine.add mode hb.consecutiveFailures 1
  let totalFailures ← Machine.add mode hb.totalFailures 1
  return { hb with consecutiveFailures := consecutiveFailures, totalFailures := totalFailures }

/-- `should_restart`. -/
def shouldRestart (hb : Statistics) : Bool := decide (hb.maxFailures ≤ hb.consecutiveFailures)

end Statistics

/-- A call that records. -/
inductive Recording (α : Type) where
  | success (now responseTimeMs : α)
  | failure

namespace Recording

/-- The call with other numbers. -/
def map {α β : Type} (f : α → β) : Recording α → Recording β
  | success now responseTimeMs => success (f now) (f responseTimeMs)
  | failure => failure

/-- The sample of a call. -/
def sample? {α : Type} : Recording α → Option α
  | success _ responseTimeMs => some responseTimeMs
  | failure => none

/-- `record_failure`. -/
def isFailure {α : Type} : Recording α → Bool
  | success .. => false
  | failure => true

end Recording

/-- A call. -/
def HeartbeatState.record (hb : HeartbeatState) : Recording ℕ → HeartbeatState
  | .success now responseTimeMs => hb.recordSuccess now responseTimeMs
  | .failure => hb.recordFailure

/-- A call: none where it overflows, and an overflow stops the program. -/
def Statistics.record (mode : Overflow) (hb : Statistics) :
    Recording (BitVec 64) → Option Statistics
  | .success now responseTimeMs => hb.recordSuccess mode now responseTimeMs
  | .failure => hb.recordFailure mode

/-- A state with these statistics. -/
def Statistics.over (hb : Statistics) (state : HeartbeatState) : HeartbeatState :=
  { state with
    responseTimes := hb.responseTimes.map BitVec.toNat
    metrics := { state.metrics with
      lastHeartbeatMs := hb.lastHeartbeatMs.map BitVec.toNat
      avgResponseMs := hb.avgResponseMs.map BitVec.toNat
      totalSuccess := hb.totalSuccess.toNat
      totalFailures := hb.totalFailures.toNat
      consecutiveFailures := hb.consecutiveFailures.toNat }
    config := { state.config with maxFailures := hb.maxFailures.toNat } }

end Mux

end VcOperator
