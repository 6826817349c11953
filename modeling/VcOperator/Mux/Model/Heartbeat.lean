import Mathlib.Algebra.GroupWithZero.Nat
import VcOperator.Mux.Model.Shared
/-!
# The heartbeat inspector

`HeartbeatState` and the task of `spawn_heartbeat_inspector`
(`mux-agent/src/runtime/heartbeat.rs`). The task has one `select!` loop.
Between turns its list of operations is empty, and a turn is begun by an
interval tick (`probe`) or by an event of `heartbeat_rx`; the operations
of a turn run to their end before the next turn begins.

`fired` stands for the `oneshot` channels: an id is in it once its
sender has been used. A sender dropped unused would close its channel,
which no code path does while the receiver waits.
-/

namespace VcOperator

namespace Mux

/-- `RESPONSE_TIME_SAMPLES`. -/
def responseTimeSamples : ℕ := 10

/-- `HeartbeatConfig`. -/
structure HeartbeatConfig where
  interval : ℕ
  timeout : ℕ
  maxFailures : ℕ
  enabled : Bool

/-- `HeartbeatState`. -/
structure HeartbeatState where
  responseTimes : List ℕ
  metrics : HeartbeatMetrics
  config : HeartbeatConfig
  nextHeartbeatId : ℕ
  pending : HashMap String ℕ
  fired : List String

namespace HeartbeatState

/-- `HeartbeatState::new`. -/
def new (config : HeartbeatConfig) : HeartbeatState where
  responseTimes := []
  metrics := { HeartbeatMetrics.default with enabled := config.enabled }
  config := config
  nextHeartbeatId := 1
  pending := ∅
  fired := []

/-- `next_id`: the id it returns is `heartbeatId hb.nextHeartbeatId`. -/
def nextId (hb : HeartbeatState) : HeartbeatState :=
  { hb with nextHeartbeatId := hb.nextHeartbeatId + 1 }

/-- `record_success`, at wall-clock time `now`. -/
def recordSuccess (hb : HeartbeatState) (now responseTimeMs : ℕ) : HeartbeatState :=
  let kept :=
    if responseTimeSamples ≤ hb.responseTimes.length then hb.responseTimes.tail
    else hb.responseTimes
  let times := kept ++ [responseTimeMs]
  { hb with
    responseTimes := times
    metrics := { hb.metrics with
      lastHeartbeatMs := some now
      avgResponseMs := some (times.sum / times.length)
      consecutiveFailures := 0
      totalSuccess := hb.metrics.totalSuccess + 1 } }

/-- `record_failure`. -/
def recordFailure (hb : HeartbeatState) : HeartbeatState :=
  { hb with
    metrics := { hb.metrics with
      consecutiveFailures := hb.metrics.consecutiveFailures + 1
      totalFailures := hb.metrics.totalFailures + 1 } }

/-- `should_restart`. -/
def shouldRestart (hb : HeartbeatState) : Bool :=
  decide (hb.config.maxFailures ≤ hb.metrics.consecutiveFailures)

end HeartbeatState

/-- The operations of the inspector's turn. -/
inductive HeartbeatOp where
  /-- An interval tick: the guard, and the next id. -/
  | probe
  /-- `to_server_tx.send(probe).await`. -/
  | sendProbe (n startedAt : ℕ)
  /-- `tokio::time::timeout(config.timeout, response_rx).await`. -/
  | awaitResponse (n startedAt deadline : ℕ)
  | updateStateMetrics
  | publishStatus
  | checkRestart

namespace HeartbeatOp

/-- The operation is a lock section. -/
def locks : HeartbeatOp → Bool
  | probe | updateStateMetrics | publishStatus => true
  | _ => false

/-- The probe message. -/
def pingMessage (n : ℕ) : Value :=
  .object [
    ("id", .string (heartbeatId n)),
    ("jsonrpc", .string "2.0"),
    ("method", .string "ping"),
    ("params", .object [])]

/-- What ends a turn that sent a probe. -/
def conclude : List HeartbeatOp := [updateStateMetrics, publishStatus, checkRestart]

/-- The text of the restart signal. -/
def restartReason (hb : HeartbeatState) : String :=
  "heartbeat timeout (" ++ toString hb.metrics.consecutiveFailures ++ " consecutive failures)"

/-- One operation of the inspector. -/
def run (hb : HeartbeatState) (sh : Shared) :
    HeartbeatOp → Option (HeartbeatState × Shared × List HeartbeatOp)
  | probe =>
    if sh.st.serverStatus = .running && sh.st.serverInitialized then
      let n := hb.nextHeartbeatId
      some ({ hb.nextId with pending := hb.pending.insert (heartbeatId n) sh.now }, sh,
        [sendProbe n sh.now])
    else some (hb, sh, [])
  | sendProbe n startedAt =>
    if !sh.toServerOpen then
      some ({ hb with pending := hb.pending.remove (heartbeatId n) }.recordFailure, sh, conclude)
    else if sh.hasRoom then
      some (hb, sh.enqueue ⟨pingMessage n, .heartbeat n⟩,
        [awaitResponse n startedAt (sh.now + hb.config.timeout)])
    else none
  | awaitResponse n startedAt deadline =>
    let hb' := { hb with pending := hb.pending.remove (heartbeatId n) }
    if heartbeatId n ∈ hb.fired then
      some (hb'.recordSuccess sh.now (sh.now - startedAt), sh, conclude)
    else if deadline ≤ sh.now then some (hb'.recordFailure, sh, conclude)
    else none
  | updateStateMetrics =>
    some (hb, { sh with st := { sh.st with heartbeatMetrics := hb.metrics } }, [])
  | publishStatus => some (hb, sh.publishStatus, [])
  | checkRestart =>
    if hb.shouldRestart then
      some (hb, { sh with restartRx := sh.restartRx ++ [restartReason hb] }, [])
    else some (hb, sh, [])

/-- A turn on an event of `heartbeat_rx`: the probe it names, if one is
pending, is told. -/
def handleEvent (hb : HeartbeatState) (id : String) : HeartbeatState :=
  match hb.pending.get id with
  | some _ => { hb with pending := hb.pending.remove id, fired := hb.fired ++ [id] }
  | none => hb

end HeartbeatOp

end Mux

end VcOperator
