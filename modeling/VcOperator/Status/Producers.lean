import Mathlib.Order.Nat
import VcOperator.Status.Model.Snapshot
/-!
# When the producers of a status agree

`GetStatus` takes every permit for a client, and `collect_status` has a
level, a text and a latency of its own. So the three agree where no permit
is left, the server is starting or runs without heartbeat failures, and the
last latency is the average.
-/

namespace VcOperator

namespace Status

open Mux Control

/-- The fields `MultiServerStatus` shares with a snapshot. -/
def Snapshot.shared (s : Snapshot) : MultiServerStatus where
  name := s.name
  level := s.level
  statusText := s.statusText
  connectedClients := s.connectedClients
  activeClients := s.activeClients
  maxActiveClients := s.maxActiveClients
  pendingRequests := s.pendingRequests
  restarts := s.restarts
  uptimeMs := s.uptimeMs
  inBackoff := s.inBackoff
  heartbeatLatencyMs := s.heartbeatLatencyMs

/-- **The producers agree** at a state: the response to `GetStatus` is the snapshot that
is published, and what `collect_status` reports of the server is what the
snapshot says. -/
structure ProducersAgree (debugStr : String → String) (st : MuxState) (now availablePermits : ℕ)
    (servers : Servers) (startTime : ℕ) (verify : ClientKind → VerifyResult) : Prop where
  getStatus : handleCommand debugStr st now verify .getStatus =
    .status (publishStatus debugStr st now availablePermits).1
  collected : ∀ entry ∈ (collectStatus (servers.registerServer (.of st availablePermits))
    startTime now).servers, entry.name = st.serviceName →
      entry = (publishStatus debugStr st now availablePermits).1.shared

variable {debugStr : String → String} {st : MuxState} {now availablePermits : ℕ}

/-- The response to `GetStatus` is published where no permit is left. -/
theorem getStatus_eq_iff (debugStr : String → String) (now : ℕ)
    (verify : ClientKind → VerifyResult) :
    handleCommand debugStr st now verify .getStatus =
        .status (publishStatus debugStr st now availablePermits).1 ↔
      availablePermits = 0 ∨ st.maxActiveClients = 0 := by
  constructor
  · intro h
    have hactive : st.maxActiveClients = st.maxActiveClients - availablePermits :=
      congrArg (·.activeClients) (MuxControlResponse.status.inj h)
    omega
  · intro h
    have hactive : st.maxActiveClients - availablePermits = st.maxActiveClients := by omega
    rw [publishStatus, hactive]
    rfl

/-- **A server is reported once**, as `collect_status` sees it. -/
theorem mem_collectStatus_iff (servers : Servers) (serverRef : ServerRef) (startTime : ℕ)
    {entry : MultiServerStatus} :
    entry ∈ (collectStatus (servers.registerServer serverRef) startTime now).servers ∧
        entry.name = serverRef.name ↔
      entry = collectServer now serverRef.name serverRef := by
  have hget : HashMap.get (servers.registerServer serverRef) serverRef.name = some serverRef :=
    HashMap.get_insert servers serverRef.name serverRef
  rw [collectStatus, List.mem_mergeSort, List.mem_map]
  constructor
  · rintro ⟨⟨⟨name, other⟩, hmem, rfl⟩, hname⟩
    obtain rfl : name = serverRef.name := hname
    have hother := HashMap.mem_entries_iff.1 hmem
    rw [hget, Option.some.injEq] at hother
    rw [hother]
  · rintro rfl
    exact ⟨⟨_, HashMap.mem_entries_iff.2 hget, rfl⟩, rfl⟩

/-- The level and the text agree where the server is starting, or runs without heartbeat
failures. -/
theorem levelAndText_eq_iff (debugStr : String → String) :
    levelAndText st = (.ok, debugStatus debugStr st.serverStatus) ↔
      st.serverStatus = .starting ∨
        st.serverStatus = .running ∧ st.heartbeatMetrics.consecutiveFailures = 0 := by
  rw [levelAndText]
  cases hs : st.serverStatus with
  | running =>
    by_cases hf : 0 < st.heartbeatMetrics.consecutiveFailures
    · simp [hf, hf.ne']
    · simp [Nat.eq_zero_of_not_pos hf, debugStatus]
  | starting => simp [debugStatus]
  | restarting | failed _ | stopped | lazy | backoff => simp

/-- What `collect_status` reports is in the snapshot where level, text and latency agree. -/
theorem collectServer_eq_iff (debugStr : String → String) (now availablePermits : ℕ) :
    collectServer now st.serviceName (.of st availablePermits) =
        (publishStatus debugStr st now availablePermits).1.shared ↔
      (st.serverStatus = .starting ∨
          st.serverStatus = .running ∧ st.heartbeatMetrics.consecutiveFailures = 0) ∧
        st.heartbeatMetrics.latencyMs = st.heartbeatMetrics.avgResponseMs := by
  rw [← levelAndText_eq_iff debugStr, Prod.ext_iff]
  simp only [collectServer, ServerRef.of, publishStatus, snapshotForState, Mux.snapshotForState,
    Snapshot.shared, MultiServerStatus.mk.injEq, true_and]
  constructor
  · rintro ⟨hlevel, htext, hlatency⟩
    exact ⟨⟨hlevel, htext⟩, hlatency.symm⟩
  · rintro ⟨⟨hlevel, htext⟩, hlatency⟩
    exact ⟨hlevel, htext, hlatency.symm⟩

/-- **When the producers agree**, at every state and number of permits. -/
theorem producersAgree_iff (debugStr : String → String) (st : MuxState)
    (now availablePermits : ℕ) (servers : Servers) (startTime : ℕ)
    (verify : ClientKind → VerifyResult) :
    ProducersAgree debugStr st now availablePermits servers startTime verify ↔
      (availablePermits = 0 ∨ st.maxActiveClients = 0) ∧
        (st.serverStatus = .starting ∨
          st.serverStatus = .running ∧ st.heartbeatMetrics.consecutiveFailures = 0) ∧
        st.heartbeatMetrics.latencyMs = st.heartbeatMetrics.avgResponseMs := by
  have hcollected :
      (∀ entry ∈ (collectStatus (servers.registerServer (.of st availablePermits))
          startTime now).servers, entry.name = st.serviceName →
            entry = (publishStatus debugStr st now availablePermits).1.shared) ↔
        collectServer now st.serviceName (.of st availablePermits) =
          (publishStatus debugStr st now availablePermits).1.shared := by
    constructor
    · intro h
      obtain ⟨hmem, hname⟩ :=
        (mem_collectStatus_iff servers (.of st availablePermits) startTime).2 rfl
      exact h _ hmem hname
    · intro h entry hmem hname
      rw [(mem_collectStatus_iff servers (.of st availablePermits) startTime).1 ⟨hmem, hname⟩]
      exact h
  rw [← getStatus_eq_iff debugStr now verify,
    ← collectServer_eq_iff debugStr now availablePermits, ← hcollected]
  exact ⟨fun h => ⟨h.getStatus, h.collected⟩, fun h => ⟨h.1, h.2⟩⟩

/-- **A mux without clients**: `GetStatus` reports that all of its places are taken. -/
theorem not_producersAgree_idle :
    ¬ ∀ (debugStr : String → String) (st : MuxState) (now availablePermits : ℕ)
      (servers : Servers) (startTime : ℕ) (verify : ClientKind → VerifyResult),
      ProducersAgree debugStr st now availablePermits servers startTime verify := by
  intro h
  have hactive := (getStatus_eq_iff _ _ _).1 (h id idleState 0 2 ∅ 0 fun _ => ⟨true, []⟩).getStatus
  revert hactive
  decide

end Status

end VcOperator
