import VcOperator.Json.RoundTrip
import VcOperator.Status.Model.Document
/-!
# What the console reads of a status file

The reader of the operator console mirrors the snapshot of the mux by hand.
Of every snapshot it gets back the fields it shares, when its status is one
of the five the console knows.
-/

namespace VcOperator

namespace Status

open Mux

/-- The status of the mux a status of the console stands for. -/
def MuxServerStatus.toServerStatus : MuxServerStatus → ServerStatus
  | .starting => .starting
  | .running => .running
  | .restarting => .restarting
  | .failed reason => .failed reason
  | .stopped => .stopped

/-- **The fields the two types share are equal.** -/
structure Mirrors (m : MuxStatusSnapshot) (s : Snapshot) : Prop where
  serviceName : m.serviceName = s.serviceName
  serverStatus : m.serverStatus.toServerStatus = s.serverStatus
  restarts : m.restarts = s.restarts
  connectedClients : m.connectedClients = s.connectedClients
  activeClients : m.activeClients = s.activeClients
  maxActiveClients : m.maxActiveClients = s.maxActiveClients
  pendingRequests : m.pendingRequests = s.pendingRequests
  cachedInitialize : m.cachedInitialize = s.cachedInitialize
  initializing : m.initializing = s.initializing
  lastReset : m.lastReset = s.lastReset
  queueDepth : m.queueDepth = s.queueDepth
  childPid : m.childPid = s.childPid
  maxRequestBytes : m.maxRequestBytes = s.maxRequestBytes
  restartBackoffMs : m.restartBackoffMs = s.restartBackoffMs
  restartBackoffMaxMs : m.restartBackoffMaxMs = s.restartBackoffMaxMs
  maxRestarts : m.maxRestarts = s.maxRestarts

/-! ## Reading one field -/

section

variable {α : Type} {read : Value → Option α} {name : String} {v : Value}
  {members : List (String × Value)}

/-- A member whose key occurs once is found by it, and it alone. -/
theorem filter_key_of_mem (hnodup : (members.map Prod.fst).Nodup) (hmem : (name, v) ∈ members) :
    members.filter (·.1 = name) = [(name, v)] := by
  induction members with
  | nil => cases hmem
  | cons m members ih =>
    rw [List.map_cons, List.nodup_cons] at hnodup
    rcases List.mem_cons.1 hmem with rfl | hmem
    · have hnone : members.filter (·.1 = name) = [] := by
        refine List.filter_eq_nil_iff.2 fun m hm hname => hnodup.1 ?_
        exact List.mem_map.2 ⟨m, hm, of_decide_eq_true hname⟩
      rw [List.filter_cons_of_pos (by simp), hnone]
    · have hne : m.1 ≠ name := by
        rintro rfl
        exact hnodup.1 (List.mem_map.2 ⟨_, hmem, rfl⟩)
      rw [List.filter_cons_of_neg (by simp [hne]), ih hnodup.2 hmem]

theorem readField_of_mem (hnodup : (members.map Prod.fst).Nodup) (hmem : (name, v) ∈ members) :
    readField read name members = read v := by
  rw [readField, filter_key_of_mem hnodup hmem]

/-- An `Option` is read back, where its content is. -/
theorem readOptional_of_mem (write : α → Value) {o : Option α}
    (hnodup : (members.map Prod.fst).Nodup) (hmem : (name, optional write o) ∈ members)
    (hread : ∀ a, o = some a → read (write a) = some a) (hnull : ∀ a, write a ≠ .null) :
    readOptional read name members = some o := by
  rw [readOptional, filter_key_of_mem hnodup hmem]
  cases o with
  | none => rfl
  | some a =>
    have hwrite : read (write a) = some a := hread a rfl
    have hne : write a ≠ .null := hnull a
    simp only [optional]
    generalize write a = v at hwrite hne
    cases v with
    | null => exact absurd rfl hne
    | bool _ | number _ | string _ | array _ | object _ => exact congrArg (Option.map some) hwrite

end

theorem asU64_unsigned {n : ℕ} (h : n < 2 ^ 64) : (unsigned n).asU64 = some n := by
  rw [unsigned, Value.asU64, UInt64.toNat_ofNat_of_lt' h]

theorem readU32_unsigned {n : ℕ} (h : n < 2 ^ 32) : readU32 (unsigned n) = some n := by
  rw [readU32, asU64_unsigned (Nat.lt_trans h (by decide)), Option.filter_some, if_pos]
  exact decide_eq_true h

/-- The console knows five statuses, by their names. -/
theorem readServerStatus_eq_some_iff {status : ServerStatus} {m : MuxServerStatus} :
    readServerStatus (serverStatusValue status) = some m ↔ m.toServerStatus = status := by
  cases status <;> cases m <;>
    simp [serverStatusValue, readServerStatus, MuxServerStatus.toServerStatus, eq_comm]

/-! ## Reading a snapshot -/

namespace Snapshot

/-- No field is written twice. -/
theorem nodup_members (s : Snapshot) : (s.members.map Prod.fst).Nodup := by
  show ([
    "service_name", "name", "server_status", "status_text", "level", "restarts",
    "connected_clients", "active_clients", "max_active_clients", "pending_requests",
    "cached_initialize", "initializing", "last_reset", "queue_depth", "child_pid",
    "max_request_bytes", "health_status", "heartbeat_latency_ms", "heartbeat", "uptime_ms",
    "in_backoff", "restart_backoff_ms", "restart_backoff_max_ms", "max_restarts"] :
      List String).Nodup
  decide

/-- What the console holds of a snapshot, with its status of it. -/
def mirror (s : Snapshot) (status : MuxServerStatus) : MuxStatusSnapshot where
  serviceName := s.serviceName
  serverStatus := status
  restarts := s.restarts
  connectedClients := s.connectedClients
  activeClients := s.activeClients
  maxActiveClients := s.maxActiveClients
  pendingRequests := s.pendingRequests
  cachedInitialize := s.cachedInitialize
  initializing := s.initializing
  lastReset := s.lastReset
  queueDepth := s.queueDepth
  childPid := s.childPid
  maxRequestBytes := s.maxRequestBytes
  restartBackoffMs := s.restartBackoffMs
  restartBackoffMaxMs := s.restartBackoffMaxMs
  maxRestarts := s.maxRestarts

theorem mirrors_mirror {s : Snapshot} {status : MuxServerStatus}
    (h : status.toServerStatus = s.serverStatus) : Mirrors (s.mirror status) s := by
  constructor <;> first | exact h | rfl

/-- **What is read of the members that are written**: everything, up to the status. -/
theorem ofMembers_members {s : Snapshot} (h : s.Fits) :
    MuxStatusSnapshot.ofMembers s.members =
      (readServerStatus (serverStatusValue s.serverStatus)).map s.mirror := by
  have hu64 {name n} (hmem : (name, unsigned n) ∈ s.members) (hn : n < 2 ^ 64) :
      readField Value.asU64 name s.members = some n := by
    rw [readField_of_mem s.nodup_members hmem, asU64_unsigned hn]
  have hbool {name b} (hmem : (name, .bool b) ∈ s.members) :
      readField readBool name s.members = some b :=
    readField_of_mem s.nodup_members hmem
  have hname : readField Value.asStr "service_name" s.members = some s.serviceName :=
    readField_of_mem (v := .string s.serviceName) s.nodup_members (by simp [members])
  have hstatus : readField readServerStatus "server_status" s.members =
      readServerStatus (serverStatusValue s.serverStatus) :=
    readField_of_mem s.nodup_members (by simp [members])
  have hreset : readOptional Value.asStr "last_reset" s.members = some s.lastReset :=
    readOptional_of_mem .string s.nodup_members (by simp [members])
      (fun _ _ => rfl) nofun
  have hpid : readOptional readU32 "child_pid" s.members = some s.childPid :=
    readOptional_of_mem unsigned s.nodup_members (by simp [members])
      (fun pid hpid => readU32_unsigned (h.childPid pid hpid)) nofun
  have hrestarts : readField Value.asU64 "restarts" s.members = some s.restarts :=
    hu64 (by simp [members]) h.restarts
  have hconnected : readField Value.asU64 "connected_clients" s.members = some s.connectedClients :=
    hu64 (by simp [members]) h.connectedClients
  have hactive : readField Value.asU64 "active_clients" s.members = some s.activeClients :=
    hu64 (by simp [members]) h.activeClients
  have hmax : readField Value.asU64 "max_active_clients" s.members = some s.maxActiveClients :=
    hu64 (by simp [members]) h.maxActiveClients
  have hpending : readField Value.asU64 "pending_requests" s.members = some s.pendingRequests :=
    hu64 (by simp [members]) h.pendingRequests
  have hcached : readField readBool "cached_initialize" s.members = some s.cachedInitialize :=
    hbool (by simp [members])
  have hinitializing : readField readBool "initializing" s.members = some s.initializing :=
    hbool (by simp [members])
  have hqueue : readField Value.asU64 "queue_depth" s.members = some s.queueDepth :=
    hu64 (by simp [members]) h.queueDepth
  have hbytes : readField Value.asU64 "max_request_bytes" s.members = some s.maxRequestBytes :=
    hu64 (by simp [members]) h.maxRequestBytes
  have hbackoff : readField Value.asU64 "restart_backoff_ms" s.members =
      some s.restartBackoffMs := hu64 (by simp [members]) h.restartBackoffMs
  have hbackoffMax : readField Value.asU64 "restart_backoff_max_ms" s.members =
      some s.restartBackoffMaxMs := hu64 (by simp [members]) h.restartBackoffMaxMs
  have hmaxRestarts : readField Value.asU64 "max_restarts" s.members = some s.maxRestarts :=
    hu64 (by simp [members]) h.maxRestarts
  simp only [MuxStatusSnapshot.ofMembers, hname, hstatus, hrestarts, hconnected, hactive, hmax,
    hpending, hcached, hinitializing, hreset, hqueue, hpid, hbytes, hbackoff, hbackoffMax,
    hmaxRestarts, Option.bind_eq_bind, Option.bind_some]
  cases readServerStatus (serverStatusValue s.serverStatus) <;> rfl

end Snapshot

/-- A status file has no doubles. -/
theorem plain_members (s : Snapshot) : Json.plain (.object s.members) = true := by
  have hunsigned : ∀ n, Json.plain (unsigned n) = true := fun _ => rfl
  have hoptional : ∀ {α : Type} (write : α → Value) (o : Option α),
      (∀ a, Json.plain (write a) = true) → Json.plain (optional write o) = true := by
    intro α write o h
    cases o with
    | none => rfl
    | some a => exact h a
  have hstatus : ∀ status, Json.plain (serverStatusValue status) = true := by
    intro status
    cases status <;> rfl
  have hlevel : ∀ level, Json.plain (levelValue level) = true := by
    intro level
    cases level <;> rfl
  have hheartbeat : ∀ m, Json.plain (heartbeatValue m) = true := by
    intro m
    simp [heartbeatValue, Json.plain, Json.plainMembers, hunsigned, hoptional unsigned _ hunsigned]
  simp [Snapshot.members, Json.plain, Json.plainMembers, hunsigned, hstatus, hlevel, hheartbeat,
    hoptional unsigned _ hunsigned, hoptional Value.string _ fun _ => rfl]

/-- So it is read as what it was written from. -/
theorem fromJson_statusFile (floats : Json.Floats) (s : EncodableSnapshot) :
    MuxStatusSnapshot.fromJson floats (statusFile floats s) =
      (readServerStatus (serverStatusValue s.1.serverStatus)).map s.1.mirror := by
  rw [statusFile, MuxStatusSnapshot.fromJson, Json.fromStr_toVecPretty (plain_members s.1)]
  exact Snapshot.ofMembers_members s.2

/-- **What the console reads of a status file**: the shared fields of the snapshot, exactly
where its status is none of the two the console does not know. -/
theorem fromJson_statusFile_iff (floats : Json.Floats) (s : EncodableSnapshot) :
    (∃ m, MuxStatusSnapshot.fromJson floats (statusFile floats s) = some m ∧ Mirrors m s.1) ↔
      s.1.serverStatus ≠ .lazy ∧ s.1.serverStatus ≠ .backoff := by
  rw [fromJson_statusFile]
  constructor
  · rintro ⟨m, -, hm⟩
    rw [← hm.serverStatus]
    cases m.serverStatus <;> exact ⟨nofun, nofun⟩
  · rintro ⟨hlazy, hbackoff⟩
    obtain ⟨status, hstatus⟩ :
        ∃ status : MuxServerStatus, status.toServerStatus = s.1.serverStatus := by
      cases hs : s.1.serverStatus with
      | starting => exact ⟨.starting, rfl⟩
      | running => exact ⟨.running, rfl⟩
      | restarting => exact ⟨.restarting, rfl⟩
      | failed reason => exact ⟨.failed reason, rfl⟩
      | stopped => exact ⟨.stopped, rfl⟩
      | lazy => exact absurd hs hlazy
      | backoff => exact absurd hs hbackoff
    refine ⟨s.1.mirror status, ?_, Snapshot.mirrors_mirror hstatus⟩
    rw [readServerStatus_eq_some_iff.2 hstatus]
    rfl

/-- The snapshot of a mux whose server has this status, before any client. -/
def freshSnapshot (status : ServerStatus) : Snapshot :=
  snapshotForState id { idleState with serverStatus := status } 0 0

theorem fits_freshSnapshot (status : ServerStatus) : (freshSnapshot status).Fits := by
  constructor <;>
    simp [freshSnapshot, snapshotForState, Mux.snapshotForState, idleState, MuxState.new,
      HeartbeatMetrics.default, HashMap.len]

/-- **The console does not know that a server waits for its restart.** -/
theorem not_fromJson_statusFile_backoff :
    ¬ ∀ (floats : Json.Floats) (s : EncodableSnapshot),
      ∃ m, MuxStatusSnapshot.fromJson floats (statusFile floats s) = some m ∧ Mirrors m s.1 := by
  intro h
  obtain ⟨m, -, hm⟩ := h ⟨fun _ => [], fun _ => none⟩ ⟨_, fits_freshSnapshot .backoff⟩
  have hstatus : m.serverStatus.toServerStatus = .backoff := hm.serverStatus
  cases hs : m.serverStatus <;> rw [hs] at hstatus <;> cases hstatus

end Status

end VcOperator
