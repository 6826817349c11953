import Mathlib.Data.List.Sort
import Mathlib.Data.String.Basic
import VcOperator.Control.Truncated
import VcOperator.Status.Model.Endpoint
import VcOperator.Status.Producers
/-!
# A status query

What a query of the daemon's status socket gives. `collectStatus_exact` is
about the status itself: one entry for each server, by name, and counts that
agree with the levels. `queryStatus_arrived` is about its way to whoever
asked: it arrives as it was, or there is an error, wherever the connection
ends.
-/

namespace VcOperator

namespace Status

open Control (Bytes bind_of_some fromSlice_eq_none_of_cut plainElements_map readField_unsigned
  readLevel readLevel_value readOptional_unsigned readStruct_object readVec readVec_map toLine toVec)

/-! ## The document -/

variable {floats : Json.Floats}

theorem MultiServerStatus.nodup_members (s : MultiServerStatus) :
    (s.members.map Prod.fst).Nodup := by
  show (["name", "level", "status_text", "connected_clients", "active_clients",
    "max_active_clients", "pending_requests", "restarts", "uptime_ms", "in_backoff",
    "heartbeat_latency_ms"] : List String).Nodup
  decide

theorem DaemonStatus.nodup_members (s : DaemonStatus) : (s.members.map Prod.fst).Nodup := by
  show (["version", "uptime_ms", "uptime", "server_count", "running_count", "error_count",
    "servers"] : List String).Nodup
  decide

/-- **An entry is read back.** -/
theorem MultiServerStatus.Fits.read_members {s : MultiServerStatus} (h : s.Fits) :
    readMultiServerStatus (.object s.members) = some s := by
  have htext : ∀ {name text : String}, (name, Value.string text) ∈ s.members →
      readField Value.asStr name s.members = some text := fun hmem =>
    readField_of_mem s.nodup_members hmem
  have hu64 : ∀ {name : String} {n : ℕ}, (name, unsigned n) ∈ s.members → n < 2 ^ 64 →
      readField Value.asU64 name s.members = some n := fun hmem hn =>
    readField_unsigned s.nodup_members hmem hn
  have hname : readField Value.asStr "name" s.members = some s.name :=
    htext (by simp [MultiServerStatus.members])
  have hlevel : readField readLevel "level" s.members = some s.level := by
    rw [readField_of_mem (v := levelValue s.level) s.nodup_members
        (by simp [MultiServerStatus.members]),
      readLevel_value]
  have hstatusText : readField Value.asStr "status_text" s.members = some s.statusText :=
    htext (by simp [MultiServerStatus.members])
  have hconnected : readField Value.asU64 "connected_clients" s.members =
      some s.connectedClients := hu64 (by simp [MultiServerStatus.members]) h.connectedClients
  have hactive : readField Value.asU64 "active_clients" s.members = some s.activeClients :=
    hu64 (by simp [MultiServerStatus.members]) h.activeClients
  have hmax : readField Value.asU64 "max_active_clients" s.members = some s.maxActiveClients :=
    hu64 (by simp [MultiServerStatus.members]) h.maxActiveClients
  have hpending : readField Value.asU64 "pending_requests" s.members = some s.pendingRequests :=
    hu64 (by simp [MultiServerStatus.members]) h.pendingRequests
  have hrestarts : readField Value.asU64 "restarts" s.members = some s.restarts :=
    hu64 (by simp [MultiServerStatus.members]) h.restarts
  have huptime : readField Value.asU64 "uptime_ms" s.members = some s.uptimeMs :=
    hu64 (by simp [MultiServerStatus.members]) h.uptimeMs
  have hbackoff : readField readBool "in_backoff" s.members = some s.inBackoff :=
    readField_of_mem (v := .bool s.inBackoff) s.nodup_members (by simp [MultiServerStatus.members])
  have hlatency : readOptional Value.asU64 "heartbeat_latency_ms" s.members =
      some s.heartbeatLatencyMs :=
    readOptional_unsigned s.nodup_members (by simp [MultiServerStatus.members]) h.heartbeatLatencyMs
  rw [readMultiServerStatus, readStruct_object, bind_of_some hname, bind_of_some hlevel,
    bind_of_some hstatusText, bind_of_some hconnected, bind_of_some hactive, bind_of_some hmax,
    bind_of_some hpending, bind_of_some hrestarts, bind_of_some huptime, bind_of_some hbackoff,
    bind_of_some hlatency]
  rfl

/-- **And the status.** -/
theorem DaemonStatus.Fits.read_members {s : DaemonStatus} (h : s.Fits) :
    readDaemonStatus (.object s.members) = some s := by
  have htext : ∀ {name text : String}, (name, Value.string text) ∈ s.members →
      readField Value.asStr name s.members = some text := fun hmem =>
    readField_of_mem s.nodup_members hmem
  have hu64 : ∀ {name : String} {n : ℕ}, (name, unsigned n) ∈ s.members → n < 2 ^ 64 →
      readField Value.asU64 name s.members = some n := fun hmem hn =>
    readField_unsigned s.nodup_members hmem hn
  have hversion : readField Value.asStr "version" s.members = some s.version :=
    htext (by simp [DaemonStatus.members])
  have huptimeMs : readField Value.asU64 "uptime_ms" s.members = some s.uptimeMs :=
    hu64 (by simp [DaemonStatus.members]) h.uptimeMs
  have huptime : readField Value.asStr "uptime" s.members = some s.uptime :=
    htext (by simp [DaemonStatus.members])
  have hcount : readField Value.asU64 "server_count" s.members = some s.serverCount :=
    hu64 (by simp [DaemonStatus.members]) h.serverCount
  have hrunning : readField Value.asU64 "running_count" s.members = some s.runningCount :=
    hu64 (by simp [DaemonStatus.members]) h.runningCount
  have herror : readField Value.asU64 "error_count" s.members = some s.errorCount :=
    hu64 (by simp [DaemonStatus.members]) h.errorCount
  have hservers : readField (readVec readMultiServerStatus) "servers" s.members =
      some s.servers := by
    rw [readField_of_mem (v := .array (s.servers.map fun entry => .object entry.members))
      s.nodup_members (by simp [DaemonStatus.members])]
    exact readVec_map fun entry hentry => (h.servers entry hentry).read_members
  rw [readDaemonStatus, readStruct_object, bind_of_some hversion, bind_of_some huptimeMs,
    bind_of_some huptime, bind_of_some hcount, bind_of_some hrunning, bind_of_some herror,
    bind_of_some hservers]
  rfl

theorem plain_daemonStatus (s : DaemonStatus) : Json.plain (.object s.members) = true := by
  have hservers : Json.plainElements (s.servers.map fun entry => .object entry.members) = true := by
    refine plainElements_map fun entry _ => ?_
    cases hlatency : entry.heartbeatLatencyMs <;> cases hlevel : entry.level <;>
      simp [MultiServerStatus.members, Json.plain, Json.plainMembers, levelValue, unsigned,
        optional, hlatency, hlevel]
  simp [DaemonStatus.members, Json.plain, Json.plainMembers, unsigned, hservers]

/-! ## The status -/

/-- The level of a server that counts as running. -/
def StatusLevel.running : StatusLevel → Bool
  | .ok | .warn => true
  | _ => false

theorem countsRunning_eq (st : Mux.MuxState) :
    countsRunning st.serverStatus = (levelAndText st).1.running := by
  unfold levelAndText
  cases st.serverStatus with
  | running =>
    dsimp only
    split_ifs <;> rfl
  | _ => rfl

theorem countsError_eq (st : Mux.MuxState) :
    countsError st.serverStatus = decide ((levelAndText st).1 = .error) := by
  unfold levelAndText
  cases st.serverStatus with
  | running =>
    dsimp only
    split_ifs <;> rfl
  | _ => rfl

variable {servers : Servers} {startTime now : ℕ}

theorem mem_servers_iff {entry : MultiServerStatus} :
    entry ∈ (collectStatus servers startTime now).servers ↔
      ∃ name serverRef, HashMap.get servers name = some serverRef ∧
        entry = collectServer now name serverRef := by
  rw [collectStatus, List.mem_mergeSort, List.mem_map]
  constructor
  · rintro ⟨⟨name, serverRef⟩, hmem, rfl⟩
    exact ⟨name, serverRef, HashMap.mem_entries_iff.1 hmem, rfl⟩
  · rintro ⟨name, serverRef, hget, rfl⟩
    exact ⟨⟨name, serverRef⟩, HashMap.mem_entries_iff.2 hget, rfl⟩

/-- The entries are those of the servers, each of which has a name of its own. -/
theorem servers_perm (servers : Servers) (startTime now : ℕ) :
    (collectStatus servers startTime now).servers.Perm
      (servers.entries.map fun entry => collectServer now entry.1 entry.2) :=
  List.mergeSort_perm _ _

/-- **Every entry comes before those with greater names.** -/
theorem servers_sorted (servers : Servers) (startTime now : ℕ) :
    (collectStatus servers startTime now).servers.Pairwise fun a b => a.name < b.name := by
  have hle : (collectStatus servers startTime now).servers.Pairwise
      fun a b => a.name ≤ b.name := by
    refine (List.pairwise_mergeSort ?_ ?_ _).imp of_decide_eq_true
    · intro a b c hab hbc
      exact decide_eq_true ((of_decide_eq_true hab).trans (of_decide_eq_true hbc))
    · intro a b
      simpa using le_total a.name b.name
  have hnodup : ((collectStatus servers startTime now).servers.map (·.name)).Nodup := by
    refine ((servers_perm servers startTime now).map _).nodup_iff.2 ?_
    rw [List.map_map]
    exact servers.nodupKeys
  have hne := List.pairwise_map.1 hnodup
  exact (hle.and hne).imp fun h => lt_of_le_of_ne h.1 h.2

/-- What is counted of the servers is counted of the entries. -/
theorem countP_servers (counts : Mux.MuxState → Bool) (level : StatusLevel → Bool)
    (h : ∀ st, counts st = level (levelAndText st).1) :
    servers.values.countP (fun r => counts r.state) =
      (collectStatus servers startTime now).servers.countP fun entry => level entry.level := by
  rw [(servers_perm servers startTime now).countP_eq, HashMap.values, List.countP_map,
    List.countP_map]
  exact List.countP_congr fun entry _ => by simp [collectServer, h]

/-- As many servers are counted as there are entries. -/
theorem serverCount_eq (servers : Servers) (startTime now : ℕ) :
    (collectStatus servers startTime now).serverCount =
      (collectStatus servers startTime now).servers.length := by
  rw [(servers_perm servers startTime now).length_eq, List.length_map]
  rfl

/-- **What the daemon reports of its servers**: one entry for each of them, in
the order of their names, and counts that agree with the levels of the
entries; and it is the same in whatever order the map is enumerated. -/
theorem collectStatus_exact (servers : Servers) (startTime now : ℕ) :
    (collectStatus servers startTime now).servers.Pairwise (fun a b => a.name < b.name) ∧
      (∀ entry, entry ∈ (collectStatus servers startTime now).servers ↔
        ∃ name serverRef, HashMap.get servers name = some serverRef ∧
          entry = collectServer now name serverRef) ∧
      (collectStatus servers startTime now).serverCount =
        (collectStatus servers startTime now).servers.length ∧
      (collectStatus servers startTime now).runningCount =
        (collectStatus servers startTime now).servers.countP (fun e => e.level.running) ∧
      (collectStatus servers startTime now).errorCount =
        (collectStatus servers startTime now).servers.countP (fun e => decide (e.level = .error)) ∧
      ∀ other : Servers, (∀ name, HashMap.get other name = HashMap.get servers name) →
        collectStatus other startTime now = collectStatus servers startTime now := by
  have hcount (servers : Servers) := serverCount_eq servers startTime now
  have hrunning (servers : Servers) : (collectStatus servers startTime now).runningCount =
      (collectStatus servers startTime now).servers.countP (fun e => e.level.running) :=
    countP_servers (fun st => countsRunning st.serverStatus) StatusLevel.running countsRunning_eq
  have herror (servers : Servers) : (collectStatus servers startTime now).errorCount =
      (collectStatus servers startTime now).servers.countP (fun e => decide (e.level = .error)) :=
    countP_servers (fun st => countsError st.serverStatus) (fun level => decide (level = .error))
      countsError_eq
  refine ⟨servers_sorted servers startTime now, fun _ => mem_servers_iff, hcount servers,
    hrunning servers, herror servers, fun other hother => ?_⟩
  have hservers : (collectStatus other startTime now).servers =
      (collectStatus servers startTime now).servers := by
    have hirrefl : Std.Irrefl fun a b : MultiServerStatus => a.name < b.name :=
      ⟨fun a => lt_irrefl a.name⟩
    have hanti : Std.Antisymm fun a b : MultiServerStatus => a.name < b.name :=
      ⟨fun _ _ hab hba => absurd hab hba.asymm⟩
    refine (servers_sorted other startTime now).eq_of_mem_iff
      (servers_sorted servers startTime now) fun entry => ?_
    simp only [mem_servers_iff, hother]
  have hfields : ∀ servers : Servers, collectStatus servers startTime now =
      ⟨"0.4.0", now - startTime, formatUptime (now - startTime),
        (collectStatus servers startTime now).servers.length,
        (collectStatus servers startTime now).servers.countP (fun e => e.level.running),
        (collectStatus servers startTime now).servers.countP (fun e => decide (e.level = .error)),
        (collectStatus servers startTime now).servers⟩ := by
    intro servers
    rw [← hcount, ← hrunning, ← herror]
    rfl
  rw [hfields other, hfields servers, hservers]

/-! ## The query -/

/-- Where there is no newline, or it is the last byte, a line is all that arrived. -/
theorem readLine_of_notMem {text : Bytes} (h : (10 : UInt8) ∉ text) (newline : Bytes)
    (hnewline : newline = [] ∨ newline = [10]) : readLine (text ++ newline) = text ++ newline := by
  have hall : ∀ b ∈ text, decide (b ≠ 10) = true := by
    intro b hb
    refine decide_eq_true ?_
    rintro rfl
    exact h hb
  rw [readLine, List.takeWhile_append_of_pos hall, List.dropWhile_append_of_pos hall]
  rcases hnewline with rfl | rfl <;> simp

/-- Where at most the newline is missing, the status has arrived. -/
theorem queryStatus_of_whole {servers : Servers} {startTime now : ℕ}
    (hfits : (collectStatus servers startTime now).Fits) {arrived : Bytes}
    (h : arrived <+: handleStatusConnection floats servers startTime now)
    (hle : (handleStatusConnection floats servers startTime now).length ≤ arrived.length + 1) :
    queryStatus floats arrived = some (collectStatus servers startTime now) := by
  have hplain := plain_daemonStatus (collectStatus servers startTime now)
  have hnewline : (10 : UInt8) ∉ toVec floats _ := Control.newline_notMem_toVec hplain
  have hread := hfits.read_members
  obtain ⟨rest, hrest⟩ := h
  rw [handleStatusConnection, toLine] at hrest hle
  have hcases : arrived = toVec floats (.object (collectStatus servers startTime now).members) ∨
      arrived = toLine floats (.object (collectStatus servers startTime now).members) := by
    rcases List.append_eq_append_iff.1 hrest with ⟨more, hmore, hrest'⟩ | ⟨more, hmore, hrest'⟩
    · have hnil : more = [] := by
        have hlen := congrArg List.length hmore
        have hlen' := congrArg List.length hrest'
        simp only [List.length_append, List.length_singleton] at hlen hlen' hle
        exact List.length_eq_zero_iff.1 (by omega)
      exact .inl (by rw [hmore, hnil, List.append_nil])
    · rcases more with - | ⟨b, more⟩
      · exact .inl (by rw [hmore, List.append_nil])
      · rw [List.cons_append, List.cons.injEq] at hrest'
        have hnil := (List.append_eq_nil_iff.1 hrest'.2.symm).1
        exact .inr (by rw [hmore, hnil, ← hrest'.1, toLine])
  rcases hcases with rfl | rfl
  · have hline := readLine_of_notMem hnewline [] (.inl rfl)
    rw [List.append_nil] at hline
    rw [queryStatus, hline, Control.fromSlice_toVec _ hplain, hread]
  · rw [queryStatus, toLine, readLine_of_notMem hnewline [10] (.inr rfl), ← toLine,
      Control.fromSlice_toLine _ hplain, hread]

/-- Where its text is cut, there is an error. -/
theorem queryStatus_of_cut {servers : Servers} {startTime now : ℕ} {arrived : Bytes}
    (h : arrived <+: handleStatusConnection floats servers startTime now)
    (hlt : arrived.length + 1 < (handleStatusConnection floats servers startTime now).length) :
    queryStatus floats arrived = none := by
  have hplain := plain_daemonStatus (collectStatus servers startTime now)
  have hnewline : (10 : UInt8) ∉ toVec floats _ := Control.newline_notMem_toVec hplain
  rw [handleStatusConnection, toLine] at h hlt
  rw [List.length_append, List.length_singleton] at hlt
  obtain ⟨more, hmore⟩ : arrived <+:
      toVec floats (.object (collectStatus servers startTime now).members) :=
    List.prefix_of_prefix_length_le h (List.prefix_append _ _) (by omega)
  have hne : more ≠ [] := by
    rintro rfl
    rw [← hmore, List.append_nil] at hlt
    omega
  have hnotMem : (10 : UInt8) ∉ arrived := fun hmem =>
    hnewline (hmore ▸ List.mem_append_left _ hmem)
  have hline := readLine_of_notMem hnotMem [] (.inl rfl)
  rw [List.append_nil] at hline
  rw [queryStatus, hline]
  exact fromSlice_eq_none_of_cut readDaemonStatus hplain hmore hne

/-- **What is made of what arrives is the status, or nothing.** -/
theorem eq_of_queryStatus {servers : Servers} {startTime now : ℕ}
    (hfits : (collectStatus servers startTime now).Fits) {arrived : Bytes}
    (h : arrived <+: handleStatusConnection floats servers startTime now) {status : DaemonStatus}
    (hstatus : queryStatus floats arrived = some status) :
    status = collectStatus servers startTime now := by
  rcases Nat.lt_or_ge (arrived.length + 1)
    (handleStatusConnection floats servers startTime now).length with hlt | hle
  · rw [queryStatus_of_cut h hlt] at hstatus
    cases hstatus
  · rw [queryStatus_of_whole hfits h hle] at hstatus
    exact (Option.some.inj hstatus).symm

/-- **A status query is all or nothing.** Wherever the connection ends, what
was asked for has arrived as it was, once its text is there, and there is an
error before that. -/
theorem queryStatus_arrived (floats : Json.Floats) {servers : Servers} {startTime now : ℕ}
    (hfits : (collectStatus servers startTime now).Fits) {arrived : Bytes}
    (h : arrived <+: handleStatusConnection floats servers startTime now) :
    queryStatus floats arrived =
      if (handleStatusConnection floats servers startTime now).length ≤ arrived.length + 1 then
        some (collectStatus servers startTime now)
      else none := by
  split_ifs with hle
  · exact queryStatus_of_whole hfits h hle
  · exact queryStatus_of_cut h (Nat.not_le.1 hle)

/-- A daemon with one server, that is not started yet. -/
def oneIdle : Servers := Servers.registerServer ∅ (.of idleState 2)

theorem fits_oneIdle : (collectStatus oneIdle 0 5000).Fits := by
  refine ⟨by decide, by decide, by decide, by decide, fun entry hentry => ?_⟩
  obtain ⟨name, serverRef, hget, rfl⟩ := mem_servers_iff.1 hentry
  rw [oneIdle, Servers.registerServer] at hget
  by_cases hname : name = (ServerRef.of idleState 2).name
  · subst hname
    cases (HashMap.get_insert _ _ _).symm.trans hget
    exact ⟨by decide, by decide, by decide, by decide, by decide, by decide, nofun⟩
  · rw [HashMap.get_insert_ne hname, HashMap.get_empty] at hget
    cases hget

/-- The status arrives as a whole, and of its first forty bytes nothing is made. -/
theorem queryStatus_arrived_oneIdle :
    queryStatus ⟨fun _ => [], fun _ => none⟩
        (handleStatusConnection ⟨fun _ => [], fun _ => none⟩ oneIdle 0 5000) =
      some (collectStatus oneIdle 0 5000) ∧
    queryStatus ⟨fun _ => [], fun _ => none⟩
        ((handleStatusConnection ⟨fun _ => [], fun _ => none⟩ oneIdle 0 5000).take 40) = none := by
  constructor
  · rw [queryStatus_arrived _ fits_oneIdle List.prefix_rfl, if_pos (Nat.le_succ _)]
  · rw [queryStatus_arrived _ fits_oneIdle (List.take_prefix _ _), if_neg (by decide +kernel)]

end Status

end VcOperator
