import VcOperator.Common.Text
import VcOperator.Control.Model.Protocol
import VcOperator.Status.Mirror
/-!
# The control protocol round-trips

Every command, response and event is one line, and is what its line is read
as. The parts are taken one by one, from the values without structure to the
responses; the text of a value is the printer's.
-/

namespace VcOperator

namespace Control

open Mux Status

/-- **A type goes over the wire.** The text of a value is one JSON text without a newline;
with the newline of its line or without it, it is decoded to the value; and no other value
has the line. -/
structure RoundTrips {α : Type} (floats : Json.Floats) (Fits : α → Prop) (write : α → Value)
    (read : Value → Option α) : Prop where
  one_line : ∀ a, (10 : UInt8) ∉ toVec floats (write a)
  one_text : ∀ a, fromSlice floats some (toVec floats (write a)) = some (write a)
  decode : ∀ a, Fits a → fromSlice floats read (toVec floats (write a)) = some a
  decode_line : ∀ a, Fits a → fromSlice floats read (toLine floats (write a)) = some a
  injective : ∀ a b, Fits a → Fits b →
    toLine floats (write a) = toLine floats (write b) → a = b

/-! ## Lines -/

section

variable {α : Type} {floats : Json.Floats} {v : Value}

theorem fromSlice_toUTF8 (read : Value → Option α) (text : String) :
    fromSlice floats read text.toUTF8.data.toList = (Json.fromStr floats text).bind read := by
  rw [fromSlice, Utf8.fromUTF8?_toUTF8]
  rfl

/-- What is written is decoded as its value is read. -/
theorem fromSlice_toVec (read : Value → Option α) (hv : Json.plain v = true) :
    fromSlice floats read (toVec floats v) = read v := by
  have htext : Json.fromStr floats (Json.toText floats v) = some v := by
    have h := Json.fromStr_print floats .compact hv [] fun c hc => by cases hc
    rwa [List.append_nil] at h
  rw [toVec, fromSlice_toUTF8, htext]
  rfl

/-- The newline of a line is the end of a text. -/
theorem toLine_eq (floats : Json.Floats) (v : Value) :
    toLine floats v =
      (String.ofList (Json.print .compact floats 0 v ++ ['\n'])).toUTF8.data.toList := by
  rw [toLine, toVec, Json.toText, Utf8.toList_toUTF8, Utf8.toList_toUTF8, String.toList_ofList,
    String.toList_ofList, List.flatMap_append]
  rfl

theorem fromSlice_toLine (read : Value → Option α) (hv : Json.plain v = true) :
    fromSlice floats read (toLine floats v) = read v := by
  have hblank : ∀ c ∈ ['\n'], Json.isSpace c = true := by
    intro c hc
    rw [List.mem_singleton.1 hc]
    rfl
  rw [toLine_eq, fromSlice_toUTF8, Json.fromStr_print floats .compact hv _ hblank]
  rfl

theorem newline_notMem_toVec (hv : Json.plain v = true) : (10 : UInt8) ∉ toVec floats v := by
  refine Utf8.newline_notMem ?_
  rw [Json.toText, String.toList_ofList]
  exact Json.newline_notMem_print v hv 0

/-- **What is read back goes over the wire.** -/
theorem RoundTrips.of_read {Fits : α → Prop} {write : α → Value} {read : Value → Option α}
    (hplain : ∀ a, Json.plain (write a) = true) (hread : ∀ a, Fits a → read (write a) = some a) :
    RoundTrips floats Fits write read where
  one_line a := newline_notMem_toVec (hplain a)
  one_text a := fromSlice_toVec some (hplain a)
  decode a ha := by rw [fromSlice_toVec read (hplain a), hread a ha]
  decode_line a ha := by rw [fromSlice_toLine read (hplain a), hread a ha]
  injective a b ha hb heq := by
    have hdecode := congrArg (fromSlice floats read) heq
    rw [fromSlice_toLine read (hplain a), fromSlice_toLine read (hplain b), hread a ha,
      hread b hb] at hdecode
    exact Option.some.inj hdecode

end

/-! ## The forms of a value -/

section

variable {α : Type} {read : Value → Option α} {write : α → Value}

/-- A reader goes on with what its field is read as. -/
theorem bind_of_some {β : Type} {x : Option α} {a : α} {f : α → Option β} (h : x = some a) :
    x >>= f = f a := by
  rw [h]
  rfl

@[simp] theorem readStruct_object (fields : List String)
    (ofMembers : List (String × Value) → Option α) (members : List (String × Value)) :
    readStruct fields ofMembers (.object members) = ofMembers members := rfl

/-- A list is read back, where its elements are. -/
theorem readVec_map {as : List α} (h : ∀ a ∈ as, read (write a) = some a) :
    readVec read (.array (as.map write)) = some as := by
  rw [readVec]
  induction as with
  | nil => rfl
  | cons a as ih =>
    have ha : read (write a) = some a := h a (List.mem_cons_self ..)
    have has := ih fun b hb => h b (List.mem_cons_of_mem a hb)
    simp [ha, has]

/-- **A variant is read back.** -/
theorem readTagged_tagged {tag content : String} (hne : tag ≠ content) (name : String)
    (v : Option Value) : readTagged tag content (tagged tag content name v) = some (name, v) := by
  cases v with
  | none => simp [readTagged, tagged, readField, readTag, readVariant, readUnit, hne]
  | some v => simp [readTagged, tagged, readField, readTag, readVariant, readUnit, hne, hne.symm]

theorem plain_tagged {tag content name : String} {v : Value} (hv : Json.plain v = true) :
    Json.plain (tagged tag content name (some v)) = true := by
  simp [tagged, Json.plain, Json.plainMembers, hv]

theorem plainElements_map {as : List α} (h : ∀ a ∈ as, Json.plain (write a) = true) :
    Json.plainElements (as.map write) = true := by
  induction as with
  | nil => rfl
  | cons a as ih =>
    have ha : Json.plain (write a) = true := h a (List.mem_cons_self ..)
    have has := ih fun b hb => h b (List.mem_cons_of_mem a hb)
    simp [Json.plainElements, ha, has]

end

/-! ## Commands -/

theorem readClientKind_value (kind : ClientKind) :
    readClientKind (clientKindValue kind) = some kind := by
  cases kind <;>
    simp [readClientKind, clientKindValue, readVariant, readUnit, readField, Value.asStr]

theorem readCommand_value (cmd : MuxControlCommand) :
    readCommand (commandValue cmd) = some cmd := by
  have hne : "cmd" ≠ "args" := by decide
  cases cmd <;>
    simp [readCommand, commandValue, readTagged_tagged hne, readUnit, readField,
      readClientKind_value, Value.asStr, readBool]

theorem plain_commandValue (cmd : MuxControlCommand) : Json.plain (commandValue cmd) = true := by
  cases cmd with
  | verify kind =>
    refine plain_tagged ?_
    cases kind <;> rfl
  | subscribe | unsubscribe | getStatus | routeSnapshot | restartService _ | reloadConfig
  | shutdown _ => rfl

/-! ## A status snapshot -/

theorem readStatus_value (status : ServerStatus) :
    readStatus (serverStatusValue status) = some status := by
  cases status <;> simp [readStatus, serverStatusValue, readVariant, readUnit, Value.asStr]

theorem readLevel_value (level : StatusLevel) : readLevel (levelValue level) = some level := by
  cases level <;> simp [readLevel, levelValue, readVariant, readUnit]

section

variable {members : List (String × Value)} {name : String}

theorem readField_unsigned {n : ℕ} (hnodup : (members.map Prod.fst).Nodup)
    (hmem : (name, unsigned n) ∈ members) (hn : n < 2 ^ 64) :
    readField Value.asU64 name members = some n := by
  rw [readField_of_mem hnodup hmem, asU64_unsigned hn]

theorem readOptional_unsigned {o : Option ℕ} (hnodup : (members.map Prod.fst).Nodup)
    (hmem : (name, optional unsigned o) ∈ members) (ho : ∀ n, o = some n → n < 2 ^ 64) :
    readOptional Value.asU64 name members = some o :=
  readOptional_of_mem unsigned hnodup hmem (fun n hn => asU64_unsigned (ho n hn))
    fun _ hnull => by cases hnull

end

theorem readHeartbeat_value {s : Snapshot} (h : s.Fits) :
    readHeartbeat (heartbeatValue s.heartbeat) = some s.heartbeat := by
  rw [heartbeatValue, readHeartbeat, readStruct_object]
  have hnodup : (([
      ("enabled", .bool s.heartbeat.enabled),
      ("latency_ms", optional unsigned s.heartbeat.latencyMs),
      ("last_heartbeat_ms", optional unsigned s.heartbeat.lastHeartbeatMs),
      ("avg_response_ms", optional unsigned s.heartbeat.avgResponseMs),
      ("total_success", unsigned s.heartbeat.totalSuccess),
      ("total_failures", unsigned s.heartbeat.totalFailures),
      ("consecutive_failures", unsigned s.heartbeat.consecutiveFailures)] :
        List (String × Value)).map Prod.fst).Nodup := by
    show (["enabled", "latency_ms", "last_heartbeat_ms", "avg_response_ms", "total_success",
      "total_failures", "consecutive_failures"] : List String).Nodup
    decide
  generalize hmembers : ([("enabled", _), _, _, _, _, _, _] : List (String × Value)) = members
    at hnodup ⊢
  have henabled : readField readBool "enabled" members = some s.heartbeat.enabled :=
    readField_of_mem (v := .bool s.heartbeat.enabled) hnodup (by simp [← hmembers])
  have hlatency : readOptional Value.asU64 "latency_ms" members = some s.heartbeat.latencyMs :=
    readOptional_unsigned hnodup (by simp [← hmembers]) h.latencyMs
  have hlast : readOptional Value.asU64 "last_heartbeat_ms" members =
      some s.heartbeat.lastHeartbeatMs :=
    readOptional_unsigned hnodup (by simp [← hmembers]) h.lastHeartbeatMs
  have havg : readOptional Value.asU64 "avg_response_ms" members =
      some s.heartbeat.avgResponseMs :=
    readOptional_unsigned hnodup (by simp [← hmembers]) h.avgResponseMs
  have hsuccess : readField Value.asU64 "total_success" members =
      some s.heartbeat.totalSuccess :=
    readField_unsigned hnodup (by simp [← hmembers]) h.totalSuccess
  have hfailures : readField Value.asU64 "total_failures" members =
      some s.heartbeat.totalFailures :=
    readField_unsigned hnodup (by simp [← hmembers]) h.totalFailures
  have hconsecutive : readField readU32 "consecutive_failures" members =
      some s.heartbeat.consecutiveFailures := by
    rw [readField_of_mem (v := unsigned s.heartbeat.consecutiveFailures) hnodup
      (by simp [← hmembers]), readU32_unsigned h.consecutiveFailures]
  rw [bind_of_some henabled, bind_of_some hlatency, bind_of_some hlast, bind_of_some havg,
    bind_of_some hsuccess, bind_of_some hfailures, bind_of_some hconsecutive]
  rfl

theorem readSnapshot_value {s : Snapshot} (h : s.Fits) :
    readSnapshot (.object s.members) = some s := by
  have hu64 {name n} (hmem : (name, unsigned n) ∈ s.members) (hn : n < 2 ^ 64) :
      readField Value.asU64 name s.members = some n := readField_unsigned s.nodup_members hmem hn
  have hbool {name b} (hmem : (name, .bool b) ∈ s.members) :
      readField readBool name s.members = some b := readField_of_mem s.nodup_members hmem
  have htext {name t} (hmem : (name, .string t) ∈ s.members) :
      readField Value.asStr name s.members = some t := readField_of_mem s.nodup_members hmem
  have hstatus {name status} (hmem : (name, serverStatusValue status) ∈ s.members) :
      readField readStatus name s.members = some status := by
    rw [readField_of_mem s.nodup_members hmem, readStatus_value]
  have hlevel : readField readLevel "level" s.members = some s.level := by
    rw [readField_of_mem (v := levelValue s.level) s.nodup_members (by simp [Snapshot.members]),
      readLevel_value]
  have hreset : readOptional Value.asStr "last_reset" s.members = some s.lastReset :=
    readOptional_of_mem .string s.nodup_members (by simp [Snapshot.members])
      (fun _ _ => rfl) fun _ hnull => by cases hnull
  have hpid : readOptional readU32 "child_pid" s.members = some s.childPid :=
    readOptional_of_mem unsigned s.nodup_members (by simp [Snapshot.members])
      (fun pid hpid => readU32_unsigned (h.childPid pid hpid)) fun _ hnull => by cases hnull
  have hlatency : readOptional Value.asU64 "heartbeat_latency_ms" s.members =
      some s.heartbeatLatencyMs :=
    readOptional_unsigned s.nodup_members (by simp [Snapshot.members]) h.heartbeatLatencyMs
  have hheartbeat : readField readHeartbeat "heartbeat" s.members = some s.heartbeat := by
    rw [readField_of_mem (v := heartbeatValue s.heartbeat) s.nodup_members
      (by simp [Snapshot.members]), readHeartbeat_value h]
  have hservice : readField Value.asStr "service_name" s.members = some s.serviceName :=
    htext (by simp [Snapshot.members])
  have hname : readField Value.asStr "name" s.members = some s.name :=
    htext (by simp [Snapshot.members])
  have hserver : readField readStatus "server_status" s.members = some s.serverStatus :=
    hstatus (by simp [Snapshot.members])
  have hstatusText : readField Value.asStr "status_text" s.members = some s.statusText :=
    htext (by simp [Snapshot.members])
  have hrestarts : readField Value.asU64 "restarts" s.members = some s.restarts :=
    hu64 (by simp [Snapshot.members]) h.restarts
  have hconnected : readField Value.asU64 "connected_clients" s.members =
      some s.connectedClients := hu64 (by simp [Snapshot.members]) h.connectedClients
  have hactive : readField Value.asU64 "active_clients" s.members = some s.activeClients :=
    hu64 (by simp [Snapshot.members]) h.activeClients
  have hmax : readField Value.asU64 "max_active_clients" s.members = some s.maxActiveClients :=
    hu64 (by simp [Snapshot.members]) h.maxActiveClients
  have hpending : readField Value.asU64 "pending_requests" s.members = some s.pendingRequests :=
    hu64 (by simp [Snapshot.members]) h.pendingRequests
  have hcached : readField readBool "cached_initialize" s.members = some s.cachedInitialize :=
    hbool (by simp [Snapshot.members])
  have hinitializing : readField readBool "initializing" s.members = some s.initializing :=
    hbool (by simp [Snapshot.members])
  have hqueue : readField Value.asU64 "queue_depth" s.members = some s.queueDepth :=
    hu64 (by simp [Snapshot.members]) h.queueDepth
  have hbytes : readField Value.asU64 "max_request_bytes" s.members = some s.maxRequestBytes :=
    hu64 (by simp [Snapshot.members]) h.maxRequestBytes
  have hhealth : readField readStatus "health_status" s.members = some s.healthStatus :=
    hstatus (by simp [Snapshot.members])
  have huptime : readField Value.asU64 "uptime_ms" s.members = some s.uptimeMs :=
    hu64 (by simp [Snapshot.members]) h.uptimeMs
  have hinBackoff : readField readBool "in_backoff" s.members = some s.inBackoff :=
    hbool (by simp [Snapshot.members])
  have hbackoff : readField Value.asU64 "restart_backoff_ms" s.members =
      some s.restartBackoffMs := hu64 (by simp [Snapshot.members]) h.restartBackoffMs
  have hbackoffMax : readField Value.asU64 "restart_backoff_max_ms" s.members =
      some s.restartBackoffMaxMs := hu64 (by simp [Snapshot.members]) h.restartBackoffMaxMs
  have hmaxRestarts : readField Value.asU64 "max_restarts" s.members = some s.maxRestarts :=
    hu64 (by simp [Snapshot.members]) h.maxRestarts
  rw [readSnapshot, readStruct_object, bind_of_some hservice, bind_of_some hname,
    bind_of_some hserver, bind_of_some hstatusText, bind_of_some hlevel, bind_of_some hrestarts,
    bind_of_some hconnected, bind_of_some hactive, bind_of_some hmax, bind_of_some hpending,
    bind_of_some hcached, bind_of_some hinitializing, bind_of_some hreset, bind_of_some hqueue,
    bind_of_some hpid, bind_of_some hbytes, bind_of_some hhealth, bind_of_some hlatency,
    bind_of_some hheartbeat, bind_of_some huptime, bind_of_some hinBackoff,
    bind_of_some hbackoff, bind_of_some hbackoffMax, bind_of_some hmaxRestarts]
  rfl

/-! ## Events -/

theorem readEvent_value {event : IpcEvent} (h : event.Fits) :
    readEvent (eventValue event) = some event := by
  have hne : "type" ≠ "payload" := by decide
  rw [readEvent]
  cases event with
  | stateChange service old new =>
    simp [eventValue, readTagged_tagged hne, readField, Value.asStr]
  | routeUpdate client server count p99Ms =>
    obtain ⟨hcount, hp99⟩ := h
    simp [eventValue, readTagged_tagged hne, readField, Value.asStr, asU64_unsigned hcount,
      asU64_unsigned hp99]
  | serverHealth name rssMb restarts lastError =>
    obtain ⟨hrss, hrestarts⟩ := h
    cases lastError <;>
      simp [eventValue, readTagged_tagged hne, readField, readOptional, Status.optional,
        Value.asStr, asU64_unsigned hrss, asU64_unsigned hrestarts]
  | clientDrift client nonMuxPaths =>
    have hpaths : readVec Value.asStr (.array (nonMuxPaths.map .string)) = some nonMuxPaths :=
      readVec_map fun _ _ => rfl
    simp [eventValue, readTagged_tagged hne, readField, Value.asStr, hpaths]

theorem plain_eventValue (event : IpcEvent) : Json.plain (eventValue event) = true := by
  cases event with
  | stateChange service old new => rfl
  | routeUpdate client server count p99Ms => rfl
  | serverHealth name rssMb restarts lastError => cases lastError <;> rfl
  | clientDrift client nonMuxPaths =>
    have hpaths : Json.plainElements (nonMuxPaths.map .string) = true :=
      plainElements_map fun _ _ => rfl
    exact plain_tagged (by simp [Json.plain, Json.plainMembers, hpaths])

/-! ## Responses -/

theorem readEntry_value {entry : NonMuxEntry} (h : entry.line < 2 ^ 64) :
    readEntry (entryValue entry) = some entry := by
  simp [readEntry, entryValue, readField, Value.asStr, asU64_unsigned h]

theorem readVerifyResult_value {res : VerifyResult}
    (h : ∀ entry ∈ res.nonMuxServers, entry.line < 2 ^ 64) :
    readVerifyResult (verifyResultValue res) = some res := by
  have hservers : readVec readEntry (.array (res.nonMuxServers.map entryValue)) =
      some res.nonMuxServers := readVec_map fun entry hentry => readEntry_value (h entry hentry)
  simp [readVerifyResult, verifyResultValue, readField, readBool, hservers]

theorem readRoute_value (route : Route) : readRoute (routeValue route) = some route := by
  simp [readRoute, routeValue, readField, Value.asStr]

theorem readResponse_value {resp : MuxControlResponse Snapshot IpcEvent} (h : resp.Fits) :
    readResponse (responseValue resp) = some resp := by
  have hne : "status" ≠ "payload" := by decide
  rw [readResponse]
  cases resp with
  | ok => simp [responseValue, readTagged_tagged hne, readUnit]
  | status snapshot =>
    simp [responseValue, readTagged_tagged hne, readSnapshot_value h]
  | verifyResult res =>
    simp [responseValue, readTagged_tagged hne, readVerifyResult_value h]
  | routes routes =>
    have hroutes : readVec readRoute (.array (routes.map routeValue)) = some routes :=
      readVec_map fun route _ => readRoute_value route
    simp [responseValue, readTagged_tagged hne, hroutes]
  | event event => simp [responseValue, readTagged_tagged hne, readEvent_value h]
  | error message => simp [responseValue, readTagged_tagged hne, Value.asStr]
  | unimplemented => simp [responseValue, readTagged_tagged hne, readUnit]

theorem plain_responseValue (resp : MuxControlResponse Snapshot IpcEvent) :
    Json.plain (responseValue resp) = true := by
  cases resp with
  | ok | error message | unimplemented => rfl
  | status snapshot => exact plain_tagged (plain_members snapshot)
  | verifyResult res =>
    have hservers : Json.plainElements (res.nonMuxServers.map entryValue) = true :=
      plainElements_map fun _ _ => rfl
    exact plain_tagged (by simp [verifyResultValue, Json.plain, Json.plainMembers, hservers])
  | routes routes =>
    have hroutes : Json.plainElements (routes.map routeValue) = true :=
      plainElements_map fun _ _ => rfl
    exact plain_tagged (by simp [Json.plain, hroutes])
  | event event => exact plain_tagged (plain_eventValue event)

/-- **The control protocol round-trips**: commands, responses and events. -/
theorem controlProtocol_roundTrips (floats : Json.Floats) :
    RoundTrips floats (fun _ => True) commandValue readCommand ∧
      RoundTrips floats MuxControlResponse.Fits responseValue readResponse ∧
      RoundTrips floats IpcEvent.Fits eventValue readEvent :=
  ⟨.of_read plain_commandValue fun cmd _ => readCommand_value cmd,
    .of_read plain_responseValue fun _ h => readResponse_value h,
    .of_read plain_eventValue fun _ h => readEvent_value h⟩

-- as in the tests of the two agents
example (floats : Json.Floats) :
    Json.toText floats (commandValue .subscribe) = "\x7b\"cmd\":\"Subscribe\"\x7d" ∧
      Json.toText floats (commandValue (.verify .claude)) =
        "\x7b\"cmd\":\"Verify\",\"args\":\x7b\"client_kind\":\"claude\"\x7d\x7d" := by
  constructor <;> rfl

end Control

end VcOperator
