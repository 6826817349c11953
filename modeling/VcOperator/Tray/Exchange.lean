import VcOperator.Control.Framing
import VcOperator.Control.Truncated
import VcOperator.Tray.Model.Commands
/-!
# A command and its response

The tray takes the first line that comes back for the response to its
command. The daemon takes the first read for the whole of a line. So a
command whose text comes in one read gets its own response, and any other
one a parse error, wherever it is cut; and neither is ever taken for
something else, wherever what comes back ends.
-/

namespace VcOperator

namespace Tray

open Control
open Status (Snapshot)

variable {floats : Json.Floats}

/-! ## The line that comes back -/

/-- An object ends with its bracket. -/
theorem getLast?_toVec (floats : Json.Floats) (ms : List (String × Value)) :
    (toVec floats (.object ms)).getLast? = some 125 := by
  obtain ⟨mid, hmid⟩ := Json.exists_print_object floats .compact 0 ms
  rw [toVec, Json.toText, Utf8.toList_toUTF8, String.toList_ofList, hmid, List.flatMap_append]
  exact List.getLast?_append_of_ne_nil _ (by decide)

/-- The line is there, with all that comes after it. -/
theorem nextLine_of_whole {text more arrived : Bytes} (hnewline : (10 : UInt8) ∉ text)
    (hlast : text.getLast? = some 125) (h : arrived <+: text ++ [10] ++ more)
    (hle : text.length ≤ arrived.length) : nextLine arrived = some text := by
  obtain ⟨rest, rfl⟩ : text <+: arrived := by
    refine List.prefix_of_prefix_length_le ?_ h hle
    rw [List.append_assoc]
    exact List.prefix_append _ _
  have hne : text ++ rest ≠ [] := by
    intro hnil
    rw [(List.append_eq_nil_iff.1 hnil).1] at hlast
    cases hlast
  have hall : ∀ b ∈ text, decide (b ≠ 10) = true := by
    intro b hb
    refine decide_eq_true ?_
    rintro rfl
    exact hnewline hb
  have hrest : rest.takeWhile (· ≠ 10) = [] := by
    rw [List.append_assoc, List.prefix_append_right_inj] at h
    cases rest with
    | nil => rfl
    | cons b rest =>
      rw [List.takeWhile_cons, (List.cons_prefix_cons.1 h).1]
      rfl
  rw [nextLine, if_neg hne, List.takeWhile_append_of_pos hall, hrest, List.append_nil]
  simp [hlast]

/-- The line is not there yet. -/
theorem nextLine_of_cut {arrived : Bytes} (hnewline : (10 : UInt8) ∉ arrived)
    (hne : arrived ≠ []) : nextLine arrived = some arrived := by
  have hall : ∀ b ∈ arrived, decide (b ≠ 10) = true := by
    intro b hb
    refine decide_eq_true ?_
    rintro rfl
    exact hnewline hb
  rw [nextLine, if_neg hne, List.takeWhile_eq_self_iff.2 hall]
  simp

/-- A response is an object. -/
theorem exists_object_responseValue (resp : MuxControlResponse Snapshot IpcEvent) :
    ∃ ms, responseValue resp = .object ms := by
  cases resp <;> exact ⟨_, rfl⟩

/-- **What comes back is read as the response that was written**, once its text is
there, and as nothing before that. -/
theorem sendCommand_line {resp : MuxControlResponse Snapshot IpcEvent} (hfits : resp.Fits)
    {more arrived : Bytes} (h : arrived <+: sendResponse floats resp ++ more) :
    sendCommand floats arrived =
      if (toVec floats (responseValue resp)).length ≤ arrived.length then some resp else none := by
  have hplain := plain_responseValue resp
  have hread := readResponse_value hfits
  obtain ⟨ms, hms⟩ := exists_object_responseValue resp
  rw [sendResponse, toLine] at h
  have hnewline : (10 : UInt8) ∉ toVec floats (responseValue resp) := newline_notMem_toVec hplain
  have hlast : (toVec floats (responseValue resp)).getLast? = some 125 := by
    rw [hms]
    exact getLast?_toVec floats ms
  split_ifs with hle
  · rw [sendCommand, nextLine_of_whole hnewline hlast h hle, Option.bind_some,
      fromSlice_toVec _ hplain, hread]
  · have hlt := Nat.not_le.1 hle
    obtain ⟨rest, hrest⟩ : arrived <+: toVec floats (responseValue resp) := by
      refine List.prefix_of_prefix_length_le h ?_ (Nat.le_of_lt hlt)
      rw [List.append_assoc]
      exact List.prefix_append _ _
    cases arrived with
    | nil => rfl
    | cons b tail =>
      have hcut : (10 : UInt8) ∉ b :: tail := fun hmem =>
        hnewline (hrest ▸ List.mem_append_left _ hmem)
      have hne : rest ≠ [] := by
        rintro rfl
        rw [← hrest, List.append_nil] at hlt
        exact Nat.lt_irrefl _ hlt
      rw [sendCommand, nextLine_of_cut hcut (List.cons_ne_nil _ _), Option.bind_some]
      rw [hms] at hplain hrest
      exact fromSlice_eq_none_of_cut readResponse hplain hrest hne

/-! ## The response of the daemon -/

variable {errorText : Bytes → String} {snapshot : Snapshot} {verify : ClientKind → VerifyResult}
  {eventTx : Bool} {command : MuxControlCommand}

/-- A command is an object. -/
theorem exists_object_commandValue (command : MuxControlCommand) :
    ∃ ms, commandValue command = .object ms := by
  cases command <;> exact ⟨_, rfl⟩

/-- What the daemon makes of the first read of a command. -/
def firstResponse (floats : Json.Floats) (errorText : Bytes → String) (snapshot : Snapshot)
    (verify : ClientKind → VerifyResult) (eventTx : Bool) (command : MuxControlCommand)
    (read : Bytes) : MuxControlResponse Snapshot IpcEvent :=
  if (toVec floats (commandValue command)).length ≤ read.length then
    (daemon floats errorText snapshot verify eventTx).respond command
  else .error ("Parse error: " ++ errorText read)

/-- The first read of a command is one line, and the daemon's first response is to that. -/
theorem exists_handleConnection (hsubscribe : command ≠ .subscribe) {read : Bytes}
    {reads : List Bytes} (hcut : Cut (writeRequest floats command) (read :: reads)) :
    ∃ more, (daemon floats errorText snapshot verify eventTx).handleConnection (read :: reads) =
      firstResponse floats errorText snapshot verify eventTx command read :: more := by
  have hplain := plain_commandValue command
  have hnewline : (10 : UInt8) ∉ toVec floats (commandValue command) :=
    newline_notMem_toVec hplain
  obtain ⟨ms, hms⟩ := exists_object_commandValue command
  have hread : read <+: toVec floats (commandValue command) ++ [10] := by
    have hflatten := hcut.flatten
    rw [writeRequest, toLine, List.flatten_cons] at hflatten
    exact ⟨_, hflatten⟩
  have hne : read ≠ [] := hcut.nonempty read List.mem_cons_self
  rw [Endpoint.handleConnection, Endpoint.handleReads_cons, Endpoint.onRead]
  by_cases hle : (toVec floats (commandValue command)).length ≤ read.length
  · -- the whole text, with its newline or without
    obtain ⟨rest, rfl⟩ : toVec floats (commandValue command) <+: read :=
      List.prefix_of_prefix_length_le (List.prefix_append _ _) hread hle
    have htext : toVec floats (commandValue command) ≠ [] := by
      intro hnil
      have hlast := getLast?_toVec floats ms
      rw [← hms, hnil] at hlast
      cases hlast
    have hlines : lines (toVec floats (commandValue command) ++ rest) =
        [toVec floats (commandValue command)] := by
      rw [List.prefix_append_right_inj] at hread
      cases rest with
      | nil => rw [List.append_nil, lines_of_notMem hnewline htext]
      | cons b rest =>
        obtain ⟨rfl, hnil⟩ := List.cons_prefix_cons.1 hread
        rw [List.prefix_nil.1 hnil, lines_append_newline, lines_of_notMem hnewline htext,
          lines_nil]
        rfl
    have hparse : (daemon floats errorText snapshot verify eventTx).parse
        (toVec floats (commandValue command)) = .ok command := by
      simp only [daemon, fromSlice_toVec _ hplain, readCommand_value]
    rw [hlines, Endpoint.handleLines, hparse, firstResponse, if_pos hle]
    simp only [if_neg hsubscribe]
    exact ⟨_, rfl⟩
  · -- a proper beginning of it
    have hlt := Nat.not_le.1 hle
    obtain ⟨rest, hrest⟩ : read <+: toVec floats (commandValue command) :=
      List.prefix_of_prefix_length_le hread (List.prefix_append _ _) (Nat.le_of_lt hlt)
    have hcutText : (10 : UInt8) ∉ read := fun hmem =>
      hnewline (hrest ▸ List.mem_append_left _ hmem)
    have hrestNe : rest ≠ [] := by
      rintro rfl
      rw [← hrest, List.append_nil] at hlt
      exact Nat.lt_irrefl _ hlt
    have hnone : fromSlice floats readCommand read = none := by
      rw [hms] at hplain hrest
      exact fromSlice_eq_none_of_cut readCommand hplain hrest hrestNe
    have hparse : (daemon floats errorText snapshot verify eventTx).parse read =
        .error (errorText read) := by
      simp only [daemon, hnone]
    rw [lines_of_notMem hcutText hne, Endpoint.handleLines, hparse, firstResponse, if_neg hle]
    exact ⟨_, rfl⟩

/-- **A command is answered, or fails.** However the command is cut on its way to the daemon and
wherever what comes back ends, the tray gets the response to that command where its first read
holds all of its text, and a parse error of that read where it does not; or it gets nothing,
where the text of the response is not all there. -/
theorem sendCommand_exact (hsubscribe : command ≠ .subscribe)
    (hfits : ((daemon floats errorText snapshot verify eventTx).respond command).Fits)
    {reads : List Bytes} (hcut : Cut (writeRequest floats command) reads) {arrived : Bytes}
    (h : arrived <+: ((daemon floats errorText snapshot verify eventTx).handleConnection
      reads).flatMap (sendResponse floats)) :
    ∃ read rest, reads = read :: rest ∧ sendCommand floats arrived =
      if (toVec floats (responseValue (firstResponse floats errorText snapshot verify eventTx
          command read))).length ≤ arrived.length then
        some (firstResponse floats errorText snapshot verify eventTx command read)
      else none := by
  cases reads with
  | nil =>
    have hflatten := congrArg List.length hcut.flatten
    rw [writeRequest, toLine, List.length_append] at hflatten
    cases hflatten
  | cons read reads =>
    obtain ⟨more, hmore⟩ := @exists_handleConnection floats errorText snapshot verify eventTx
      command hsubscribe read reads hcut
    refine ⟨read, reads, rfl,
      @sendCommand_line floats _ ?_ (more.flatMap (sendResponse floats)) arrived ?_⟩
    · rw [firstResponse]
      split_ifs
      · exact hfits
      · trivial
    · rw [hmore, List.flatMap_cons] at h
      exact h

/-- All that the daemon writes holds the text of its first response. -/
theorem length_le_handleConnection (hsubscribe : command ≠ .subscribe) {read : Bytes}
    {reads : List Bytes} (hcut : Cut (writeRequest floats command) (read :: reads)) :
    (toVec floats (responseValue (firstResponse floats errorText snapshot verify eventTx command
        read))).length ≤
      (((daemon floats errorText snapshot verify eventTx).handleConnection
        (read :: reads)).flatMap (sendResponse floats)).length := by
  obtain ⟨more, hmore⟩ := @exists_handleConnection floats errorText snapshot verify eventTx
    command hsubscribe read reads hcut
  rw [hmore, List.flatMap_cons, sendResponse, toLine, List.length_append, List.length_append]
  omega

/-- No number is written with a fraction. -/
def noFloats : Json.Floats := ⟨fun _ => [], fun _ => none⟩

/-- What the daemon says of a text that is cut off. -/
def endsEarly (_ : Bytes) : String := "EOF while parsing a string at line 1 column 8"

/-- A daemon that has nothing to verify. -/
def freshDaemon : Endpoint Snapshot IpcEvent :=
  daemon noFloats endsEarly (Status.freshSnapshot .running) (fun _ => ⟨true, []⟩) true

/-- `RouteSnapshot`, as it is written. -/
def routeRequest : Bytes := writeRequest noFloats .routeSnapshot

/-- In one read the command gets its response; cut after eight bytes, an error. -/
theorem sendCommand_exact_routeRequest :
    sendCommand noFloats ((freshDaemon.handleConnection [routeRequest]).flatMap
      (sendResponse noFloats)) = some (.routes []) ∧
    sendCommand noFloats ((freshDaemon.handleConnection
      [routeRequest.take 8, routeRequest.drop 8]).flatMap (sendResponse noFloats)) =
        some (.error ("Parse error: " ++ endsEarly (routeRequest.take 8))) := by
  have hwhole : Cut (writeRequest noFloats .routeSnapshot) [routeRequest] :=
    cut_single (by decide +kernel) (by decide +kernel)
  have hparts : Cut (writeRequest noFloats .routeSnapshot)
      [routeRequest.take 8, routeRequest.drop 8] :=
    ⟨by simp [routeRequest], by decide +kernel, by decide +kernel⟩
  have hcommand : MuxControlCommand.routeSnapshot ≠ .subscribe := by decide
  constructor
  · obtain ⟨read, rest, heq, hresult⟩ := @sendCommand_exact noFloats endsEarly
      (Status.freshSnapshot .running) (fun _ => ⟨true, []⟩) true .routeSnapshot hcommand trivial
      _ hwhole _ List.prefix_rfl
    rw [← (List.cons.inj heq).1, if_pos (length_le_handleConnection hcommand hwhole)] at hresult
    rw [freshDaemon, hresult, firstResponse, if_pos (Nat.le_of_ble_eq_true (by decide +kernel))]
    rfl
  · obtain ⟨read, rest, heq, hresult⟩ := @sendCommand_exact noFloats endsEarly
      (Status.freshSnapshot .running) (fun _ => ⟨true, []⟩) true .routeSnapshot hcommand trivial
      _ hparts _ List.prefix_rfl
    rw [← (List.cons.inj heq).1, if_pos (length_le_handleConnection hcommand hparts)] at hresult
    have hlt :
        (routeRequest.take 8).length < (toVec noFloats (commandValue .routeSnapshot)).length :=
      by decide +kernel
    rw [freshDaemon, hresult, firstResponse, if_neg (Nat.not_le.2 hlt)]

end Tray

end VcOperator
