import VcOperator.Control.Model.Protocol
/-!
# The commands of the tray

`send_command` of the tray agent: one command is written to a connection of
its own, and the first line that comes back is its response. What comes back
is an input of the model, up to where the connection ends; where there is no
connection, or the command is not written, `send_command` fails at once and
is not modelled.
-/

namespace VcOperator

namespace Tray

open Control
open Status (Snapshot)

/-- The daemon, as the tray's commands find it: `serde_json::from_slice`
gives the command, or an error with a text. -/
def daemon (floats : Json.Floats) (errorText : Bytes → String) (snapshot : Snapshot)
    (verify : ClientKind → VerifyResult) (eventTx : Bool) : Endpoint Snapshot IpcEvent where
  parse line :=
    match fromSlice floats readCommand line with
    | some cmd => .ok cmd
    | none => .error (errorText line)
  snapshot := snapshot
  verify := verify
  eventTx := eventTx

/-- `write_request`. -/
def writeRequest (floats : Json.Floats) (command : MuxControlCommand) : Bytes :=
  toLine floats (commandValue command)

/-- `next_line`: up to the first newline, without it and without a carriage
return before it, or all there is. -/
def nextLine (arrived : Bytes) : Option Bytes :=
  if arrived = [] then none
  else
    let line := arrived.takeWhile (· ≠ 10)
    if line.length < arrived.length ∧ line.getLast? = some 13 then some line.dropLast
    else some line

/-- `send_command`, of what comes back. -/
def sendCommand (floats : Json.Floats) (arrived : Bytes) :
    Option (MuxControlResponse Snapshot IpcEvent) :=
  (nextLine arrived).bind (fromSlice floats readResponse)

end Tray

end VcOperator
