import VcOperator.Control.Model.Protocol
/-!
# The tray's subscription

`subscribe_loop` of the tray agent: one attempt to subscribe after another,
until ten have failed. What an attempt meets is an input of the model, from
its connection to the end of its stream. What the loop logs is left out.
-/

namespace VcOperator

namespace Tray

open Control

/-- `TrayStatus`. -/
inductive TrayStatus where
  | idle
  | routing
  | saturated
  | restarting
  | failed
  deriving DecidableEq

/-- `TrayUpdate`. -/
inductive TrayUpdate where
  | status (status : TrayStatus)
  | alert (message : String)
  | none
  deriving DecidableEq

/-- `tray_status_from_health`. -/
def trayStatusFromHealth (restarts : ℕ) (lastError : Option String) : TrayStatus :=
  if 0 < restarts ∧ lastError.isSome then .failed
  else if 0 < restarts then .restarting
  else .idle

/-- `from_mux_event`. -/
def fromMuxEvent : IpcEvent → TrayUpdate
  | .stateChange .. => .none
  | .routeUpdate .. => .status .routing
  | .serverHealth _ _ restarts lastError => .status (trayStatusFromHealth restarts lastError)
  | .clientDrift client _ => .alert ("Drift detected for " ++ client)

/-- How a stream ends. -/
inductive StreamEnd where
  /-- `next_line()` yields `None`. -/
  | closed
  /-- `next_line()` fails. -/
  | broken
  deriving DecidableEq

/-- What an attempt meets. -/
inductive Attempt where
  /-- `UnixStream::connect` fails. -/
  | refused
  /-- The command is not written. -/
  | unwritten
  /-- The command is written, and these lines come back. -/
  | subscribed (lines : List String) (ends : StreamEnd)
  deriving DecidableEq

/-- An attempt establishes a subscription. -/
def Attempt.established : Attempt → Bool
  | .subscribed .. => true
  | .refused | .unwritten => false

/-- Why `subscribe_once` fails. -/
inductive SubscribeError where
  | connect
  | write
  | read
  | decode
  /-- `mux IPC stream closed`. -/
  | closed
  deriving DecidableEq

/-- The loop over the lines of a stream: the statuses sent on the way, and its result. -/
def readLines (floats : Json.Floats) (ends : StreamEnd) :
    List String → List TrayStatus × Except SubscribeError Unit
  | [] =>
    match ends with
    | .closed => ([], .error .closed)
    | .broken => ([], .error .read)
  | line :: lines =>
    match (Json.fromStr floats line).bind readResponse with
    | none => ([], .error .decode)
    | some (.event event) =>
      let (sent, res) := readLines floats ends lines
      match fromMuxEvent event with
      | .status status => (status :: sent, res)
      | .alert _ | .none => (sent, res)
    | some _ => readLines floats ends lines

/-- `subscribe_once`. -/
def subscribeOnce (floats : Json.Floats) :
    Attempt → List TrayStatus × Except SubscribeError Unit
  | .refused => ([], .error .connect)
  | .unwritten => ([], .error .write)
  | .subscribed lines ends => readLines floats ends lines

/-- Where `subscribe_loop` stands between two attempts. -/
structure LoopState where
  attempt : ℕ
  /-- In milliseconds. -/
  backoff : ℕ
  /-- The statuses sent by `update_tray_status`. -/
  sent : List TrayStatus
  returned : Bool
  deriving DecidableEq

/-- `subscribe_loop` begins. -/
def LoopState.start : LoopState where
  attempt := 0
  backoff := 1000
  sent := []
  returned := false

/-- One round of `subscribe_loop`. -/
def subscribeLoop (floats : Json.Floats) (s : LoopState) (a : Attempt) : Option LoopState :=
  if s.returned then none
  else
    match subscribeOnce floats a with
    | (sent, .ok ()) => some { s with attempt := 0, backoff := 1000, sent := s.sent ++ sent }
    | (sent, .error _) =>
      if 10 ≤ s.attempt + 1 then
        some { s with
          attempt := s.attempt + 1, sent := s.sent ++ sent ++ [.failed], returned := true }
      else
        some { s with
          attempt := s.attempt + 1, backoff := min (s.backoff * 2) 30000,
          sent := s.sent ++ sent }

end Tray

end VcOperator
