import Mathlib.Data.Nat.Notation
/-!
# The control protocol

The messages of `ipc/command.rs`: commands that come in, responses that go
out. A status snapshot and an event are only passed on, and are type
parameters.
-/

namespace VcOperator

namespace Control

/-- `ClientKind`. -/
inductive ClientKind where
  | claude
  | codex
  | gemini
  | junie
  | generic (name : String)
  deriving DecidableEq

/-- `NonMuxEntry`. -/
structure NonMuxEntry where
  client : String
  path : String
  line : ℕ
  serverName : String
  deriving DecidableEq

/-- `VerifyResult`. -/
structure VerifyResult where
  ok : Bool
  nonMuxServers : List NonMuxEntry
  deriving DecidableEq

/-- `Route`. -/
structure Route where
  client : String
  server : String
  status : String
  deriving DecidableEq

/-- `MuxControlCommand`. -/
inductive MuxControlCommand where
  | subscribe
  | unsubscribe
  | getStatus
  | verify (clientKind : ClientKind)
  | routeSnapshot
  | restartService (name : String)
  | reloadConfig
  | shutdown (graceful : Bool)
  deriving DecidableEq

/-- `MuxControlResponse`, over snapshots `σ` and events `ε`. -/
inductive MuxControlResponse (σ ε : Type) where
  | ok
  | status (snapshot : σ)
  | verifyResult (res : VerifyResult)
  | routes (routes : List Route)
  | event (event : ε)
  | error (message : String)
  | unimplemented
  deriving DecidableEq

/-- `handle_command`, at a state with a snapshot and files with an answer to
`Verify`. It does not fail. -/
def handleCommand {σ ε : Type} (snapshot : σ) (verify : ClientKind → VerifyResult) :
    MuxControlCommand → MuxControlResponse σ ε
  | .getStatus => .status snapshot
  | .verify clientKind => .verifyResult (verify clientKind)
  | .restartService _ => .unimplemented
  -- handled at the connection loop level
  | .subscribe => .ok
  | .unsubscribe => .ok
  | .routeSnapshot => .routes []
  | .reloadConfig => .unimplemented
  | .shutdown _ => .unimplemented

end Control

end VcOperator
