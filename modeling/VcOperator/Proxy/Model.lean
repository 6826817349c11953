import VcOperator.Common.Run
import VcOperator.Json.Value
/-!
# The framed proxy

`run_proxy` of `mux-agent/src/runtime/proxy.rs`: it bridges stdin and
stdout to the socket of a mux, message by message. Its loop is one
`select!` over two streams, and a step is one turn of the loop: what the
branch that was taken got from its stream, and whether the message could
be passed on. The counter is a `u64` in the source, and is `ℕ` here.

`unanswered` is history: the ids of the requests that were forwarded and
have not been answered. No branch reads it.
-/

namespace VcOperator

namespace Proxy

/-- Why the loop was left. -/
inductive Exit where
  | socketWriteError
  | stdoutWriteError
  /-- `stdin_closed && pending_requests == 0`. -/
  | allReceived
  | socketDecodeError
  | socketClosed
  deriving DecidableEq, Repr

/-- The locals of `run_proxy`, and whether it has left its loop. -/
structure State where
  pendingRequests : ℕ
  stdinClosed : Bool
  exit : Option Exit
  unanswered : List Value

/-- What a turn of the loop gets. -/
inductive Label where
  /-- A message from stdin, and whether the socket takes it. -/
  | stdin (msg : Value) (sent : Bool)
  | stdinError
  | stdinEof
  /-- A message from the socket, and whether stdout takes it. -/
  | socket (msg : Value) (written : Bool)
  | socketError
  | socketEof

/-- The test for a request: it has an id and a method. -/
def isRequest (msg : Value) : Bool := (msg.get "id").isSome && (msg.get "method").isSome

/-- The test for a response: it has an id, and no method. -/
def isResponse (msg : Value) : Bool := (msg.get "id").isSome && (msg.get "method").isNone

/-- The ids of the messages of a kind that a message brings: itself, or the
elements of a batch. -/
def idsOf (kind : Value → Bool) : Value → List Value
  | .array elements => (elements.filter kind).filterMap (·.get "id")
  | msg => ([msg].filter kind).filterMap (·.get "id")

/-- The requests a message brings, by their ids. -/
def requestIds : Value → List Value := idsOf isRequest

/-- The responses it brings, by the ids they are for. -/
def responseIds : Value → List Value := idsOf isResponse

/-- Where `run_proxy` begins. -/
def init : State := ⟨0, false, none, []⟩

/-- The branch that reads stdin, on a message. -/
def forward (msg : Value) (sent : Bool) (p : State) : State :=
  let p := if isRequest msg then { p with pendingRequests := p.pendingRequests + 1 } else p
  if sent then { p with unanswered := p.unanswered ++ requestIds msg }
  else { p with exit := some .socketWriteError }

/-- The branch that reads the socket, on a message. -/
def receive (msg : Value) (written : Bool) (p : State) : State :=
  let p := if isResponse msg then { p with pendingRequests := p.pendingRequests - 1 } else p
  let p := { p with unanswered := p.unanswered.diff (responseIds msg) }
  if !written then { p with exit := some .stdoutWriteError }
  else if p.stdinClosed && p.pendingRequests == 0 then { p with exit := some .allReceived }
  else p

/-- **One turn of the loop.** The first branch is off once stdin is closed. -/
def step (p : State) (l : Label) : Option State :=
  if p.exit.isSome then none
  else
    match l with
    | .stdin msg sent => if p.stdinClosed then none else some (forward msg sent p)
    | .stdinError | .stdinEof => if p.stdinClosed then none else some { p with stdinClosed := true }
    | .socket msg written => some (receive msg written p)
    | .socketError => some { p with exit := some .socketDecodeError }
    | .socketEof => some { p with exit := some .socketClosed }

end Proxy

end VcOperator
