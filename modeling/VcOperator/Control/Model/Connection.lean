import VcOperator.Control.Model.Command
/-!
# A control connection

`handle_connection`, as far as its responses to commands go: what each read
brings, how it is cut into commands, and what is answered. The reads are an
input of the model, and so are the decoding of a command and the state it
is answered from. Events are not responses to commands, and the loop that
sends them reads commands in its own way whether or not there are any.
-/

namespace VcOperator

namespace Control

/-- Bytes. -/
abbrev Bytes := List UInt8

/-- The size of the buffer a read fills: `32 * 1024`. -/
def maxRead : ℕ := 32768

/-- What a connection answers from. -/
structure Endpoint (σ ε : Type) where
  /-- `serde_json::from_slice::<MuxControlCommand>`, or the text of its error. -/
  parse : Bytes → Except String MuxControlCommand
  /-- The state of the mux, for `GetStatus`. -/
  snapshot : σ
  /-- `handle_verify`. -/
  verify : ClientKind → VerifyResult
  /-- An event sender is configured. -/
  eventTx : Bool

/-- What a read holds: `split` on newlines, empty lines dropped. -/
def lines (data : Bytes) : List Bytes := (data.splitOn 10).filter (· ≠ [])

/-- Where `handle_connection` awaits a read. -/
inductive Phase where
  /-- The outer loop. -/
  | reading
  /-- The subscription loop, with the lines of the read that subscribed that are still
  to be handled. -/
  | subscribed (rest : List Bytes)

namespace Endpoint

variable {σ ε : Type}

/-- The response to a command. -/
def respond (e : Endpoint σ ε) (cmd : MuxControlCommand) : MuxControlResponse σ ε :=
  handleCommand e.snapshot e.verify cmd

/-- The loop over the lines of a read. -/
def handleLines (e : Endpoint σ ε) : List Bytes → List (MuxControlResponse σ ε) × Phase
  | [] => ([], .reading)
  | line :: rest =>
    match e.parse line with
    | .error err =>
      let (out, phase) := e.handleLines rest
      (.error ("Parse error: " ++ err) :: out, phase)
    | .ok cmd =>
      if cmd = .subscribe then
        if e.eventTx then ([e.respond cmd], .subscribed rest)
        else
          let (out, phase) := e.handleLines rest
          (e.respond cmd :: .error "No event sender configured" :: out, phase)
      else
        let (out, phase) := e.handleLines rest
        (e.respond cmd :: out, phase)

/-- One read. The subscription loop takes the whole read for one command, and answers
`Unsubscribe` alone. -/
def onRead (e : Endpoint σ ε) (data : Bytes) : Phase → List (MuxControlResponse σ ε) × Phase
  | .reading => e.handleLines (lines data)
  | .subscribed rest =>
    match e.parse data with
    | .ok .unsubscribe =>
      let (out, phase) := e.handleLines rest
      (.ok :: out, phase)
    | _ => ([], .subscribed rest)

/-- The lines that are left at the end of the stream: a subscription ends at once. -/
def handleRest (e : Endpoint σ ε) : List Bytes → List (MuxControlResponse σ ε)
  | [] => []
  | line :: rest =>
    match e.parse line with
    | .error err => .error ("Parse error: " ++ err) :: e.handleRest rest
    | .ok cmd =>
      if cmd = .subscribe ∧ e.eventTx = false then
        e.respond cmd :: .error "No event sender configured" :: e.handleRest rest
      else e.respond cmd :: e.handleRest rest

/-- The reads that are still to come, and then the end of the stream. -/
def handleReads (e : Endpoint σ ε) : Phase → List Bytes → List (MuxControlResponse σ ε)
  | .reading, [] => []
  | .subscribed rest, [] => e.handleRest rest
  | phase, data :: reads => (e.onRead data phase).1 ++ e.handleReads (e.onRead data phase).2 reads

/-- `handle_connection`: the responses to the commands of a stream that arrives in
these reads. -/
def handleConnection (e : Endpoint σ ε) (reads : List Bytes) : List (MuxControlResponse σ ε) :=
  e.handleReads .reading reads

end Endpoint

end Control

end VcOperator
