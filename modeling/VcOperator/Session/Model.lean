import VcOperator.Mux.Model.Step
/-!
# A host, its proxy, and the mux

One session of the byte proxy: `run_proxy` of
`mux-agent/src/bin/rust-mux-proxy.rs` on the one side of a socket, and
`handle_client` with its writer task on the other. The proxy is two
copies, stdin to the socket and the socket to stdout, and it shuts the
socket's write side down when stdin ends. The mux is the one of
`VcOperator.Mux.Model.Step`, with all its other clients, its child and
its tasks; what `handle_client` does with the socket is made precise here,
and is taken out of the labels the mux may choose freely.

The proxy copies bytes. They are read as the messages they are the
encoding of, so that a message is copied, and written, as a whole. An end
of the session by an I/O error of the proxy is not modelled.

`outputs` is history: what the child has written in the session.
-/

namespace VcOperator

namespace Session

open Mux

/-- The writer task of the connection. -/
inductive WriterTask where
  | running
  /-- Its channel is closed and empty; it unregisters its client. -/
  | leaving
  /-- It has returned or was aborted, and its half of the socket is dropped. -/
  | over
  deriving DecidableEq, Repr

/-- A session: the mux, the proxy, and the socket between them. -/
structure State where
  mux : System
  /-- The id under which the mux has registered the connection. -/
  client : Option ℕ
  /-- What the host has written and the proxy has not read. -/
  stdin : List Value
  stdinClosed : Bool
  /-- The socket, from the proxy to the mux. -/
  toMux : List Value
  /-- Its write side is shut down. -/
  shut : Bool
  writer : WriterTask
  /-- How many messages the writer task has taken from its channel. -/
  taken : ℕ
  /-- The socket, from the mux to the proxy. -/
  toProxy : List Delivery
  stdout : List Delivery
  /-- The proxy has returned. -/
  ended : Bool
  outputs : List Value

/-- The labels of a session. -/
inductive Label where
  | hostWrites (msg : Value)
  | hostCloses
  /-- `io::copy` from stdin to the socket. -/
  | copyIn
  /-- `mux_writer.shutdown()`, once stdin has ended. -/
  | shutdown
  /-- `handle_client` registers the connection. -/
  | accept
  /-- Its reader loop gets a frame. -/
  | read
  /-- It gets the end of the stream. -/
  | readEof
  /-- It sees the shutdown of the daemon. -/
  | cancelled
  /-- Anything else in the mux. -/
  | mux (label : Mux.Label)
  /-- The writer task writes the next message of its channel. -/
  | write
  /-- Its `recv` finds the channel closed and empty. -/
  | channelClosed
  | writerReturns
  /-- `writer_handle.abort()`, and its end is awaited. -/
  | abort
  /-- `io::copy` from the socket to stdout. -/
  | copyOut
  /-- Both copies are done. -/
  | finish

namespace State

/-- The state of a session at its start. -/
def init (cfg : Config) : State where
  mux := .init cfg
  client := none
  stdin := []
  stdinClosed := false
  toMux := []
  shut := false
  writer := .running
  taken := 0
  toProxy := []
  stdout := []
  ended := false
  outputs := []

variable (s : State)

/-- What was put on the client's channel. -/
def channel : List Delivery :=
  match s.client with
  | some c => s.mux.shared.sent.filter (·.client = c)
  | none => []

/-- `handle_client` has returned, and its half of the socket is dropped. -/
def returned : Bool :=
  match s.client with
  | some c => !s.mux.readers c && (s.mux.handlers c).isEmpty
  | none => false

/-- `handle_client` is at the point where it aborts the writer task: what
is left of it is the end of its frame. -/
def atAbort : Bool :=
  match s.client with
  | some c => !s.mux.readers c &&
      match s.mux.handlers c with
      | [.releasePermit] => true
      | _ => false
  | none => false

/-- A sender of a client's channel exists: the one in the map of clients,
or the copy of it the router sends to. -/
def channelOpen (c : ℕ) : Bool :=
  decide (c ∈ s.mux.shared.st.clients) ||
    s.mux.router.any fun
      | .sendTarget _ p => p.clientId == c
      | _ => false

/-- The labels of the mux that the socket decides about. -/
def decides : Mux.Label → Bool
  | .receive c _ | .disconnect c | .decodeError c | .writerFails c => s.client == some c
  | .handler c => s.client == some c && s.atAbort && s.writer != .over
  | .writer c => s.client == some c && s.writer == .over
  | _ => false

/-- What the child writes with a label of the mux. -/
def outputOf : Mux.Label → List Value
  | .childOutput _ msg => [msg]
  | _ => []

/-- The mux goes on from `m`. -/
def withMux (m : System) : State := { s with mux := m }

/-- **One step of a session.** -/
def step (cfg : Config) (s : State) : Label → Option State
  | .hostWrites msg => if s.stdinClosed then none else some { s with stdin := s.stdin ++ [msg] }
  | .hostCloses => some { s with stdinClosed := true }
  | .copyIn =>
    match s.stdin with
    | [] => none
    | msg :: rest =>
      if s.returned then none else some { s with stdin := rest, toMux := s.toMux ++ [msg] }
  | .shutdown => if s.stdinClosed && s.stdin.isEmpty then some { s with shut := true } else none
  | .accept =>
    match s.client with
    | some _ => none
    | none => (s.mux.step cfg .connect).map fun m =>
        { s.withMux m with client := some s.mux.shared.st.nextClientId }
  | .read =>
    match s.client, s.toMux with
    | some c, msg :: rest => (s.mux.step cfg (.receive c msg)).map fun m =>
        { s.withMux m with toMux := rest }
    | _, _ => none
  | .readEof =>
    match s.client with
    | some c =>
      if s.shut && s.toMux.isEmpty then (s.mux.step cfg (.disconnect c)).map s.withMux else none
    | none => none
  | .cancelled =>
    match s.client with
    | some c =>
      if s.mux.shared.shutdown then (s.mux.step cfg (.disconnect c)).map s.withMux else none
    | none => none
  | .mux label =>
    if s.decides label then none
    else (s.mux.step cfg label).map fun m =>
      { s.withMux m with outputs := s.outputs ++ outputOf label }
  | .write =>
    match s.channel[s.taken]? with
    | some d =>
      if s.writer = .running then
        some { s with taken := s.taken + 1, toProxy := s.toProxy ++ [d] }
      else none
    | none => none
  | .channelClosed =>
    match s.client with
    | some c =>
      if s.writer = .running ∧ s.channelOpen c = false ∧ s.taken = s.channel.length then
        (s.mux.step cfg (.writerFails c)).map fun m => { s.withMux m with writer := .leaving }
      else none
    | none => none
  | .writerReturns =>
    match s.client with
    | some c =>
      if s.writer = .leaving ∧ s.mux.writers c = [] then some { s with writer := .over } else none
    | none => none
  | .abort => if s.atAbort && s.writer != .over then some { s with writer := .over } else none
  | .copyOut =>
    match s.toProxy with
    | [] => none
    | d :: rest => some { s with toProxy := rest, stdout := s.stdout ++ [d] }
  | .finish =>
    if s.shut && s.writer == .over && s.toProxy.isEmpty then some { s with ended := true } else none

end State

end Session

end VcOperator
