import VcOperator.Control.Model.Subscription
/-!
# A subscriber and its connection

`MuxSubscriber::start` against `handle_connection`: the task of the
operator console, the task that serves its connection, and the stream
between the two. A run begins before the first `connect`. The subscriber
leaves a connection only at its end, which the serving task has brought
about by returning; so there is one connection at a time.

The subscriber writes its command in one piece, shorter than the buffer of
a read: a read takes all that is there. Reads and writes do not fail. A
line that comes back is the response it encodes.
-/

namespace VcOperator

namespace Control

/-- `SubscriberState`. -/
inductive SubscriberState where
  | connected
  | reconnecting
  | polling
  | failed
  deriving DecidableEq

/-- Where the task of `MuxSubscriber::start` stands. -/
inductive SubscriberStage where
  /-- Before `UnixStream::connect`. -/
  | connecting
  /-- There is a stream, and the command is still to be written. -/
  | connected
  /-- The command is written, and the stream is still to be split. -/
  | written
  /-- In `lines.next_line()`, with the reading half alone. -/
  | listening
  /-- The loop is left, after ten failed attempts. -/
  | polling
  deriving DecidableEq

/-- The task that serves a connection. -/
inductive Serving (ε : Type) where
  /-- There is no connection. -/
  | waiting
  /-- In the outer loop of `handle_connection`. -/
  | reading
  /-- In the subscription loop, or on its way into it or out of it, with the lines that
  are still to be handled. -/
  | subscription (sub : Subscription ε) (rest : List Bytes)
  /-- `handle_connection` has returned, and the stream is dropped. -/
  | finished
  deriving DecidableEq

/-- What the subscriber writes. -/
def subscribeLine : Bytes := "\x7b\"cmd\":\"Subscribe\"\x7d\n".toUTF8.data.toList

/-- A subscriber, its connection and the task that serves it. -/
structure Link (σ ε : Type) where
  stage : SubscriberStage
  state : SubscriberState
  attempts : ℕ
  /-- The events forwarded to `rx`. -/
  forwarded : List ε
  /-- Bytes on their way to the mux. -/
  up : Bytes
  /-- The subscriber has dropped its writing half. -/
  upShut : Bool
  /-- Lines on their way to the subscriber. -/
  down : List (MuxControlResponse σ ε)
  serving : Serving ε
  /-- History: `tx.subscribe()` has been called, when so many events had been published
  since the `Ok` reply. -/
  since : Option ℕ
  deriving DecidableEq

/-- One step of either task, or of a task that publishes. -/
inductive LinkStep (ε : Type) where
  /-- `UnixStream::connect` succeeds, and the connection is accepted. -/
  | connect
  /-- `UnixStream::connect` fails. -/
  | refused
  /-- The command is written. -/
  | write
  /-- `let (reader, _) = stream.into_split()`: the writing half is dropped. -/
  | split
  /-- `next_line()` completes. -/
  | line
  /-- `event_tx.send(event)`. -/
  | publish (event : ε)
  /-- `stream.read()` completes. -/
  | read
  /-- `tx.subscribe()`. -/
  | subscribe
  /-- `rx.recv()` completes. -/
  | recv
  /-- The lines that a subscription left are handled. -/
  | resume
  deriving DecidableEq

variable {σ ε : Type}

namespace Link

/-- Before the first attempt. -/
def start : Link σ ε where
  stage := .connecting
  state := .reconnecting
  attempts := 0
  forwarded := []
  up := []
  upShut := false
  down := []
  serving := .waiting
  since := none

/-- The event a line carries. -/
def eventOf : MuxControlResponse σ ε → Option ε
  | .event event => some event
  | _ => none

/-- What becomes of the serving task when it has handled the lines of a read. -/
def handled (s : Link σ ε) (out : List (MuxControlResponse σ ε) × Phase) : Link σ ε :=
  { s with
    down := s.down ++ out.1
    serving :=
      match out.2 with
      | .reading => .reading
      | .subscribed rest => .subscription .start rest }

/-- A read that is not of a subscription. -/
def outerRead (e : Endpoint σ ε) (s : Link σ ε) : Option (Link σ ε) :=
  if s.up = [] then
    if s.upShut then some { s with serving := .finished } else none
  else some ({ s with up := [] }.handled (e.onRead s.up .reading))

/-- A read of a subscription: the end of the stream, or data. -/
def innerRead (e : Endpoint σ ε) (slots : ℕ) (s : Link σ ε) (sub : Subscription ε)
    (rest : List Bytes) : Option (Link σ ε) :=
  if s.up = [] then
    if s.upShut then
      (subscriptionStep e slots sub (.read none)).map fun sub' =>
        { s with serving := .subscription sub' rest }
    else none
  else
    (subscriptionStep e slots sub (.read (some s.up))).map fun sub' =>
      { s with
        up := []
        down :=
          match e.parse s.up with
          | .ok .unsubscribe => s.down ++ [.ok]
          | _ => s.down
        serving := .subscription sub' rest }

/-- `next_line()`: a line, or the end of the stream. -/
def lineStep (s : Link σ ε) : Option (Link σ ε) :=
  match s.down with
  | resp :: down => some { s with down := down, forwarded := s.forwarded ++ (eventOf resp).toList }
  | [] =>
    match s.serving with
    | .finished =>
      -- the stream is dropped, and the loop starts again
      some { s with
        stage := .connecting, state := .reconnecting, up := [], upShut := false,
        serving := .waiting }
    | _ => none

end Link

open Link in
/-- The step function. -/
def linkStep (e : Endpoint σ ε) (slots : ℕ) (s : Link σ ε) :
    LinkStep ε → Option (Link σ ε)
  | .connect =>
    if s.stage = .connecting then
      some { s with
        stage := .connected, state := .connected, attempts := 0, serving := .reading }
    else none
  | .refused =>
    if s.stage = .connecting then
      if 10 ≤ s.attempts + 1 then
        some { s with attempts := s.attempts + 1, stage := .polling, state := .polling }
      else some { s with attempts := s.attempts + 1 }
    else none
  | .write =>
    if s.stage = .connected then some { s with stage := .written, up := subscribeLine } else none
  | .split =>
    if s.stage = .written then some { s with stage := .listening, upShut := true } else none
  | .line => if s.stage = .listening then s.lineStep else none
  | .publish event =>
    match s.serving with
    | .subscription sub rest =>
      (subscriptionStep e slots sub (.publish event)).map fun sub' =>
        { s with serving := .subscription sub' rest }
    | _ => some s
  | .read =>
    match s.serving with
    | .reading => s.outerRead e
    | .subscription sub rest => s.innerRead e slots sub rest
    | _ => none
  | .subscribe =>
    match s.serving with
    | .subscription sub rest =>
      (subscriptionStep e slots sub .subscribe).map fun sub' =>
        { s with serving := .subscription sub' rest, since := some sub.published.length }
    | _ => none
  | .recv =>
    match s.serving with
    | .subscription sub rest =>
      (subscriptionStep e slots sub (.recv true)).map fun sub' =>
        { s with
          down := s.down ++ (sub'.sent.drop sub.sent.length).map fun p => .event p.2
          serving := .subscription sub' rest }
    | _ => none
  | .resume =>
    match s.serving with
    | .subscription sub rest =>
      if sub.stage = .left then some (s.handled (e.handleLines rest)) else none
    | _ => none

end Control

end VcOperator
