import VcOperator.Control.Model.Connection
/-!
# A subscription

The subscription of `handle_connection`, one step at a time, with the
broadcast channel it receives from and the tasks that publish to it. A run
begins when the `Ok` reply to `Subscribe` has been sent.

The channel keeps the last `slots` events and gives a receiver a position
in the row of all events. A receiver that has been overtaken gets `Lagged`
once and goes on at the oldest event that is kept. A `select!` branch whose
pattern does not match is disabled until the next `select!`, that is, until
the other branch has completed.
-/

namespace VcOperator

namespace Control

/-- The events `broadcast::channel(100)` keeps: the next power of two. -/
def eventSlots : ℕ := 128

/-- Where a subscription stands. -/
inductive Stage where
  /-- The `Ok` reply is sent, and `tx.subscribe()` is still to come. -/
  | acknowledged
  /-- In `select!`, with the event branch enabled or not. -/
  | selecting (eventBranch : Bool)
  /-- The loop is left: unsubscribed or disconnected. -/
  | left
  deriving DecidableEq

/-- A subscription and the channel it receives from. -/
structure Subscription (ε : Type) where
  /-- The events published since the `Ok` reply. -/
  published : List ε
  stage : Stage
  /-- The position of the receiver: the event it receives next. -/
  next : ℕ
  /-- The events sent to the client, each with its position. -/
  sent : List (ℕ × ε)
  deriving DecidableEq

/-- One step of the connection task, or of a task that publishes. -/
inductive SubscriptionStep (ε : Type) where
  /-- `event_tx.send(event)`, in any task. -/
  | publish (event : ε)
  /-- `tx.subscribe()`. -/
  | subscribe
  /-- `rx.recv()` completes; an event is sent to a client that is there, or is not. -/
  | recv (there : Bool)
  /-- `stream.read()` completes, at the end of the stream with nothing. -/
  | read (data : Option Bytes)
  deriving DecidableEq

/-- A subscription that has just been acknowledged. -/
def Subscription.start {ε : Type} : Subscription ε := ⟨[], .acknowledged, 0, []⟩

section

variable {σ ε : Type}

/-- What `rx.recv()` completes with, and what becomes of it. -/
def recvStep (slots : ℕ) (there : Bool) (s : Subscription ε) : Option (Subscription ε) :=
  if slots < s.published.length - s.next then
    -- `Lagged`: the pattern `Ok(event)` does not match
    some { s with next := s.published.length - slots, stage := .selecting false }
  else
    match s.published[s.next]? with
    | none => none
    | some event =>
      if there then
        some { s with
          next := s.next + 1, sent := s.sent ++ [(s.next, event)], stage := .selecting true }
      else some { s with stage := .left }

/-- What the read branch does with a read. -/
def readStep (e : Endpoint σ ε) (data : Option Bytes) (s : Subscription ε) : Subscription ε :=
  match data with
  | none => { s with stage := .left }
  | some data =>
    match e.parse data with
    | .ok .unsubscribe => { s with stage := .left }
    | _ => { s with stage := .selecting true }

/-- The step function. -/
def subscriptionStep (e : Endpoint σ ε) (slots : ℕ) (s : Subscription ε) :
    SubscriptionStep ε → Option (Subscription ε)
  | .publish event => some { s with published := s.published ++ [event] }
  | .subscribe =>
    match s.stage with
    | .acknowledged => some { s with stage := .selecting true, next := s.published.length }
    | _ => none
  | .recv there =>
    match s.stage with
    | .selecting true => recvStep slots there s
    | _ => none
  | .read data =>
    match s.stage with
    | .selecting _ => some (readStep e data s)
    | _ => none

end

end Control

end VcOperator
