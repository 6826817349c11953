import VcOperator.Mux.Model.Step
/-!
# Where a request can be

The places a request passes through, from the frame it came in as to its
one reply: the handler that works on it, its client's handshake buffer,
`pending`, `init_waiting`, the hands of the step that has just taken it
out of one of these, and its client's channel.

A place is read as the list of the occurrences in it, so that a request
that were copied would be counted twice.
-/

namespace VcOperator

namespace Mux

/-- The occurrence an operation of a handler is the handling of. -/
def ClientOp.ownCall : ClientOp → List Occ
  | handleClientMessage msg | rejectTooLarge msg | checkHandshake msg | bufferMessage msg
  | forwardRequest msg => [msg.occ]
  | handleInitialize _ localId => [localId.occ]
  | _ => []

/-- The requests a handshake flush has still to forward. -/
def ClientOp.flushing : ClientOp → List Occ
  | flushBuffered buffered => buffered.map (·.occ)
  | _ => []

/-- The request a server message is being routed to. -/
def RouterOp.routing : RouterOp → List Occ
  | findTarget _ p | sendTarget _ p => [p.localId.occ]
  | _ => []

/-- The requests of a reaper batch. -/
def ReaperOp.batch : ReaperOp → List Occ
  | replyExpired expired => expired.map (·.2.occ)
  | _ => []

namespace Shared

variable (sh : Shared)

/-- The requests replied to. -/
def answered : List Occ := sh.sent.filterMap (·.answers)

/-- The requests that have an entry in `pending`. -/
def pendingOccs : List Occ := sh.st.pending.values.map (·.localId.occ)

/-- The requests in `init_waiting`. -/
def waitingOccs : List Occ := sh.st.initWaiting.map (·.2.occ)

/-- The requests in a client's handshake buffer. -/
def bufferedOccs (c : ℕ) : List Occ := (sh.st.bufferedMessages c).map (·.occ)

/-- The number of times the shared state holds a request. -/
def held (o : Occ) : ℕ :=
  sh.answered.count o + sh.pendingOccs.count o + sh.waitingOccs.count o +
    (sh.bufferedOccs o.client).count o

end Shared

/-- The places of a request that is no longer being handled. -/
inductive Place where
  /-- A reply to it has been put on its client's channel. -/
  | replied
  /-- It has an entry in `pending`. -/
  | pending
  /-- It is in `init_waiting`. -/
  | waiting
  /-- It is in its client's handshake buffer. -/
  | buffered
  /-- A server message is being routed to it. -/
  | routed
  /-- It is in a reaper batch. -/
  | reaped
  /-- Its client's handshake flush has still to forward it. -/
  | flushed
  deriving DecidableEq, Repr

/-- The places that are the hands of a step under way. -/
def Place.inStep : Place → Bool
  | replied | pending | waiting | buffered => false
  | routed | reaped | flushed => true

namespace System

variable (s : System)

/-- The occurrences in one place, as far as client `c` is concerned. -/
def placeOccs (c : ℕ) : Place → List Occ
  | .replied => s.shared.answered
  | .pending => s.shared.pendingOccs
  | .waiting => s.shared.waitingOccs
  | .buffered => s.shared.bufferedOccs c
  | .routed => s.router.flatMap RouterOp.routing
  | .reaped => s.reaper.flatMap ReaperOp.batch
  | .flushed => (s.handlers c).flatMap ClientOp.flushing

/-- How many times a request is in a place. -/
def countAt (o : Occ) (place : Place) : ℕ := (s.placeOccs o.client place).count o

/-- A request is in exactly one place, and there once. -/
def InOnePlace (o : Occ) : Prop :=
  ∃ place, s.countAt o place = 1 ∧ ∀ place', place' ≠ place → s.countAt o place' = 0

/-- Wherever a request is, it stands under its client, with its own id. -/
structure CarriesId (msg : Tagged Value) : Prop where
  replied : ∀ d ∈ s.shared.sent, d.answers = some msg.occ →
    d.client = msg.occ.client ∧ d.msg.get "id" = msg.val.get "id"
  pending : ∀ p ∈ s.shared.st.pending.values, p.localId.occ = msg.occ →
    p.clientId = msg.occ.client ∧ msg.val.get "id" = some p.localId.val
  waiting : ∀ w ∈ s.shared.st.initWaiting, w.2.occ = msg.occ →
    w.1 = msg.occ.client ∧ msg.val.get "id" = some w.2.val
  buffered : ∀ c, ∀ m ∈ s.shared.st.bufferedMessages c, m.occ = msg.occ →
    c = msg.occ.client ∧ m = msg

/-- `handle_client_message` has returned from the handling of a frame. -/
def Handled (o : Occ) : Prop := s.current o.client ≠ some o ∨ s.handlers o.client = []

end System

/-- A request whose handling the mux accounts for: it has an id, and is
not the `notifications/initialized` message. -/
def IsRequest (msg : Value) : Prop :=
  (msg.get "id").isSome ∧ method msg ≠ "notifications/initialized"

instance : DecidablePred IsRequest :=
  fun msg => inferInstanceAs (Decidable ((msg.get "id").isSome ∧ _))

end Mux

end VcOperator
