import VcOperator.Mux.Model.State
/-!
# What the tasks of one mux share

The daemon of one service is a handful of tasks around one `MuxState`:
a handler and a writer for each client, the event router, the timeout
reaper, the heartbeat inspector and the server manager. `Shared` is what
they act on: the state behind the mutex, the channels between them, the
child processes, and the clock.

Its last group of fields is history: what was received, sent, enqueued
and issued so far. The history only grows, and no task reads it.
-/

namespace VcOperator

namespace Mux

/-- `ServerEvent`: what the router takes from the server's side. -/
inductive ServerEvent where
  | message (msg : Value)
  | reset (reason : String)

/-- Where a message on a client's channel was made: by the mux, or out of
a child message, whose routing found `addressee` (the request it answers,
and whether that request is an `initialize`). -/
inductive Origin where
  | mux
  | child (msg : Value) (addressee : Option (Occ × Bool))

/-- One message put on one client's channel. `answers` is the request it
replies to, where it is a reply. -/
structure Delivery where
  client : ℕ
  msg : Value
  answers : Option Occ
  origin : Origin

/-- Who put a message on the `to_server` channel. -/
inductive Source where
  | client (occ : Occ)
  | heartbeat (n : ℕ)

/-- One message put on the `to_server` channel. -/
structure Put where
  msg : Value
  source : Source

/-- One global id issued for a client's request. -/
structure Issue where
  clientId : ℕ
  n : ℕ
  occ : Occ
  isInitialize : Bool

/-- What happens to the `initialize` requests forwarded to the child. -/
inductive InitEvent where
  /-- The request is put on the `to_server` channel. -/
  | put (occ : Occ)
  /-- It is answered: by a response of the child, or by the error of a reset. -/
  | answered (occ : Occ) (isError : Bool)
  /-- The reaper takes it out of `pending`. -/
  | timedOut (occ : Occ)
  /-- Its client is unregistered while it is pending. -/
  | dropped (occ : Occ)
  /-- The cached handshake is reset. -/
  | reset
  deriving DecidableEq

/-- One incarnation of the child. -/
structure Child where
  pid : ℕ
  /-- The process exists. -/
  alive : Bool
  /-- The messages written to its stdin. -/
  written : List Value
  /-- Its reader task has not ended. -/
  reading : Bool

/-- What the tasks share. -/
structure Shared where
  st : MuxState
  now : ℕ
  shutdown : Bool
  /-- The guard of `server_manager`'s restart-limit branch is alive: from
  there on nobody else acquires the mutex. -/
  stateLocked : Bool
  availablePermits : ℕ
  /-- The snapshots sent on the watch channel, the last one its value. -/
  published : List StatusSnapshot
  toServer : List Value
  /-- The receiving half of `to_server` exists. -/
  toServerOpen : Bool
  serverEvents : List ServerEvent
  heartbeatRx : List String
  restartRx : List String
  children : List Child
  received : List (Tagged Value)
  sent : List Delivery
  put : List Put
  issued : List Issue
  initEvents : List InitEvent

namespace Shared

variable (sh : Shared)

/-- `if let Some(tx) = st.clients.get(..) { tx.send(..).ok(); }`, for each
message of a batch: a client that is not registered gets nothing. -/
def replyAll (ds : List Delivery) : Shared :=
  { sh with sent := sh.sent ++ ds.filter fun d => d.client ∈ sh.st.clients }

/-- The same, for one message. -/
def reply (d : Delivery) : Shared := sh.replyAll [d]

/-- An error the mux itself answers a request with. -/
def errorReply (localId : Tagged Value) (message : String) (clientId : ℕ) : Delivery where
  client := clientId
  msg := errorResponse localId.val message
  answers := some localId.occ
  origin := .mux

/-- A message goes onto the `to_server` channel. -/
def enqueue (p : Put) : Shared :=
  { sh with toServer := sh.toServer ++ [p.msg], put := sh.put ++ [p] }

/-- The channel has a free slot and a receiver. -/
def hasRoom : Bool := sh.toServerOpen && decide (sh.toServer.length < maxQueue)

/-- `update_queue_depth`. -/
def updateQueueDepth : Shared :=
  { sh with st := { sh.st with queueDepth := sh.toServer.length } }

/-- `publish_status`. -/
def publishStatus : Shared :=
  { sh with
    published := sh.published ++
      [snapshotForState sh.st sh.now (sh.st.maxActiveClients - sh.availablePermits)] }

/-- The pending `initialize` requests of a list of entries. -/
def initOccs (ps : List Pending) : List Occ :=
  (ps.filter (·.isInitialize)).map (·.localId.occ)

/-- The lock section of `unregister_client`, with the `initialize`
requests it drops in the history. -/
def unregister (clientId : ℕ) : Shared :=
  { sh with
    st := sh.st.unregisterClient clientId
    initEvents := sh.initEvents ++
      (initOccs (sh.st.pending.values.filter (·.clientId = clientId))).map .dropped }

end Shared

end Mux

end VcOperator
