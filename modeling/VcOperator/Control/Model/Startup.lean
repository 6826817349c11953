import VcOperator.Control.Model.Subscription
/-!
# The control servers of a process

`run_mux_multi` spawns one mux for each service, and each of them spawns
`run_server` on the one path of `socket_path`, with the broadcast channel
of its own service. This file has the steps of these tasks up to `accept`,
and of a client that connects when all of them are through with it.

A socket file outlives the listener that bound it; the last process may
have left one. To connect to a path is to connect to the listener that
bound the file that is there. Removing a file that is not there is an error
the task ignores. The client's user is that of the process, there are less
than `MAX_CONCURRENT` others, and it keeps its stream open and sends nothing
but `Subscribe`.
-/

namespace VcOperator

namespace Control

/-- `IpcEvent`. -/
inductive IpcEvent where
  | stateChange (service : String) (old : String) (new : String)
  | routeUpdate (client : String) (server : String) (count : ℕ) (p99Ms : ℕ)
  | serverHealth (name : String) (rssMb : ℕ) (restarts : ℕ) (lastError : Option String)
  | clientDrift (client : String) (nonMuxPaths : List String)
  deriving DecidableEq

/-- What is at `socket_path()`. -/
inductive ControlPath where
  | free
  /-- A file that no listener of this process bound. -/
  | stale
  | bound (service : ℕ)
  deriving DecidableEq

/-- Where the IPC task of a service stands in `run_server`. -/
inductive IpcTask where
  /-- Before `path.exists()`. -/
  | spawned
  /-- Before `remove_file`. -/
  | removing
  /-- Before `UnixListener::bind`. -/
  | binding
  /-- In the `accept` loop. -/
  | listening
  /-- `bind` has failed, and `run_server` has returned. -/
  | failed
  deriving DecidableEq

/-- A client of the control socket. -/
inductive Console where
  | absent
  /-- Accepted by the listener of a service. -/
  | connected (service : ℕ)
  /-- Its `Subscribe` is answered by the connection task of a service. -/
  | subscribed (service : ℕ) (sub : Subscription IpcEvent)
  deriving DecidableEq

/-- The control servers of a process and a client. -/
structure Plane where
  path : ControlPath
  tasks : List IpcTask
  console : Console
  /-- History: the `StateChange` events since `tx.subscribe()`, each with the service that
  sent it. -/
  published : List (ℕ × IpcEvent)
  deriving DecidableEq

/-- One step of a task or of the client. -/
inductive PlaneStep where
  /-- `path.exists()`. -/
  | look (service : ℕ)
  /-- `remove_file(&path)`. -/
  | remove (service : ℕ)
  /-- `UnixListener::bind(&path)`. -/
  | bind (service : ℕ)
  /-- `publish_status` of a service, at a status with this text. -/
  | publish (service : ℕ) (status : String)
  /-- The client connects, after start-up. -/
  | connect
  /-- `Subscribe` is read and answered. -/
  | request
  /-- `tx.subscribe()`. -/
  | subscribe
  /-- `rx.recv()` completes. -/
  | recv
  deriving DecidableEq

/-- The task is through with its start. -/
def IpcTask.settled : IpcTask → Bool
  | .listening => true
  | .failed => true
  | _ => false

namespace Plane

/-- The IPC tasks of the services are spawned. -/
def start (stale : Bool) (services : List String) : Plane where
  path := if stale then .stale else .free
  tasks := services.map fun _ => .spawned
  console := .absent
  published := []

/-- Start-up is over. -/
def settled (s : Plane) : Bool := s.tasks.all IpcTask.settled

/-- A step of the client's connection. -/
def onSubscription (e : Endpoint Unit IpcEvent) (s : Plane) (l : SubscriptionStep IpcEvent) :
    Option Plane :=
  match s.console with
  | .subscribed service sub =>
    (subscriptionStep e eventSlots sub l).map fun sub' =>
      { s with console := .subscribed service sub' }
  | _ => none

/-- `event_tx.send(event)`: the channel of a service reaches the receivers that are
subscribed to it. -/
def send (s : Plane) (service : ℕ) (event : IpcEvent) : Plane :=
  { s with
    console :=
      match s.console with
      | .subscribed i sub =>
        if i = service then .subscribed i { sub with published := sub.published ++ [event] }
        else .subscribed i sub
      | console => console
    published := s.published ++ [(service, event)] }

end Plane

/-- The step function, for the services with these names. -/
def planeStep (services : List String) (e : Endpoint Unit IpcEvent) (s : Plane) :
    PlaneStep → Option Plane
  | .look i =>
    if s.tasks[i]? = some .spawned then
      some { s with tasks := s.tasks.set i (if s.path = .free then .binding else .removing) }
    else none
  | .remove i =>
    if s.tasks[i]? = some .removing then
      some { s with path := .free, tasks := s.tasks.set i .binding }
    else none
  | .bind i =>
    if s.tasks[i]? = some .binding then
      if s.path = .free then some { s with path := .bound i, tasks := s.tasks.set i .listening }
      else some { s with tasks := s.tasks.set i .failed }
    else none
  | .publish i status =>
    match services[i]? with
    | some name => some (s.send i (.stateChange name "Unknown" status))
    | none => none
  | .connect =>
    match s.console, s.path with
    | .absent, .bound i => if s.settled then some { s with console := .connected i } else none
    | _, _ => none
  | .request =>
    match s.console with
    | .connected i => some { s with console := .subscribed i .start }
    | _ => none
  | .subscribe => (s.onSubscription e .subscribe).map fun s' => { s' with published := [] }
  | .recv => s.onSubscription e (.recv true)

end Control

end VcOperator
