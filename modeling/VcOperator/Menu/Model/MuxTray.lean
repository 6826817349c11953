import VcOperator.Common.Run
import VcOperator.Common.Watch
import VcOperator.Mux.Model.State
/-!
# The tray of a mux

`spawn_tray`: a task forwards the snapshots of the mux to the thread of the
tray, through a channel that has room for one, and `tray_loop` puts them in
the menu. Another task tells the thread that the mux shuts down.

The icon and the tooltip are left out, and so are the menu items that never
change. A snapshot is held together with its version in the watch channel;
the version is history, and no function reads it. So is `found`: whether the
last snapshot the task took is the one that was on its way to the thread
when `send_latest` returned.
-/

namespace VcOperator

namespace MuxTray

open Mux (StatusSnapshot)

/-! ## The menu -/

/-- `status_line`. -/
def statusLine (snapshot : StatusSnapshot) : String :=
  let statusText := match snapshot.serverStatus with
    | .starting => "Starting"
    | .running => "Running"
    | .restarting => "Restarting"
    | .stopped => "Stopped"
    | .lazy => "Lazy"
    | .backoff => "Backoff"
    | .failed reason => "Failed: " ++ reason
  "Status: " ++ statusText

/-- `client_line`. -/
def clientLine (snapshot : StatusSnapshot) : String :=
  "Clients: " ++ toString snapshot.connectedClients ++ " (active " ++
    toString snapshot.activeClients ++ "/" ++ toString snapshot.maxActiveClients ++ ")"

/-- `pending_line`. -/
def pendingLine (snapshot : StatusSnapshot) : String :=
  "Pending requests: " ++ toString snapshot.pendingRequests

/-- `init_line`. -/
def initLine (snapshot : StatusSnapshot) : String :=
  let cache := if snapshot.cachedInitialize then "cached" else "uncached"
  let init := if snapshot.initializing then "initializing" else "idle"
  "Initialize: " ++ cache ++ ", " ++ init

/-- `restart_line`. -/
def restartLine (snapshot : StatusSnapshot) : String :=
  match snapshot.lastReset with
  | some reason => "Restarts: " ++ toString snapshot.restarts ++ " (last: " ++ reason ++ ")"
  | none => "Restarts: " ++ toString snapshot.restarts

/-- The texts of a `TrayUi`. -/
structure TrayUi where
  header : String
  status : String
  clients : String
  pending : String
  initState : String
  restarts : String
  deriving DecidableEq

/-- `TrayUi::update`, and what `build_tray` begins with. -/
def TrayUi.of (snapshot : StatusSnapshot) : TrayUi where
  header := "Service: " ++ snapshot.serviceName
  status := statusLine snapshot
  clients := clientLine snapshot
  pending := pendingLine snapshot
  initState := initLine snapshot
  restarts := restartLine snapshot

/-! ## The tasks and the thread -/

/-- A snapshot, and its version. -/
structure Taken where
  version : ℕ
  snapshot : StatusSnapshot

/-- What the forwarding task does next. -/
inductive Forwarder where
  /-- `rx.borrow().clone()`. -/
  | borrow
  /-- `send_latest`. -/
  | send (snap : Taken)
  /-- `rx.changed().await`. -/
  | changed
  /-- It has ended, and dropped its end of the channel. -/
  | ended

/-- What the thread of the tray does next. -/
inductive Thread where
  /-- `snap_rx.recv()`, for the first snapshot. -/
  | first
  /-- `build_tray`. -/
  | build (current : Taken)
  /-- `MenuEvent::receiver().try_recv()`. -/
  | menu
  /-- The `select!`. -/
  | select
  /-- It has returned, and dropped its ends of the channels. -/
  | returned

/-- The tray and what it hears of. -/
structure State where
  channel : Watch StatusSnapshot
  /-- Every sender of the watch channel is dropped. -/
  closed : Bool
  /-- The last version `changed` has told of. -/
  seen : ℕ
  forwarder : Forwarder
  /-- `bounded(1)`. -/
  queue : Option Taken
  /-- The shutdown token. -/
  cancelled : Bool
  /-- The message of the stop task is sent. -/
  stopSent : Bool
  thread : Thread
  /-- `current`, once the tray is built. -/
  current : Option Taken
  ui : Option TrayUi
  found : Bool

/-- The operations of the thread, by what they meet. -/
inductive ThreadOp where
  /-- The channel of the snapshots is received from. -/
  | recv
  /-- `build_tray` succeeds, or not. -/
  | built (ok : Bool)
  /-- A menu event; it is that of the item "Quit mux", or another one. -/
  | clicked (quit : Bool)
  /-- There is no menu event. -/
  | noEvent
  /-- The stop message is received. -/
  | stop
  /-- Nothing is received for 150 ms. -/
  | timeout
  deriving DecidableEq

/-- The labels of the step function. -/
inductive Event where
  /-- `publish_status` sends a snapshot. -/
  | publish (snapshot : StatusSnapshot)
  /-- The last sender of the watch channel is dropped. -/
  | close
  /-- Someone else cancels the shutdown token. -/
  | cancel
  /-- An operation of the forwarding task. -/
  | forward
  /-- The stop task sends its message. -/
  | tellStop
  | thread (op : ThreadOp)

namespace State

/-- Where `spawn_tray` begins. -/
def init (initial : StatusSnapshot) : State where
  channel := ⟨initial, []⟩
  closed := false
  seen := 0
  forwarder := .borrow
  queue := none
  cancelled := false
  stopSent := false
  thread := .first
  current := none
  ui := none
  found := true

/-- `send_latest`: the new snapshot is dropped where the channel is full. -/
def sendLatest (s : State) (snap : Taken) : State :=
  match s.thread with
  | .returned => { s with forwarder := .changed }
  | _ =>
    match s.queue with
    | none => { s with queue := some snap, forwarder := .changed, found := true }
    | some held => { s with forwarder := .changed, found := held.version == snap.version }

/-- One operation of the forwarding task. -/
def forward (s : State) : Option State :=
  match s.forwarder with
  | .borrow => some { s with forwarder := .send ⟨s.channel.version, s.channel.value⟩ }
  | .send snap => some (s.sendLatest snap)
  | .changed =>
    if s.seen < s.channel.version then
      some { s with seen := s.channel.version, forwarder := .borrow }
    else if s.closed then some { s with forwarder := .ended }
    else none
  | .ended => none

/-- The thread returns from `tray_loop`. -/
def leave (s : State) : State := { s with queue := none, thread := .returned }

/-- What is received from the forwarding task, and what the thread does with
it; nothing while the channel is empty and the task may still send. -/
def receive (s : State) (take : Taken → State → State) : Option State :=
  match s.queue with
  | some snap => some (take snap { s with queue := none })
  | none =>
    match s.forwarder with
    | .ended => some s.leave
    | _ => none

/-- The tray shows a snapshot. -/
def display (s : State) (snap : Taken) : State :=
  { s with thread := .menu, current := some snap, ui := some (.of snap.snapshot) }

/-- One operation of `tray_loop`. -/
def trayLoop (s : State) : ThreadOp → Option State
  | .recv =>
    match s.thread with
    | .first => s.receive fun snap s => { s with thread := .build snap }
    | .select => s.receive fun snap s => s.display snap
    | _ => none
  | .built ok =>
    match s.thread with
    | .build current => some (if ok then s.display current else s.leave)
    | _ => none
  | .clicked quit =>
    match s.thread with
    | .menu => some (if quit then { s.leave with cancelled := true } else s)
    | _ => none
  | .noEvent =>
    match s.thread with
    | .menu => some { s with thread := .select }
    | _ => none
  | .stop =>
    match s.thread with
    | .select => if s.stopSent then some s.leave else none
    | _ => none
  | .timeout =>
    match s.thread, s.queue, s.forwarder with
    | .select, none, .ended => none
    | .select, none, _ => if s.stopSent then none else some { s with thread := .menu }
    | _, _, _ => none

/-- **One step**, of the mux, of a task or of the thread. -/
def step (s : State) : Event → Option State
  | .publish snapshot =>
    if s.closed then none else some { s with channel := s.channel.send snapshot }
  | .close => if s.closed then none else some { s with closed := true }
  | .cancel => some { s with cancelled := true }
  | .forward => s.forward
  | .tellStop => if s.cancelled && !s.stopSent then some { s with stopSent := true } else none
  | .thread op => s.trayLoop op

end State

end MuxTray

end VcOperator
