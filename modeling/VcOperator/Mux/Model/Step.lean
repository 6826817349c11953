import VcOperator.Common.Run
import VcOperator.Json.Encode
import VcOperator.Mux.Model.Client
import VcOperator.Mux.Model.Router
import VcOperator.Mux.Model.Heartbeat
import VcOperator.Mux.Model.Manager
import Mathlib.Logic.Function.Basic
/-!
# One mux, step by step

`System` is the daemon of one service: what its tasks share, and for each
task the operations it has still to do. `step` takes one label. A task's
label runs the operation at the head of its list; the other labels are
what comes from outside, and the beginnings of turns (a frame read, a
tick, an event taken from a channel). A run is any sequence of labels,
so the tasks interleave in every order.

Every lock section needs the mutex, and no section but one outlives the
operation it is in. That one is the restart-limit branch of
`server_manager`; once `stateLocked` is set, no lock section of any task
is enabled.
-/

namespace VcOperator

namespace Mux

/-- The parameters of a mux. `floatLen` is the length a double prints at. -/
structure Config where
  floatLen : UInt64 → ℕ
  state : MuxStateConfig
  heartbeat : HeartbeatConfig
  manager : ManagerConfig

/-- The length of `serde_json::to_vec`. -/
def Config.encodedLen (cfg : Config) (msg : Value) : ℕ := msg.encodedLen cfg.floatLen

/-- A mux: its shared part, and what each task has still to do. -/
structure System where
  shared : Shared
  /-- The reader loop of a client's `handle_client` runs. -/
  readers : ℕ → Bool
  /-- The handlers, by client id. -/
  handlers : ℕ → List ClientOp
  /-- The occurrence a handler works on, or has worked on last. -/
  current : ℕ → Option Occ
  /-- The writer tasks, by client id, once a write has failed. -/
  writers : ℕ → List ClientOp
  router : List RouterOp
  reaper : List ReaperOp
  inspector : HeartbeatState
  heartbeat : List HeartbeatOp
  locals : ManagerLocals
  manager : List ManagerOp

/-- The labels of a mux. -/
inductive Label where
  /-- `handle_client` gets a permit and registers its client. -/
  | connect
  /-- A frame arrives from a client. -/
  | receive (client : ℕ) (msg : Value)
  /-- A client's reader loop ends: end of stream, or shutdown. -/
  | disconnect (client : ℕ)
  /-- It ends on a decode error, which leaves `handle_client` at once. -/
  | decodeError (client : ℕ)
  /-- The handshake check of the reader loop ticks. -/
  | handshakeTick (client : ℕ)
  /-- A client's writer task fails to write. -/
  | writerFails (client : ℕ)
  /-- A client's handler does its next operation. -/
  | handler (client : ℕ)
  | writer (client : ℕ)
  /-- The router takes its next event. -/
  | routerTurn
  | router (order : List String)
  | reaperTick
  | reaper (order : List String)
  /-- The interval of the inspector ticks. -/
  | heartbeatTick
  /-- The inspector takes an event of `heartbeat_rx`. -/
  | heartbeatEvent
  | heartbeat
  | manager (choice : Choice)
  /-- The newest child writes a message, or the reader of an older one
  still forwards one. -/
  | childOutput (incarnation : ℕ) (msg : Value)
  /-- A reader task ends: end of stdout, a decode error, or its abort. -/
  | readerEnds (incarnation : ℕ)
  | childExits (incarnation : ℕ)
  | shutdown
  /-- Time passes. -/
  | elapse (ms : ℕ)

namespace System

/-- The state of a mux at its start. -/
def init (cfg : Config) : System where
  shared :=
    let st := MuxState.new cfg.state
    { st := { st with
        heartbeatMetrics := { st.heartbeatMetrics with enabled := cfg.heartbeat.enabled } }
      now := 0
      shutdown := false
      stateLocked := false
      availablePermits := cfg.state.maxActiveClients
      published := []
      toServer := []
      toServerOpen := true
      serverEvents := []
      heartbeatRx := []
      restartRx := []
      children := []
      received := []
      sent := []
      put := []
      issued := []
      initEvents := [] }
  readers := fun _ => false
  handlers := fun _ => []
  current := fun _ => none
  writers := fun _ => []
  router := []
  reaper := []
  inspector := .new cfg.heartbeat
  heartbeat := []
  locals := ⟨0, cfg.manager.restartBackoff⟩
  manager := [.loopHead]

/-- A client's reader loop waits for its next frame. -/
def reading (s : System) (c : ℕ) : Bool := s.readers c && (s.handlers c).isEmpty

/-- A reader loop ends; its handler goes on with `ops`. -/
def endReader (s : System) (c : ℕ) (ops : List ClientOp) : System :=
  { s with
    readers := Function.update s.readers c false
    current := Function.update s.current c none
    handlers := Function.update s.handlers c ops }

/-- What `handle_client` does after its reader loop. -/
def farewell : List ClientOp := [.unregisterClient, .publishStatus, .releasePermit]

/-- `handle_client` registers its client. -/
def connect (s : System) : System :=
  let c := s.shared.st.nextClientId
  { s with
    shared := { s.shared with
      st := s.shared.st.registerClient s.shared.now
      availablePermits := s.shared.availablePermits - 1 }
    readers := Function.update s.readers c true
    handlers := Function.update s.handlers c [.publishStatus] }

/-- A frame is handed to `handle_client_message`. -/
def receive (s : System) (c : ℕ) (msg : Value) : System :=
  let tagged : Tagged Value := ⟨msg, c, s.shared.received.length⟩
  { s with
    shared := { s.shared with received := s.shared.received ++ [tagged] }
    current := Function.update s.current c (some tagged.occ)
    handlers := Function.update s.handlers c [.handleClientMessage tagged] }

/-- A field of one incarnation of the child changes. -/
def updateChild (s : System) (k : ℕ) (f : Child → Child) : System :=
  { s with shared := { s.shared with children := s.shared.children.modify k f } }

/-- The reader task of an incarnation runs. -/
def readerRuns (s : System) (k : ℕ) : Bool :=
  match s.shared.children[k]? with
  | some ch => ch.reading
  | none => false

@[simp] theorem connect_readers (s : System) :
    s.connect.readers = Function.update s.readers s.shared.st.nextClientId true := rfl

@[simp] theorem connect_handlers (s : System) :
    s.connect.handlers =
      Function.update s.handlers s.shared.st.nextClientId [.publishStatus] := rfl

@[simp] theorem endReader_readers (s : System) (c : ℕ) (ops : List ClientOp) :
    (s.endReader c ops).readers = Function.update s.readers c false := rfl

@[simp] theorem endReader_handlers (s : System) (c : ℕ) (ops : List ClientOp) :
    (s.endReader c ops).handlers = Function.update s.handlers c ops := rfl

/-- **One step of a mux.** -/
def step (cfg : Config) (s : System) : Label → Option System
  | .connect =>
    if s.shared.stateLocked || s.shared.availablePermits == 0 then none else some s.connect
  | .receive c msg => if s.reading c then some (s.receive c msg) else none
  | .disconnect c => if s.reading c then some (s.endReader c farewell) else none
  | .decodeError c => if s.reading c then some (s.endReader c [.releasePermit]) else none
  | .handshakeTick c =>
    if s.shared.stateLocked || !s.reading c then none
    else if s.shared.st.isHandshakeTimedOut s.shared.now c then
      some (s.endReader c (.rejectHandshakeTimeout :: farewell))
    else some s
  | .writerFails c =>
    if c < s.shared.st.nextClientId && (s.writers c).isEmpty then
      some { s with
        writers := Function.update s.writers c [.unregisterClient, .publishStatus] }
    else none
  | .handler c =>
    match s.handlers c with
    | [] => none
    | op :: rest =>
      if op.locks && s.shared.stateLocked then none
      else (op.run cfg.encodedLen c s.shared).map fun r =>
        { s with shared := r.1, handlers := Function.update s.handlers c (r.2 ++ rest) }
  | .writer c =>
    match s.writers c with
    | [] => none
    | op :: rest =>
      if op.locks && s.shared.stateLocked then none
      else (op.run cfg.encodedLen c s.shared).map fun r =>
        { s with shared := r.1, writers := Function.update s.writers c (r.2 ++ rest) }
  | .routerTurn =>
    match s.router, s.shared.serverEvents with
    | [], event :: rest =>
      let r := RouterOp.dispatch event { s.shared with serverEvents := rest }
      some { s with shared := r.1, router := r.2 }
    | _, _ => none
  | .router order =>
    match s.router with
    | [] => none
    | op :: rest =>
      if op.locks && s.shared.stateLocked then none
      else (op.run order s.shared).map fun r =>
        { s with shared := r.1, router := r.2 ++ rest }
  | .reaperTick => if s.reaper.isEmpty then some { s with reaper := [.readTimeout] } else none
  | .reaper order =>
    match s.reaper with
    | [] => none
    | op :: rest =>
      if s.shared.stateLocked then none
      else (op.run order s.shared).map fun r =>
        { s with shared := r.1, reaper := r.2 ++ rest }
  | .heartbeatTick =>
    if s.heartbeat.isEmpty && cfg.heartbeat.enabled then some { s with heartbeat := [.probe] }
    else none
  | .heartbeatEvent =>
    match s.heartbeat, s.shared.heartbeatRx with
    | [], id :: rest =>
      some { s with
        shared := { s.shared with heartbeatRx := rest }
        inspector := HeartbeatOp.handleEvent s.inspector id }
    | _, _ => none
  | .heartbeat =>
    match s.heartbeat with
    | [] => none
    | op :: rest =>
      if op.locks && s.shared.stateLocked then none
      else (op.run s.inspector s.shared).map fun r =>
        { s with inspector := r.1, shared := r.2.1, heartbeat := r.2.2 ++ rest }
  | .manager choice =>
    match s.manager with
    | [] => none
    | op :: rest =>
      if op.locks && s.shared.stateLocked then none
      else (op.run cfg.manager choice s.locals s.shared).map fun r =>
        { s with locals := r.1, shared := r.2.1, manager := r.2.2 ++ rest }
  | .childOutput k msg =>
    if s.readerRuns k then
      some { s with
        shared := { s.shared with serverEvents := s.shared.serverEvents ++ [.message msg] } }
    else none
  | .readerEnds k =>
    if s.readerRuns k then some (s.updateChild k fun ch => { ch with reading := false })
    else none
  | .childExits k => some (s.updateChild k fun ch => { ch with alive := false })
  | .shutdown => some { s with shared := { s.shared with shutdown := true } }
  | .elapse ms => some { s with shared := { s.shared with now := s.shared.now + ms } }

end System

/-- The states the runs of a mux reach, when every step of the run meets
`ok` at the state it is taken from. -/
abbrev Reachable (cfg : Config) (ok : System → Label → Prop) : System → Prop :=
  Run.Reach (System.step cfg) ok (System.init cfg)

/-! ## A small mux -/

/-- A mux for four clients, with its child started at once. -/
def Config.small : Config where
  floatLen := fun _ => 0
  state :=
    { maxActiveClients := 4
      serviceName := "small"
      maxRequestBytes := 1048576
      requestTimeout := 30000
      restartBackoff := 1000
      restartBackoffMax := 30000
      maxRestarts := 5
      queueDepth := 0
      childPid := none }
  heartbeat := { interval := 30000, timeout := 30000, maxFailures := 3, enabled := true }
  manager :=
    { lazyStart := false, restartBackoff := 1000, restartBackoffMax := 30000, maxRestarts := 5 }

/-- The manager starts its child and waits at its `select!`. -/
def startRun : List Label :=
  [.manager .go, .manager .go, .manager (.spawned 1), .manager .go, .manager .go, .manager .go,
    .manager .go]

/-- A client connects and completes its handshake. -/
def handshakeRun : List Label :=
  [.connect, .handler 1, .receive 1 (.object [("method", .string "notifications/initialized")]),
    .handler 1, .handler 1, .handler 1, .handler 1, .handler 1, .handler 1, .handler 1]

namespace Config.small

/-- The labels are enabled one after another, from the start. -/
def runs (ls : List Label) : Bool :=
  (Run.exec (System.step .small) (System.init .small) ls).isSome

/-- The state they lead to. -/
@[irreducible] def after (ls : List Label) : System :=
  (Run.exec (System.step .small) (System.init .small) ls).getD (System.init .small)

theorem exec_eq_after {ls : List Label} (h : runs ls = true) :
    Run.exec (System.step .small) (System.init .small) ls = some (after ls) := by
  obtain ⟨s, hs⟩ := Option.isSome_iff_exists.1 h
  rw [after, hs, Option.getD_some]

theorem reachable_after {ls : List Label} (h : runs ls = true) :
    Reachable .small Run.Any (after ls) :=
  Run.reach_of_exec (exec_eq_after h) .init

/-- They are reached under any condition each of them meets. -/
theorem reachable_of_meets (ok : System → Label → Bool) {ls : List Label}
    (h : runs ls = true) (hok : Run.meets (System.step .small) ok (System.init .small) ls = true) :
    Reachable .small (fun s l => ok s l = true) (after ls) :=
  Run.reach_of_meets hok .init (exec_eq_after h)

/-- More labels lead on from the state that some of them lead to. -/
theorem exec_after {ls ms : List Label} (h : runs ls = true) (h' : runs (ls ++ ms) = true) :
    Run.exec (System.step .small) (after ls) ms = some (after (ls ++ ms)) := by
  have hexec := exec_eq_after h'
  rwa [Run.exec_append, exec_eq_after h, Option.bind_some] at hexec

theorem reach_after {ls ms : List Label} (h : runs ls = true) (h' : runs (ls ++ ms) = true) :
    Run.Reach (System.step .small) Run.Any (after ls) (after (ls ++ ms)) :=
  Run.reach_of_exec (exec_after h h') .init

/-- The last of the labels is a step from the state before it. -/
theorem step_after {ls : List Label} {l : Label} (h : runs ls = true)
    (h' : runs (ls ++ [l]) = true) :
    (after ls).step .small l = some (after (ls ++ [l])) := by
  have hexec := exec_after h h'
  rw [Run.exec] at hexec
  split at hexec
  · rename_i s hs
    rw [hs]
    exact hexec
  · cases hexec

section Tracked

variable {η : Type} (note : η → System → Label → η) (h₀ : η)

/-- The labels are enabled one after another, in the runs that keep a history. -/
def tracks (ls : List Label) : Bool :=
  (Run.exec (Run.track (System.step .small) note) (System.init .small, h₀) ls).isSome

/-- The state and the history they lead to. -/
@[irreducible] def tracked (ls : List Label) : System × η :=
  (Run.exec (Run.track (System.step .small) note) (System.init .small, h₀) ls).getD
    (System.init .small, h₀)

variable {note h₀}

theorem reachable_tracked (ok : System × η → Label → Bool) {ls : List Label}
    (h : tracks note h₀ ls = true)
    (hok : Run.meets (Run.track (System.step .small) note) ok (System.init .small, h₀) ls = true) :
    Run.Reach (Run.track (System.step .small) note) (fun p l => ok p l = true)
      (System.init .small, h₀) (tracked note h₀ ls) := by
  obtain ⟨p, hp⟩ := Option.isSome_iff_exists.1 h
  rw [tracked, hp, Option.getD_some]
  exact Run.reach_of_meets hok .init hp

end Tracked

end Config.small

end Mux

end VcOperator
