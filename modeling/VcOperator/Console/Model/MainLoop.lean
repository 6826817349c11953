import VcOperator.Console.Model.Keys
/-!
# The main loop of the console

The loop of `run_app`, beside the watcher of the state root and the subscription
of the mux, which fill their channels at any time. A channel is emptied in one step, the one
that finds it empty. What a refresh or a key finds outside is an input of the
model, and so are the readings of the clock, which never goes back. The terminal
is left out: a frame is drawn of the console as it is.
-/

namespace VcOperator

namespace Console

open Board (Outside)

/-- Where the loop stands. -/
inductive LoopStage where
  /-- Before `terminal.draw`. -/
  | drawing
  /-- In `event::poll`, which waits so long. -/
  | polling (timeout : ℕ)
  /-- Before `watch_rx` is emptied. -/
  | watching
  /-- Before `sub.rx` is emptied. -/
  | subscribing (watchedChange : Bool)
  /-- Before these events are handled. -/
  | handling (events : ℕ) (watchedChange : Bool)
  /-- Before the last look at the clock. -/
  | ticking
  /-- The loop is left. -/
  | left (outcome : Except String Unit)

/-- The loop of `run_app`. -/
structure MainLoop where
  app : App
  lastTick : ℕ
  /-- The last reading of the clock. -/
  clock : ℕ
  stage : LoopStage
  /-- How many notifications `watch_rx` has. -/
  notifications : ℕ
  /-- How many events `sub.rx` has. -/
  events : ℕ

/-- The labels of the step function. -/
inductive LoopStep (τ : Type) where
  /-- The watcher has seen a change. -/
  | notify
  /-- An event of the mux has come. -/
  | publish
  /-- `terminal.draw`, and the time that is left until the next tick. -/
  | draw (clock : ℕ)
  /-- `event::poll`: a key, which is handled, or none in time. -/
  | poll (event : Option (World τ × KeyEvent))
  | watch
  | subscribe
  /-- `watched_change`: each event is handled, and then comes a refresh. -/
  | refresh (events : List (World τ)) (world : World τ) (clock : ℕ)
  /-- No `watched_change`. -/
  | unchanged
  /-- A tick has passed by this reading, and there is a refresh. -/
  | tick (check : ℕ) (world : World τ) (clock : ℕ)
  /-- It has not. -/
  | early (check : ℕ)

namespace MainLoop

variable {τ : Type} [LinearOrder τ] (out : Outside τ)

/-- The console before the first frame, with or without a watcher. -/
def start (world : World τ) (config : AppConfig) (watcher : Except String Unit) : App :=
  match watcher with
  | .ok () => App.new out world config
  | .error error => (App.new out world config).appendStatus ("watcher unavailable: " ++ error)

/-- Where the loop begins. -/
def init (world : World τ) (config : AppConfig) (watcher : Except String Unit) (clock : ℕ) :
    MainLoop where
  app := start out world config watcher
  lastTick := clock
  clock := clock
  stage := .drawing
  notifications := 0
  events := 0

/-- `last_tick.elapsed()`, by this reading. -/
def elapsed (s : MainLoop) (clock : ℕ) : ℕ := clock - s.lastTick

/-- What becomes of the loop when a key has been handled. -/
def afterKey (outcome : Except String Bool) : LoopStage :=
  match outcome with
  | .ok false => .watching
  | .ok true => .left (.ok ())
  | .error error => .left (.error error)

/-- **One step**, of the loop, of the watcher or of the subscription. -/
def step (tickRate : ℕ) (s : MainLoop) : LoopStep τ → Option MainLoop
  | .notify => some { s with notifications := s.notifications + 1 }
  | .publish => some { s with events := s.events + 1 }
  | .draw clock =>
    match s.stage with
    | .drawing =>
      if clock < s.clock then none
      else some { s with stage := .polling (tickRate - s.elapsed clock), clock := clock }
    | _ => none
  | .poll event =>
    match s.stage, event with
    | .polling _, some (world, key) =>
      let handled := s.app.handleKey out world key
      some { s with app := handled.app, stage := afterKey handled.outcome }
    | .polling _, none => some { s with stage := .watching }
    | _, _ => none
  | .watch =>
    match s.stage with
    | .watching =>
      some { s with stage := .subscribing (s.notifications != 0), notifications := 0 }
    | _ => none
  | .subscribe =>
    match s.stage with
    | .subscribing watchedChange =>
      some { s with stage := .handling s.events watchedChange, events := 0 }
    | _ => none
  | .refresh events world clock =>
    match s.stage with
    | .handling taken watchedChange =>
      if events.length = taken ∧ (taken ≠ 0 ∨ watchedChange = true) ∧ s.clock ≤ clock then
        some { s with
          app := (s.app.handleIpcEvents events).refresh out world
          lastTick := clock, clock := clock, stage := .ticking }
      else none
    | _ => none
  | .unchanged =>
    match s.stage with
    | .handling 0 false => some { s with stage := .ticking }
    | _ => none
  | .tick check world clock =>
    match s.stage with
    | .ticking =>
      if s.clock ≤ check ∧ tickRate ≤ s.elapsed check ∧ check ≤ clock then
        some { s with
          app := s.app.refresh out world, lastTick := clock, clock := clock, stage := .drawing }
      else none
    | _ => none
  | .early check =>
    match s.stage with
    | .ticking =>
      if s.clock ≤ check ∧ s.elapsed check < tickRate then
        some { s with clock := check, stage := .drawing }
      else none
    | _ => none

end MainLoop

end Console

end VcOperator
