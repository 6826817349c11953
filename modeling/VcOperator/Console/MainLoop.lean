import VcOperator.Common.Run
import VcOperator.Console.Editor
import VcOperator.Console.Model.MainLoop
/-!
# What the console draws

A frame is drawn of a console that shows one reading of the files: the runs
are those that this reading, the scope and the search give, and the mux summaries and the
intents are what was found with them. `App.Redrawn` is what a key does about it.
In a run of the main loop `MainLoop.Inv` says which reading the console shows:
one that is behind the signals only while one of them is still to be handled.
-/

namespace VcOperator

namespace Console

open Board (Outside)

/-! ## What is shown -/

namespace App

section

variable {τ : Type} {world : World τ} {app app' : App}

/-- What the main view depends on. -/
def board (app : App) :
    List Board.RenderedRun × QueueScope × String × List MuxSummary × List PolarizeIntent :=
  (app.runs, app.queueScope, app.searchQuery, app.muxSummaries, app.polarizeIntents)

theorem board_syncSelection : app.syncSelection.board = app.board := by
  unfold syncSelection
  dsimp only
  split_ifs <;> rfl

theorem runs_syncSelection : app.syncSelection.runs = app.runs :=
  congrArg (·.1) board_syncSelection

theorem queueScope_syncSelection : app.syncSelection.queueScope = app.queueScope :=
  congrArg (·.2.1) board_syncSelection

theorem searchQuery_syncSelection : app.syncSelection.searchQuery = app.searchQuery :=
  congrArg (·.2.2.1) board_syncSelection

theorem board_moveSelection (delta : ℤ) : (app.moveSelection delta).board = app.board := by
  unfold moveSelection
  split_ifs <;> rfl

theorem board_moveDeepSelection (delta : ℤ) :
    (app.moveDeepSelection delta).board = app.board := by
  unfold moveDeepSelection
  split_ifs <;> rfl

theorem board_adjustDispatchSelection (delta : ℤ) :
    (app.adjustDispatchSelection delta).board = app.board := by
  unfold adjustDispatchSelection
  split <;> rfl

theorem board_editPromptKey (key : KeyEvent) : (app.editPromptKey key).board = app.board := by
  unfold editPromptKey
  split
  · rfl
  · rfl
  · rfl
  · rfl
  · split_ifs <;> rfl
  · rfl

theorem board_errorKey (key : KeyEvent) : (app.errorKey key).app.board = app.board := by
  unfold errorKey
  split_ifs <;> rfl

theorem board_artifactKey (key : KeyEvent) : (app.artifactKey key).board = app.board := by
  unfold artifactKey
  split <;> rfl

theorem board_helpKey (key : KeyEvent) : (app.helpKey key).board = app.board := by
  unfold helpKey
  split <;> rfl

theorem board_copySelectedRunToClipboard :
    (app.copySelectedRunToClipboard world).app.board = app.board := by
  unfold copySelectedRunToClipboard
  split
  · rfl
  · dsimp only
    split <;> rfl

theorem board_openArtifact (title : String) (path : OsString) :
    (app.openArtifact world title path).board = app.board := by
  unfold openArtifact
  dsimp only
  split <;> rfl

theorem board_openPolarizeIntent (intent : PolarizeIntent) :
    (app.openPolarizeIntent world intent).board = app.board := by
  unfold openPolarizeIntent
  dsimp only
  split <;> rfl

variable [LinearOrder τ] {out : Outside τ}

/-- The console shows what was read at one time. -/
structure Shows (out : Outside τ) (world : World τ) (app : App) : Prop where
  runs : app.runs = applyRunFilters (renderedRuns out world) app.queueScope app.searchQuery
  summaries : app.muxSummaries = world.currentSummaries
  intents : app.polarizeIntents = world.currentIntents

theorem shows_iff_board : app.Shows out world ↔ app.board =
    (applyRunFilters (renderedRuns out world) app.queueScope app.searchQuery, app.queueScope,
      app.searchQuery, world.currentSummaries, world.currentIntents) := by
  simp only [board, Prod.mk.injEq, true_and]
  exact ⟨fun h => ⟨h.runs, h.summaries, h.intents⟩, fun ⟨hr, hs, hi⟩ => ⟨hr, hs, hi⟩⟩

theorem Shows.of_board (h : app.Shows out world) (hboard : app'.board = app.board) :
    app'.Shows out world := by
  have hscope : app'.queueScope = app.queueScope := congrArg (·.2.1) hboard
  have hquery : app'.searchQuery = app.searchQuery := congrArg (·.2.2.1) hboard
  rw [shows_iff_board, hboard, hscope, hquery]
  exact shows_iff_board.1 h

/-- A status line hides nothing. -/
theorem Shows.appendStatus (h : app.Shows out world) (status : String) :
    (app.appendStatus status).Shows out world := h.of_board rfl

/-- **A refresh shows what it reads.** -/
theorem shows_refresh : (app.refresh out world).Shows out world := by
  refine ⟨?_, rfl, rfl⟩
  simp only [refresh, refreshPolarize, refreshMux, runs_syncSelection, queueScope_syncSelection,
    searchQuery_syncSelection]

theorem shows_new (config : AppConfig) : (App.new out world config).Shows out world := by
  unfold App.new
  refine ⟨?_, rfl, rfl⟩
  simp only [refreshPolarize, refreshMux, runs_syncSelection, queueScope_syncSelection,
    searchQuery_syncSelection]

/-! ## What a key does about it -/

/-- Either what the console shows is as it was, or it is what was read meanwhile. -/
def Redrawn (out : Outside τ) (world : World τ) (app app' : App) : Prop :=
  app'.board = app.board ∨ app'.Shows out world

theorem Redrawn.shows {earlier : World τ} (h : Redrawn out world app app')
    (hshows : app.Shows out earlier) : app'.Shows out earlier ∨ app'.Shows out world :=
  h.imp_left hshows.of_board

theorem Redrawn.same (h : app'.board = app.board) : Redrawn out world app app' := .inl h

theorem redrawn_refresh : Redrawn out world app (app'.refresh out world) := .inr shows_refresh

theorem Redrawn.appendStatus (h : Redrawn out world app app') (status : String) :
    Redrawn out world app (app'.appendStatus status) :=
  h.imp_right fun hshows => hshows.appendStatus status

theorem redrawn_clearSearch : Redrawn out world app (app.clearSearch out world) := by
  unfold clearSearch
  split_ifs
  · exact .same rfl
  · exact redrawn_refresh.appendStatus _

theorem redrawn_toggleFilter : Redrawn out world app (app.toggleFilter out world) :=
  redrawn_refresh.appendStatus _

theorem redrawn_setSearchQuery (query : String) :
    Redrawn out world app (app.setSearchQuery out world query) := redrawn_refresh

theorem redrawn_searchKey (key : KeyEvent) :
    Redrawn out world app (app.searchKey out world key) := by
  unfold searchKey
  split
  · exact .same rfl
  · exact .same rfl
  · exact redrawn_setSearchQuery _
  · split_ifs
    · exact .same rfl
    · exact redrawn_setSearchQuery _
  · exact .same rfl

theorem redrawn_archiveSelectedRun :
    Redrawn out world app (app.archiveSelectedRun out world).app := by
  unfold archiveSelectedRun
  split
  · exact .same rfl
  · dsimp only
    split
    · exact .same rfl
    · split
      · exact .same rfl
      · exact redrawn_refresh.appendStatus _

theorem redrawn_launchVerified : Redrawn out world app (app.launchVerified out world).app := by
  unfold launchVerified
  dsimp only
  split_ifs
  · exact redrawn_refresh
  · exact redrawn_refresh

theorem redrawn_launchSelected : Redrawn out world app (app.launchSelected out world).app := by
  unfold launchSelected
  dsimp only
  split
  · split
    · exact .same rfl
    · exact redrawn_launchVerified
  · exact redrawn_launchVerified

theorem redrawn_runSelectedDeepControl :
    Redrawn out world app (app.runSelectedDeepControl out world).app := by
  unfold runSelectedDeepControl
  split
  · exact .same rfl
  · exact .same (board_openArtifact _ _)
  · exact .same (board_openArtifact _ _)
  · exact .same (board_openArtifact _ _)
  · exact .same (board_openPolarizeIntent _)
  · split
    · exact redrawn_refresh
    · exact .same rfl

theorem redrawn_browse (key : BrowseKey) :
    Redrawn out world app (app.browse out world key).app := by
  cases key with
  | up | down =>
    unfold browse
    dsimp only [Handled.within]
    split
    · exact .same (board_moveSelection _)
    · exact .same rfl
    · exact .same (board_moveDeepSelection _)
  | left | right =>
    unfold browse
    dsimp only [Handled.within]
    split
    · exact .same rfl
    · exact .same (board_adjustDispatchSelection _)
    · exact .same (board_moveSelection _)
  | clearSearch => exact redrawn_clearSearch
  | filter => exact redrawn_toggleFilter
  | archive => exact redrawn_archiveSelectedRun
  | copy => exact .same board_copySelectedRunToClipboard
  | refresh => exact redrawn_refresh
  | enter =>
    unfold browse
    dsimp only
    split
    · dsimp only [Handled.within]
      split_ifs <;> exact .same rfl
    · split_ifs
      · exact .same rfl
      · exact redrawn_launchSelected
    · exact redrawn_runSelectedDeepControl
  | quit | help | nextTab | previousTab | launchKind | agent | runtime | search | edit | controls
    | other => exact .same rfl

/-- **What a key does about what is shown**: nothing, or it shows what it finds. -/
theorem redrawn_handleKey (key : KeyEvent) :
    Redrawn out world app (app.handleKey out world key).app := by
  unfold handleKey
  split_ifs
  · exact .same rfl
  · split
    · exact .same (board_editPromptKey key)
    · exact redrawn_searchKey key
    · exact .same (board_errorKey key)
    · exact .same (board_artifactKey key)
    · exact redrawn_browse (browseKey key)
    · exact .same (board_helpKey key)

end

end App

/-! ## What a step of the loop does -/

namespace MainLoop

variable {τ : Type} [LinearOrder τ] {out : Outside τ} {tickRate : ℕ} {s s' : MainLoop}

/-- The steps of the loop, each from the stage it is taken at. -/
inductive Moved (out : Outside τ) (tickRate : ℕ) (s : MainLoop) : LoopStep τ → MainLoop → Prop
  | notify : Moved out tickRate s .notify { s with notifications := s.notifications + 1 }
  | publish : Moved out tickRate s .publish { s with events := s.events + 1 }
  | draw {clock : ℕ} : s.stage = .drawing → s.clock ≤ clock → Moved out tickRate s (.draw clock)
      { s with stage := .polling (tickRate - s.elapsed clock), clock := clock }
  | key {timeout : ℕ} (world : World τ) (key : KeyEvent) : s.stage = .polling timeout →
      Moved out tickRate s (.poll (some (world, key)))
        { s with
          app := (s.app.handleKey out world key).app
          stage := afterKey (s.app.handleKey out world key).outcome }
  | noKey {timeout : ℕ} : s.stage = .polling timeout →
      Moved out tickRate s (.poll none) { s with stage := .watching }
  | watch : s.stage = .watching → Moved out tickRate s .watch
      { s with stage := .subscribing (s.notifications != 0), notifications := 0 }
  | subscribe {watchedChange : Bool} : s.stage = .subscribing watchedChange →
      Moved out tickRate s .subscribe
        { s with stage := .handling s.events watchedChange, events := 0 }
  | refresh {taken clock : ℕ} {watchedChange : Bool} (events : List (World τ)) (world : World τ) :
      s.stage = .handling taken watchedChange → s.clock ≤ clock →
      Moved out tickRate s (.refresh events world clock)
        { s with
          app := (s.app.handleIpcEvents events).refresh out world
          lastTick := clock, clock := clock, stage := .ticking }
  | unchanged : s.stage = .handling 0 false →
      Moved out tickRate s .unchanged { s with stage := .ticking }
  | tick {check clock : ℕ} (world : World τ) : s.stage = .ticking → s.clock ≤ clock →
      Moved out tickRate s (.tick check world clock)
        { s with
          app := s.app.refresh out world, lastTick := clock, clock := clock, stage := .drawing }
  | early {check : ℕ} : s.stage = .ticking → s.clock ≤ check → s.elapsed check < tickRate →
      Moved out tickRate s (.early check) { s with clock := check, stage := .drawing }

theorem moved_of_step {l : LoopStep τ} (h : step out tickRate s l = some s') :
    Moved out tickRate s l s' := by
  cases l with
  | notify =>
    cases h
    exact .notify
  | publish =>
    cases h
    exact .publish
  | draw clock =>
    rw [step] at h
    split at h
    · rename_i hstage
      split_ifs at h with hclock
      cases h
      exact .draw hstage (Nat.le_of_not_lt hclock)
    · cases h
  | poll event =>
    dsimp only [step] at h
    split at h
    · rename_i hstage
      obtain rfl := Option.some.inj h
      exact .key _ _ hstage
    · rename_i hstage
      cases h
      exact .noKey hstage
    · cases h
  | watch =>
    rw [step] at h
    split at h
    · rename_i hstage
      cases h
      exact .watch hstage
    · cases h
  | subscribe =>
    rw [step] at h
    split at h
    · rename_i hstage
      cases h
      exact .subscribe hstage
    · cases h
  | refresh events world clock =>
    rw [step] at h
    split at h
    · rename_i hstage
      split_ifs at h with hok
      obtain rfl := Option.some.inj h
      exact .refresh events world hstage hok.2.2
    · cases h
  | unchanged =>
    rw [step] at h
    split at h
    · rename_i hstage
      cases h
      exact .unchanged hstage
    · cases h
  | tick check world clock =>
    rw [step] at h
    split at h
    · rename_i hstage
      split_ifs at h with hok
      obtain rfl := Option.some.inj h
      exact .tick world hstage (Nat.le_trans hok.1 hok.2.2)
    · cases h
  | early check =>
    rw [step] at h
    split at h
    · rename_i hstage
      split_ifs at h with hok
      cases h
      exact .early hstage hok.1 hok.2
    · cases h

/-- **What the loop does to the console** is a turn, or nothing. -/
theorem Moved.turn {l : LoopStep τ} (h : Moved out tickRate s l s') :
    s'.app = s.app ∨ ∃ turn, s.app.turn out turn = some s'.app := by
  cases h with
  | notify | publish | draw | noKey | watch | subscribe | unchanged | early => exact .inl rfl
  | key world key => exact .inr ⟨.key world key, rfl⟩
  | refresh events world => exact .inr ⟨.refresh events world, rfl⟩
  | tick world => exact .inr ⟨.refresh [] world, rfl⟩

/-! ## By the clock -/

/-- What the readings of the clock say of the loop. A frame is drawn before the next tick, and
`event::poll` waits until then. -/
structure Timely (tickRate : ℕ) (s : MainLoop) : Prop where
  ticked : s.lastTick ≤ s.clock
  drawing : s.stage = .drawing → s.clock < s.lastTick + tickRate
  polling : ∀ timeout, s.stage = .polling timeout →
    s.clock + timeout = max s.clock (s.lastTick + tickRate)

theorem afterKey_ne (outcome : Except String Bool) :
    afterKey outcome ≠ .drawing ∧ ∀ timeout, afterKey outcome ≠ .polling timeout := by
  unfold afterKey
  split <;> simp

theorem Timely.moved (h : s.Timely tickRate) (hpos : 0 < tickRate) {l : LoopStep τ}
    (hmoved : Moved out tickRate s l s') : s'.Timely tickRate := by
  cases hmoved with
  | notify | publish => exact ⟨h.ticked, h.drawing, h.polling⟩
  | draw _ hclock =>
    refine ⟨Nat.le_trans h.ticked hclock, nofun, fun timeout heq => ?_⟩
    obtain rfl := LoopStage.polling.inj heq
    have := h.ticked
    simp only [elapsed]
    omega
  | key world key =>
    refine ⟨h.ticked, fun heq => ?_, fun timeout heq => ?_⟩
    · exact absurd heq (afterKey_ne _).1
    · exact absurd heq ((afterKey_ne _).2 timeout)
  | noKey | watch | subscribe | unchanged => exact ⟨h.ticked, nofun, nofun⟩
  | refresh => exact ⟨Nat.le_refl _, nofun, nofun⟩
  | tick => exact ⟨Nat.le_refl _, fun _ => Nat.lt_add_of_pos_right hpos, nofun⟩
  | early _ hcheck hearly =>
    refine ⟨Nat.le_trans h.ticked hcheck, fun _ => ?_, nofun⟩
    have := h.ticked
    simp only [elapsed] at hearly ⊢
    omega

/-! ## The history of a run -/

/-- What was found outside, by a refresh or for a key, and how many signals had come before. -/
structure Reading (τ : Type) where
  world : World τ
  signals : ℕ

/-- A frame, and how many signals had come when it was drawn. -/
structure Frame where
  app : App
  signals : ℕ

/-- The signals of the watcher and of the mux, what was found, and what was drawn. -/
structure History (τ : Type) where
  signals : ℕ
  readings : List (Reading τ)
  frames : List Frame

/-- What was found now. -/
def History.read (h : History τ) (world : World τ) : History τ :=
  { h with readings := h.readings ++ [⟨world, h.signals⟩] }

/-- The history after a step. -/
def note (h : History τ) (s : MainLoop) : LoopStep τ → History τ
  | .notify | .publish => { h with signals := h.signals + 1 }
  | .draw _ => { h with frames := h.frames ++ [⟨s.app, h.signals⟩] }
  | .poll (some (world, _)) => h.read world
  | .refresh _ world _ => h.read world
  | .tick _ world _ => h.read world
  | .poll none | .watch | .subscribe | .unchanged | .early _ => h

/-- A signal is still to be handled. -/
def waiting (s : MainLoop) : Bool :=
  s.notifications != 0 || s.events != 0 || match s.stage with
    | .subscribing watchedChange => watchedChange
    | .handling taken watchedChange => taken != 0 || watchedChange
    | _ => false

/-- What the console shows may be behind the last frame: the signals that came before that are
looked at before the next one, or it has been found that there were some. -/
def mayLag (s : MainLoop) : Bool :=
  match s.stage with
  | .drawing | .ticking => false
  | .subscribing watchedChange => watchedChange || s.events != 0
  | .handling taken watchedChange => taken != 0 || watchedChange
  | .polling _ | .watching | .left _ => true

/-- A reading that the console shows, and what it is behind of. -/
structure Current (out : Outside τ) (s : MainLoop) (h : History τ) (reading : Reading τ) :
    Prop where
  shows : s.app.Shows out reading.world
  come : reading.signals ≤ h.signals
  upToDate : h.signals ≤ reading.signals ∨ s.waiting = true
  covers : s.mayLag = true ∨ ∀ frame ∈ h.frames, frame.signals ≤ reading.signals

/-- What a frame shows was read after all signals that came before the frames before it. -/
def Drawn (out : Outside τ) (h : History τ) : Prop :=
  ∀ earlier frame later, h.frames = earlier ++ frame :: later →
    ∃ reading ∈ h.readings, frame.app.Shows out reading.world ∧
      reading.signals ≤ frame.signals ∧ ∀ f ∈ earlier, f.signals ≤ reading.signals

/-- **Which reading the console shows**, and the frames so far. -/
structure Inv (out : Outside τ) (s : MainLoop) (h : History τ) : Prop where
  current : ∃ reading ∈ h.readings, Current out s h reading
  frames : ∀ frame ∈ h.frames, frame.signals ≤ h.signals
  drawn : Drawn out h

variable {h : History τ} {world : World τ}

theorem Drawn.mono {h' : History τ} (hdrawn : Drawn out h) (hframes : h'.frames = h.frames)
    (hreadings : ∀ reading ∈ h.readings, reading ∈ h'.readings) : Drawn out h' := by
  intro earlier frame later heq
  obtain ⟨reading, hmem, hshows⟩ := hdrawn earlier frame later (hframes ▸ heq)
  exact ⟨reading, hreadings reading hmem, hshows⟩

theorem Drawn.read (hdrawn : Drawn out h) : Drawn out (h.read world) :=
  hdrawn.mono rfl fun _ => List.mem_append_left _

/-- What was read just now is behind of nothing. -/
theorem Inv.read (hinv : Inv out s h) (hshows : s'.app.Shows out world) :
    Inv out s' (h.read world) := by
  refine ⟨⟨⟨world, h.signals⟩, ?_, hshows, Nat.le_refl _, .inl (Nat.le_refl _), .inr hinv.frames⟩,
    hinv.frames, hinv.drawn.read⟩
  exact List.mem_append_right _ (List.mem_singleton_self _)

/-- A new signal is waiting. -/
theorem Inv.signal (hinv : Inv out s h) (hwaiting : s'.waiting = true) (happ : s'.app = s.app)
    (hlag : s.mayLag = true → s'.mayLag = true) :
    Inv out s' { h with signals := h.signals + 1 } := by
  obtain ⟨reading, hmem, hcurrent⟩ := hinv.current
  refine ⟨⟨reading, hmem, happ ▸ hcurrent.shows, ?_, .inr hwaiting, hcurrent.covers.imp_left hlag⟩,
    fun frame hframe => ?_, hinv.drawn.mono rfl fun _ => id⟩
  · exact Nat.le_succ_of_le hcurrent.come
  · exact Nat.le_succ_of_le (hinv.frames frame hframe)

/-- Where nothing is read, drawn or signalled, what is waiting goes on waiting. -/
theorem Inv.same (hinv : Inv out s h) (happ : s'.app = s.app)
    (hwaiting : s.waiting = true → s'.waiting = true)
    (hlag : s.mayLag = true → s'.mayLag = true ∨ s.waiting = false) : Inv out s' h := by
  obtain ⟨reading, hmem, hcurrent⟩ := hinv.current
  refine ⟨⟨reading, hmem, happ ▸ hcurrent.shows, hcurrent.come,
    hcurrent.upToDate.imp_right hwaiting, ?_⟩, hinv.frames, hinv.drawn⟩
  rcases hcurrent.covers with hlags | hcovers
  · rcases hlag hlags with hlag | hnone
    · exact .inl hlag
    · rcases hcurrent.upToDate with hle | hwaits
      · exact .inr fun frame hframe => Nat.le_trans (hinv.frames frame hframe) hle
      · rw [hnone] at hwaits
        cases hwaits
  · exact .inr hcovers

/-- A frame that is drawn shows the reading that covers the frames before it. -/
theorem Drawn.draw {reading : Reading τ} {app : App} (hdrawn : Drawn out h)
    (hmem : reading ∈ h.readings) (hshows : app.Shows out reading.world)
    (hcome : reading.signals ≤ h.signals)
    (hcovers : ∀ frame ∈ h.frames, frame.signals ≤ reading.signals) :
    Drawn out { h with frames := h.frames ++ [⟨app, h.signals⟩] } := by
  intro earlier frame later heq
  rcases List.eq_nil_or_concat later with rfl | ⟨later, last, rfl⟩
  · obtain ⟨rfl, hlast⟩ := List.append_inj' heq rfl
    obtain rfl := List.singleton_inj.1 hlast
    exact ⟨reading, hmem, hshows, hcome, hcovers⟩
  · have hinit : h.frames ++ [⟨app, h.signals⟩] = (earlier ++ frame :: later) ++ [last] := by
      simpa using heq
    exact hdrawn earlier frame later (List.append_inj' hinit rfl).1

theorem Inv.draw {timeout clock : ℕ} (hinv : Inv out s h) (hstage : s.stage = .drawing) :
    Inv out { s with stage := .polling timeout, clock := clock }
      { h with frames := h.frames ++ [⟨s.app, h.signals⟩] } := by
  obtain ⟨reading, hmem, hcurrent⟩ := hinv.current
  have hcovers : ∀ frame ∈ h.frames, frame.signals ≤ reading.signals := by
    refine hcurrent.covers.resolve_left ?_
    simp [mayLag, hstage]
  refine ⟨⟨reading, hmem, hcurrent.shows, hcurrent.come, ?_, .inl rfl⟩, ?_,
    hinv.drawn.draw hmem hcurrent.shows hcurrent.come hcovers⟩
  · simpa [waiting, hstage] using hcurrent.upToDate
  · intro frame hframe
    rcases List.mem_append.1 hframe with hframe | hframe
    · exact hinv.frames frame hframe
    · obtain rfl := List.mem_singleton.1 hframe
      exact Nat.le_refl _

theorem waiting_afterKey {outcome : Except String Bool} {app : App} {timeout : ℕ}
    (hstage : s.stage = .polling timeout) :
    MainLoop.waiting { s with app := app, stage := afterKey outcome } = s.waiting ∧
      MainLoop.mayLag { s with app := app, stage := afterKey outcome } = true := by
  unfold afterKey
  split <;> simp [waiting, mayLag, hstage]

/-- A key leaves what the console shows, or it shows what it has found. -/
theorem Inv.key {timeout : ℕ} (hinv : Inv out s h) (hstage : s.stage = .polling timeout)
    (key : KeyEvent) : Inv out
      { s with
        app := (s.app.handleKey out world key).app
        stage := afterKey (s.app.handleKey out world key).outcome } (h.read world) := by
  obtain ⟨reading, hmem, hcurrent⟩ := hinv.current
  have hafter := @waiting_afterKey s (s.app.handleKey out world key).outcome
    (s.app.handleKey out world key).app _ hstage
  rcases (App.redrawn_handleKey key).shows hcurrent.shows with hshows | hshows
  · refine ⟨⟨reading, List.mem_append_left _ hmem, hshows, hcurrent.come, ?_, .inl hafter.2⟩,
      hinv.frames, hinv.drawn.read⟩
    rw [hafter.1]
    exact hcurrent.upToDate
  · exact hinv.read hshows

/-- **No step of the loop loses a signal.** -/
theorem Inv.moved {l : LoopStep τ} (hinv : Inv out s h) (hmoved : Moved out tickRate s l s') :
    Inv out s' (note h s l) := by
  cases hmoved with
  | notify => exact hinv.signal (by simp [waiting]) rfl id
  | publish =>
    refine hinv.signal (by simp [waiting]) rfl fun hlag => ?_
    unfold mayLag at hlag ⊢
    split at hlag <;> simp_all
  | draw hstage _ => exact hinv.draw hstage
  | key world key hstage => exact hinv.key hstage key
  | noKey hstage => exact hinv.same rfl (by simp [waiting, hstage]) fun _ => .inl rfl
  | watch hstage =>
    refine hinv.same rfl (by simp +contextual [waiting, hstage, or_comm]) fun _ => ?_
    simp only [mayLag, waiting, hstage, Bool.or_false]
    exact Bool.eq_false_or_eq_true _
  | subscribe hstage =>
    refine hinv.same rfl (by simp [waiting, hstage, or_assoc]) fun hlag => .inl ?_
    simpa [mayLag, hstage, or_comm] using hlag
  | refresh events world _ _ => exact hinv.read App.shows_refresh
  | unchanged hstage =>
    exact hinv.same rfl (by simp [waiting, hstage]) fun hlag => by simp [mayLag, hstage] at hlag
  | tick world _ _ => exact hinv.read App.shows_refresh
  | early hstage _ _ =>
    exact hinv.same rfl (by simp [waiting, hstage]) fun hlag => by simp [mayLag, hstage] at hlag

theorem shows_start (config : AppConfig) (watcher : Except String Unit) :
    (start out world config watcher).Shows out world := by
  cases watcher with
  | ok => exact App.shows_new config
  | error error => exact (App.shows_new config).appendStatus _

/-- The history before the first frame: the console has been loaded. -/
def History.init (world : World τ) : History τ := ⟨0, [⟨world, 0⟩], []⟩

theorem inv_init (config : AppConfig) (watcher : Except String Unit) (clock : ℕ) :
    Inv out (init out world config watcher clock) (.init world) where
  current := ⟨⟨world, 0⟩, List.mem_singleton_self _, shows_start config watcher, Nat.le_refl _,
    .inl (Nat.le_refl _), .inr (List.forall_mem_nil _)⟩
  frames := List.forall_mem_nil _
  drawn _ _ _ heq :=
    absurd heq.symm (List.append_ne_nil_of_right_ne_nil _ (List.cons_ne_nil _ _))

/-! ## A run -/

/-- What a run of the main loop has done. -/
structure Follows (out : Outside τ) (tickRate : ℕ) (first : App) (s : MainLoop) (h : History τ) :
    Prop where
  /-- The console is where a run of its turns leads to. -/
  turns : Run.Reach (App.turn out) Run.Any first s.app
  /-- It shows one reading, and what has been signalled since then is still to be handled. -/
  current : ∃ reading ∈ h.readings, s.app.Shows out reading.world ∧
    (h.signals ≤ reading.signals ∨ s.waiting = true)
  /-- A frame shows one reading, after all signals that came before the frames before it. -/
  drawn : Drawn out h
  /-- And the loop has looked at the clock, and waits until the next tick at most. -/
  timely : s.Timely tickRate

theorem timely_init {config : AppConfig} {watcher : Except String Unit} {clock : ℕ}
    (hpos : 0 < tickRate) : (init out world config watcher clock).Timely tickRate :=
  ⟨Nat.le_refl _, fun _ => Nat.lt_add_of_pos_right hpos, nofun⟩

/-- A step of the loop is a turn of the console, or none. -/
theorem reach_moved {first : App} {l : LoopStep τ}
    (hreach : Run.Reach (App.turn out) Run.Any first s.app) (h : Moved out tickRate s l s') :
    Run.Reach (App.turn out) Run.Any first s'.app := by
  rcases h.turn with heq | ⟨turn, hturn⟩
  · rw [heq]
    exact hreach
  · exact .step hreach trivial hturn

/-- **The main loop loses no signal and no tick.** In every run a frame shows one reading, which
came after all signals before the frames before it; the console is behind the signals only while
one of them waits; and no frame is drawn where a tick has passed since the last refresh. -/
theorem mainLoop_follows {ok : MainLoop × History τ → LoopStep τ → Prop} {found : World τ}
    {config : AppConfig} {watcher : Except String Unit} {clock : ℕ} (hpos : 0 < tickRate)
    (hreach : Run.Reach (Run.track (step out tickRate) note) ok
      (init out found config watcher clock, .init found) (s, h)) :
    s.Follows out tickRate (start out found config watcher) h := by
  have hturns : Run.Reach (App.turn out) Run.Any (start out found config watcher) s.app := by
    refine hreach.untrack.invariant
      (I := fun s => Run.Reach (App.turn out) Run.Any (start out found config watcher) s.app)
      .init ?_
    exact fun _ _ _ _ hturns hstep => reach_moved hturns (moved_of_step hstep)
  have htimely : s.Timely tickRate := by
    refine hreach.untrack.invariant (I := Timely tickRate) (timely_init hpos) ?_
    exact fun _ _ _ _ htimely hstep => htimely.moved hpos (moved_of_step hstep)
  have hinv : Inv out s h := by
    refine hreach.invariant (I := fun q => Inv out q.1 q.2) (inv_init config watcher clock) ?_
    intro q l q' _ hinv hstep
    obtain ⟨hstep', hnote⟩ := Run.track_eq_some.1 hstep
    rw [hnote]
    exact hinv.moved (moved_of_step hstep')
  obtain ⟨reading, hmem, hcurrent⟩ := hinv.current
  exact ⟨hturns, ⟨reading, hmem, hcurrent.shows, hcurrent.upToDate⟩, hinv.drawn, htimely⟩

/-- The watcher has seen a change when the first frame is drawn. -/
def changedRun : List (LoopStep ℤ) :=
  [.notify, .draw 3, .poll none, .watch, .subscribe, .refresh [] nothing 7, .early 8, .draw 9]

theorem mainLoop_follows_changedRun : ∃ s h, Run.exec (Run.track (step Board.epoch 250) note)
    (init Board.epoch nothing localConfig (.ok ()) 0, .init nothing) changedRun = some (s, h) ∧
    ∃ first second, h.frames = [first, second] ∧ first.signals = 1 ∧
      ∃ reading ∈ h.readings, second.app.Shows Board.epoch reading.world ∧
        1 ≤ reading.signals := by
  have hlast : (Run.exec (Run.track (step Board.epoch 250) note)
      (init Board.epoch nothing localConfig (.ok ()) 0, .init nothing) changedRun).any
        fun q => q.2.frames.map Frame.signals == [1, 1] := by
    decide +kernel
  rw [Option.any_eq_true] at hlast
  obtain ⟨⟨s, h⟩, hexec, hframes⟩ := hlast
  obtain ⟨first, rest, hfirst, hsignals, hrest⟩ := List.map_eq_cons_iff.1 (beq_iff_eq.1 hframes)
  obtain ⟨second, rest, rfl, -, hnil⟩ := List.map_eq_cons_iff.1 hrest
  obtain rfl := List.map_eq_nil_iff.1 hnil
  have hfollows := mainLoop_follows (by decide) (Run.reach_of_exec hexec .init)
  obtain ⟨reading, hmem, hshows, -, hle⟩ := hfollows.drawn [first] second [] hfirst
  exact ⟨s, h, hexec, first, second, hfirst, hsignals, reading, hmem, hshows,
    hsignals ▸ hle first (List.mem_singleton_self _)⟩

end MainLoop

end Console

end VcOperator
