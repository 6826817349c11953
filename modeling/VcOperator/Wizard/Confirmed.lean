import VcOperator.Common.Run
import VcOperator.Wizard.Model.Persist
/-!
# Nothing without a confirmation

The wizard carries out a strategy only where the operator confirmed it on
STEP 4, over a selection that is not empty. Each handler is described once, by
what a key keeps and by what it queues (`KeyMove`); what holds of the wizard
between its steps (`Guarded`) then follows its phases.
-/

namespace VcOperator

namespace Wizard

open Config

variable {app app' : AppState} {look : Look} {code : KeyCode} {world : World}

/-! ## What a key keeps -/

/-- A row of a list, or 0 where there is none. -/
def IsRow {α : Type} (idx : ℕ) (rows : List α) : Prop :=
  idx < rows.length ∨ rows = [] ∧ idx = 0

namespace IsRow

variable {α : Type} {idx : ℕ} {rows rows' : List α}

/-- A shorter index is a row too. -/
theorem up (h : IsRow idx rows) : IsRow (idx - 1) rows := by
  rcases h with hlt | ⟨hnil, hzero⟩
  · exact .inl (by omega)
  · exact .inr ⟨hnil, by omega⟩

/-- Only the number of rows matters. -/
theorem of_length (h : IsRow idx rows) (hlen : rows'.length = rows.length) :
    IsRow idx rows' := by
  rcases h with hlt | ⟨rfl, hzero⟩
  · exact .inl (by omega)
  · exact .inr ⟨List.length_eq_zero_iff.1 hlen, hzero⟩

/-- The first row, where there is one. -/
theorem zero (rows : List α) : IsRow 0 rows := by
  cases rows with
  | nil => exact .inr ⟨rfl, rfl⟩
  | cons row rows => exact .inl (Nat.succ_pos _)

end IsRow

namespace AppState

/-- Some service is selected. -/
def HasSelection (app : AppState) : Prop := ∃ svc ∈ app.services, svc.selected = true

/-- The step is STEP 3 or STEP 4. -/
def Chose (app : AppState) : Prop :=
  app.wizardStep = .strategyChoice ∨ app.wizardStep = .summaryConfirm

/-- What holds of the working set between two keys. -/
structure Sound (app : AppState) : Prop where
  source : IsRow app.selectedSource app.sources
  service : IsRow app.selectedService app.services
  chosen : app.Chose → app.HasSelection

/-- The working set is sound where no strategy is chosen yet. -/
theorem Sound.of_step (hsource : IsRow app.selectedSource app.sources)
    (hservice : IsRow app.selectedService app.services)
    (hstep : app.wizardStep = .discoverySources ∨ app.wizardStep = .serverReview) : app.Sound := by
  refine ⟨hsource, hservice, fun hchose => ?_⟩
  rcases hstep with hstep | hstep <;> rcases hchose with hchose | hchose <;>
    rw [hstep] at hchose <;> cases hchose

end AppState

/-- A key that queues nothing. -/
structure Quiet (app app' : AppState) : Prop where
  dryRun : app'.dryRun = app.dryRun
  pending : app'.pendingAction = app.pendingAction
  tray : app'.wizardStep = .resultAndTray ↔ app.wizardStep = .resultAndTray
  sound : app.Sound → app'.Sound

namespace Quiet

theorem refl (app : AppState) : Quiet app app := ⟨rfl, rfl, .rfl, id⟩

/-- The message is not looked at. -/
theorem message (h : Quiet app app') (message : String) :
    Quiet app { app' with message := message } where
  dryRun := h.dryRun
  pending := h.pending
  tray := h.tray
  sound hs := ⟨(h.sound hs).source, (h.sound hs).service, (h.sound hs).chosen⟩

/-- A step that is not STEP 5 is followed by another. -/
theorem goTo (next : WizardStep) (hfrom : app.wizardStep ≠ .resultAndTray)
    (hnext : next ≠ .resultAndTray) (hsound : app.Sound → { app with wizardStep := next }.Sound) :
    Quiet app { app with wizardStep := next } :=
  ⟨rfl, rfl, iff_of_false hnext hfrom, hsound⟩

theorem updateStep1Message (h : Quiet app app') : Quiet app (updateStep1Message app') := by
  unfold Wizard.updateStep1Message
  split
  · exact h.message _
  · exact h.message _

end Quiet

/-- **What a key does.** It queues nothing, or it is Enter: on Confirm in STEP 4
it queues the strategy, on STEP 5 the tray daemon. -/
inductive KeyMove (app : AppState) (code : KeyCode) : AppState → Bool → Prop
  | quiet {app' : AppState} (done : Bool) : Quiet app app' → KeyMove app code app' done
  | strategy : code = .enter → app.wizardStep = .summaryConfirm → app.summaryAction = .confirm →
      KeyMove app code (queuePendingForStrategy app) true
  | tray : code = .enter → app.wizardStep = .resultAndTray →
      KeyMove app code { app with pendingAction := some .startTrayDaemon } true

/-! ## The handlers -/

theorem quiet_addCustomSource (look : Look) (app : AppState) (rawPath : String)
    (hstep : app.wizardStep = .discoverySources) :
    Quiet app (addCustomSource look app rawPath) where
  dryRun := rfl
  pending := rfl
  tray := .rfl
  sound hs := by
    refine .of_step (.inl ?_) hs.service (.inl hstep)
    simp [addCustomSource]

theorem quiet_editCustomPath (hstep : app.wizardStep = .discoverySources) :
    Quiet app (editCustomPath look app code) := by
  unfold editCustomPath
  split
  · exact Quiet.updateStep1Message ⟨rfl, rfl, .rfl, fun hs => ⟨hs.1, hs.2, hs.3⟩⟩
  · refine Quiet.updateStep1Message ?_
    split
    · exact ⟨rfl, rfl, .rfl, fun hs => ⟨hs.1, hs.2, hs.3⟩⟩
    · have hadd := quiet_addCustomSource look
        { app with customPath.buffer := [], customPath.editing := false }
        (.ofList app.customPath.buffer) hstep
      exact ⟨hadd.dryRun, hadd.pending, hadd.tray, fun hs => hadd.sound ⟨hs.1, hs.2, hs.3⟩⟩
  · exact ⟨rfl, rfl, .rfl, fun hs => ⟨hs.1, hs.2, hs.3⟩⟩
  · exact ⟨rfl, rfl, .rfl, fun hs => ⟨hs.1, hs.2, hs.3⟩⟩
  · exact .refl app

theorem quiet_advanceToStep2 (hstep : app.wizardStep = .discoverySources) :
    Quiet app (advanceToStep2 look app) where
  dryRun := rfl
  pending := rfl
  tray := by
    rw [hstep]
    exact ⟨fun h => WizardStep.noConfusion h, fun h => WizardStep.noConfusion h⟩
  sound hs := .of_step hs.source (.zero _) (.inr rfl)

theorem quiet_step1 (hstep : app.wizardStep = .discoverySources) :
    Quiet app (handleStep1 look app code).1 := by
  unfold handleStep1
  split
  · exact quiet_editCustomPath hstep
  · split
    · exact .refl app
    · exact ⟨rfl, rfl, .rfl, fun hs => ⟨hs.1, hs.2, hs.3⟩⟩
    · -- up
      dsimp only
      split
      · exact ⟨rfl, rfl, .rfl, fun hs => ⟨hs.source.up, hs.service, hs.chosen⟩⟩
      · exact .refl app
    · -- down
      dsimp only
      split
      · rename_i hlt
        exact ⟨rfl, rfl, .rfl, fun hs => ⟨.inl hlt, hs.service, hs.chosen⟩⟩
      · exact .refl app
    · -- space
      dsimp only
      split
      · exact Quiet.updateStep1Message ⟨rfl, rfl, .rfl, fun hs =>
          ⟨hs.source.of_length (List.length_modify ..), hs.service, hs.chosen⟩⟩
      · exact .refl app
    · exact quiet_advanceToStep2 hstep
    · exact quiet_advanceToStep2 hstep
    · exact quiet_advanceToStep2 hstep
    · exact .refl app

theorem quiet_step2 (hstep : app.wizardStep = .serverReview) :
    Quiet app (handleStep2 app code).1 := by
  have hfrom : app.wizardStep ≠ .resultAndTray := by simp [hstep]
  have hnext : Quiet app (if (app.services.filter (·.selected)).length = 0 then
      { app with message := "Select at least one server (Space) before continuing." }
      else updateStep3Message { app with wizardStep := .strategyChoice }) := by
    split
    · exact (Quiet.refl app).message _
    · rename_i hsome
      refine (Quiet.goTo .strategyChoice hfrom (by simp) fun hs =>
        ⟨hs.source, hs.service, fun _ => ?_⟩).message _
      obtain ⟨svc, hsvc⟩ := List.exists_mem_of_length_pos (Nat.pos_of_ne_zero hsome)
      rw [List.mem_filter] at hsvc
      exact ⟨svc, hsvc⟩
  have htoggle : ∀ idx, Quiet app { app with services := toggleSelected app.services idx } :=
    fun idx => ⟨rfl, rfl, .rfl, fun hs =>
      .of_step hs.source (hs.service.of_length (List.length_modify ..)) (.inr hstep)⟩
  have hback : Quiet app (updateStep1Message { app with wizardStep := .discoverySources }) :=
    (Quiet.goTo .discoverySources hfrom (by simp) fun hs =>
      .of_step hs.source hs.service (.inl rfl)).updateStep1Message
  unfold handleStep2
  split
  · exact .refl app
  · -- up
    dsimp only
    split
    · exact ⟨rfl, rfl, .rfl, fun hs => ⟨hs.source, hs.service.up, hs.chosen⟩⟩
    · exact .refl app
  · -- down
    dsimp only
    split
    · rename_i hlt
      exact ⟨rfl, rfl, .rfl, fun hs => ⟨hs.source, .inl hlt, hs.chosen⟩⟩
    · exact .refl app
  · -- space: the selection may become empty, which only STEP 3 and STEP 4 exclude
    dsimp only
    split
    · exact (htoggle _).message _
    · exact .refl app
  · exact hnext
  · exact hnext
  · exact hnext
  · exact hback
  · exact hback
  · exact .refl app

theorem quiet_step3 (hstep : app.wizardStep = .strategyChoice) :
    Quiet app (handleStep3 app code).1 := by
  have hfrom : app.wizardStep ≠ .resultAndTray := by simp [hstep]
  have hnext : Quiet app { app with wizardStep := .summaryConfirm, summaryAction := .confirm } :=
    ⟨rfl, rfl, by simp [hstep], fun hs =>
      ⟨hs.source, hs.service, fun _ => hs.chosen (.inl hstep)⟩⟩
  have hback : Quiet app (updateStep2Message { app with wizardStep := .serverReview }) :=
    (Quiet.goTo .serverReview hfrom (by simp) fun hs =>
      .of_step hs.source hs.service (.inr rfl)).message _
  have hpick : ∀ strategy, Quiet app { app with strategy := strategy } := fun _ =>
    ⟨rfl, rfl, .rfl, fun hs => ⟨hs.source, hs.service, hs.chosen⟩⟩
  unfold handleStep3
  split
  · exact .refl app
  · exact hpick _
  · exact hpick _
  · exact hpick _
  · exact hpick _
  · exact hpick _
  · exact hnext.message _
  · exact hnext.message _
  · exact hnext.message _
  · exact hback
  · exact hback
  · exact .refl app

theorem keyMove_step4 (hstep : app.wizardStep = .summaryConfirm) :
    KeyMove app code (handleStep4 app code).1 (handleStep4 app code).2 := by
  have hfrom : app.wizardStep ≠ .resultAndTray := by simp [hstep]
  have hback : Quiet app (updateStep3Message { app with wizardStep := .strategyChoice }) :=
    (Quiet.goTo .strategyChoice hfrom (by simp) fun hs =>
      ⟨hs.source, hs.service, fun _ => hs.chosen (.inr hstep)⟩).message _
  have hpick : ∀ action, Quiet app { app with summaryAction := action } := fun _ =>
    ⟨rfl, rfl, .rfl, fun hs => ⟨hs.source, hs.service, hs.chosen⟩⟩
  unfold handleStep4
  split
  · exact .quiet _ (.refl app)
  · exact .quiet _ (hpick _)
  · exact .quiet _ (hpick _)
  · exact .quiet _ hback
  · exact .quiet _ hback
  · split
    · rename_i hconfirm
      exact .strategy rfl hstep hconfirm
    · exact .quiet _ hback
    · exact .quiet _ (.refl app)
  · exact .quiet _ (.refl app)

theorem keyMove_step5 (hstep : app.wizardStep = .resultAndTray) :
    KeyMove app code (handleStep5 app code).1 (handleStep5 app code).2 := by
  have hpick : ∀ choice, Quiet app { app with trayChoice := choice } := fun _ =>
    ⟨rfl, rfl, .rfl, fun hs => ⟨hs.source, hs.service, hs.chosen⟩⟩
  unfold handleStep5
  split
  · exact .quiet _ (.refl app)
  · exact .quiet _ (hpick _)
  · exact .quiet _ (hpick _)
  · split
    · exact .tray rfl hstep
    · exact .quiet _ (.refl app)
  · exact .quiet _ (.refl app)

/-- **One key**, in any step. -/
theorem keyMove (app : AppState) (look : Look) (code : KeyCode) :
    KeyMove app code (handleKey look app code).1 (handleKey look app code).2 := by
  unfold handleKey
  split
  · exact .quiet _ (quiet_step1 ‹_›)
  · exact .quiet _ (quiet_step2 ‹_›)
  · exact .quiet _ (quiet_step3 ‹_›)
  · exact keyMove_step4 ‹_›
  · exact keyMove_step5 ‹_›

namespace KeyMove

variable {done : Bool}

theorem dryRun (h : KeyMove app code app' done) : app'.dryRun = app.dryRun := by
  cases h with
  | quiet _ hq => exact hq.dryRun
  | strategy => rfl
  | tray => rfl

theorem step5 (h : KeyMove app code app' done) :
    app'.wizardStep = .resultAndTray ↔ app.wizardStep = .resultAndTray := by
  cases h with
  | quiet _ hq => exact hq.tray
  | strategy => exact .rfl
  | tray => exact .rfl

theorem sound (h : KeyMove app code app' done) (hs : app.Sound) : app'.Sound := by
  cases h with
  | quiet _ hq => exact hq.sound hs
  | strategy => exact ⟨hs.source, hs.service, hs.chosen⟩
  | tray => exact ⟨hs.source, hs.service, hs.chosen⟩

/-- A strategy is queued by Enter on Confirm in STEP 4. -/
theorem queued (h : KeyMove app code app' done) {action : PendingAction}
    (hstrategy : action ≠ .startTrayDaemon) (hbefore : app.pendingAction ≠ some action)
    (hafter : app'.pendingAction = some action) :
    code = .enter ∧ app.wizardStep = .summaryConfirm ∧ app.summaryAction = .confirm ∧
      action = app.strategy.action := by
  cases h with
  | quiet _ hq => exact absurd (hq.pending.symm.trans hafter) hbefore
  | strategy henter hstep hconfirm =>
    exact ⟨henter, hstep, hconfirm, (Option.some.inj hafter).symm⟩
  | tray => exact absurd (Option.some.inj hafter).symm hstrategy

/-- Neither `q` nor Cancel queues anything. -/
theorem left (h : KeyMove app code app' done)
    (hleave : code = .char 'q' ∨
      code = .enter ∧ app.wizardStep = .summaryConfirm ∧ app.summaryAction = .cancel) :
    app'.pendingAction = app.pendingAction := by
  cases h with
  | quiet _ hq => exact hq.pending
  | strategy henter _ hconfirm =>
    rcases hleave with hq | ⟨-, -, hcancel⟩
    · cases henter.symm.trans hq
    · cases hconfirm.symm.trans hcancel
  | tray henter hstep =>
    rcases hleave with hq | ⟨-, hsummary, -⟩
    · cases henter.symm.trans hq
    · cases hstep.symm.trans hsummary

end KeyMove

/-! ## What an action does -/

theorem effects_of_dryRun (hdry : app.dryRun = true) (action : PendingAction) :
    (perform world app action).effects = [] := by
  cases action with
  | generateUnified =>
    simp only [perform, runUnifiedGenerate]
    split_ifs <;> rfl
  | generatePerClient =>
    simp only [perform, runPerClientGenerate]
    split_ifs <;> rfl
  | autoRewire =>
    simp only [perform, runDangerAutoConfigure]
    split_ifs <;> rfl
  | startTrayDaemon =>
    simp only [perform, startTrayDaemon]
    split_ifs
    rfl

/-- Each effect that acts comes after the operator typed `CONFIRM`. -/
def TypedFirst (effects : List Effect) : Prop :=
  ∀ before op after, effects = before ++ op :: after → op.acts = true →
    ∃ line, .readLine (some line) ∈ before ∧ trim line.toList = "CONFIRM".toList

theorem typedFirst_nil : TypedFirst [] := fun before op after h => by
  cases before <;> cases h

/-- A line that is read does not act. -/
theorem typedFirst_readLine (line : Option String) : TypedFirst [.readLine line] := by
  intro before op after h hacts
  cases before with
  | nil =>
    obtain ⟨rfl, -⟩ := List.cons.inj h
    cases hacts
  | cons e before => simp at h

theorem typedFirst_confirmed {line : String} (h : trim line.toList = "CONFIRM".toList)
    (rest : List Effect) : TypedFirst (.readLine (some line) :: rest) := by
  intro before op after heq hacts
  cases before with
  | nil =>
    obtain ⟨rfl, -⟩ := List.cons.inj heq
    cases hacts
  | cons e before =>
    obtain ⟨rfl, -⟩ := List.cons.inj heq
    exact ⟨line, List.mem_cons_self, h⟩

theorem typedFirst_autoRewire (world : World) (app : AppState) :
    TypedFirst (perform world app .autoRewire).effects := by
  simp only [perform, runDangerAutoConfigure]
  split_ifs
  · exact typedFirst_nil
  · exact typedFirst_nil
  · exact typedFirst_nil
  · exact typedFirst_nil
  · split
    · exact typedFirst_readLine none
    · rename_i line _
      split_ifs with hconfirm
      · exact typedFirst_readLine (some line)
      · exact typedFirst_confirmed (not_not.1 hconfirm) _

/-! ## The wizard between its steps -/

/-- What may be pending in a phase: a strategy between the loops, where STEP 4 left
it, and the tray daemon after the loop of STEP 5. -/
def PendingIn : Phase → AppState → Prop
  | .keys, app => app.wizardStep ≠ .resultAndTray ∧ app.pendingAction = none
  | .drain, app =>
    app.wizardStep ≠ .resultAndTray ∧ (app.pendingAction = none ∨
      app.wizardStep = .summaryConfirm ∧ app.pendingAction = some app.strategy.action)
  | .tray, app => app.wizardStep = .resultAndTray ∧ app.pendingAction = none
  | .close, app => app.wizardStep = .resultAndTray
  | .ended, _ => True

/-- A key in the loop of `run_tui`. -/
theorem PendingIn.key {done : Bool} (h : PendingIn .keys app)
    (hmove : KeyMove app code app' done) :
    PendingIn (if done then .drain else .keys) app' := by
  have hstep : app'.wizardStep ≠ .resultAndTray := fun h5 => h.1 (hmove.step5.1 h5)
  cases hmove with
  | quiet _ hq =>
    have hnone : app'.pendingAction = none := hq.pending.trans h.2
    cases done with
    | true => exact ⟨hstep, .inl hnone⟩
    | false => exact ⟨hstep, hnone⟩
  | strategy _ hconfirm _ => exact ⟨hstep, .inr ⟨hconfirm, rfl⟩⟩
  | tray _ h5 => exact absurd h5 h.1

/-- A key in the loop of `advance_to_step5`. -/
theorem PendingIn.trayKey {done : Bool} (h : PendingIn .tray app)
    (hmove : KeyMove app code app' done) :
    PendingIn (if done then .close else .tray) app' := by
  have hstep : app'.wizardStep = .resultAndTray := hmove.step5.2 h.1
  cases done with
  | true => exact hstep
  | false =>
    cases hmove with
    | quiet _ hq => exact ⟨hstep, hq.pending.trans h.2⟩

/-- What holds of an action that was carried out. -/
structure Performed.Allowed (dryRun : Bool) (p : Performed) : Prop where
  dry : dryRun = true → p.ran.effects = []
  typed : p.action = .autoRewire → TypedFirst p.ran.effects
  selected : p.action ≠ .startTrayDaemon → p.app.HasSelection

namespace Session

/-- What holds of the wizard in each phase. -/
structure Guarded (dryRun : Bool) (s : Session) : Prop where
  flag : s.app.dryRun = dryRun
  sound : s.app.Sound
  pending : PendingIn s.phase s.app
  performed : ∀ p ∈ s.performed, p.Allowed dryRun

variable {s s' : Session} {dryRun : Bool}

theorem allowed_take (h : s.Guarded dryRun) {action : PendingAction}
    (hselected : action ≠ .startTrayDaemon → s.app.HasSelection) :
    (s.take world action).Allowed dryRun where
  dry hdry := effects_of_dryRun (h.flag.trans hdry) action
  typed haction := by
    have heq : action = .autoRewire := haction
    subst heq
    exact typedFirst_autoRewire world _
  selected := hselected

/-- The actions carried out so far, and one more. -/
theorem Guarded.performed_append (h : s.Guarded dryRun) {p : Performed} (hp : p.Allowed dryRun) :
    ∀ q ∈ s.performed ++ [p], q.Allowed dryRun := by
  intro q hq
  rw [List.mem_append, List.mem_singleton] at hq
  rcases hq with hq | rfl
  · exact h.performed q hq
  · exact hp

theorem guarded_read (h : s.Guarded dryRun) {next : Phase} (look : Look) (event : KeyEvent)
    (hpending : ∀ app' done, KeyMove s.app event.code app' done →
      PendingIn (if done then next else s.phase) app') :
    (s.read look event next).Guarded dryRun := by
  unfold read
  split
  · exact h
  · have hmove := keyMove s.app look event.code
    exact ⟨hmove.dryRun.trans h.flag, hmove.sound h.sound, hpending _ _ hmove, h.performed⟩

theorem guarded_drain (h : s.Guarded dryRun) (hphase : s.phase = .drain) :
    (s.drainPendingActions world).Guarded dryRun := by
  have hpending := h.pending
  rw [hphase] at hpending
  obtain ⟨-, hnone | ⟨hconfirm, hsome⟩⟩ := hpending
  · rw [drainPendingActions, hnone]
    exact ⟨h.flag, h.sound, trivial, h.performed⟩
  · have hallowed : (s.take world s.app.strategy.action).Allowed dryRun :=
      allowed_take h fun _ => h.sound.chosen (.inr hconfirm)
    have hperformed := h.performed_append hallowed
    rw [drainPendingActions, hsome]
    dsimp only
    split
    · exact ⟨h.flag, ⟨h.sound.1, h.sound.2, h.sound.3⟩, trivial, hperformed⟩
    · exact ⟨h.flag, ⟨h.sound.1, h.sound.2, h.sound.3⟩, trivial, hperformed⟩
    · refine ⟨h.flag, ⟨h.sound.1, h.sound.2, fun hchose => ?_⟩, ⟨rfl, rfl⟩, hperformed⟩
      exact hchose.elim (fun h3 => WizardStep.noConfusion h3) fun h4 => WizardStep.noConfusion h4

theorem guarded_close (h : s.Guarded dryRun) : (s.closeStep5 world).Guarded dryRun := by
  have hsound : { s.app with pendingAction := none }.Sound :=
    ⟨h.sound.source, h.sound.service, h.sound.chosen⟩
  unfold closeStep5
  split
  · refine ⟨h.flag, hsound, trivial, h.performed_append (allowed_take h ?_)⟩
    exact fun hne => absurd rfl hne
  · exact ⟨h.flag, hsound, trivial, h.performed⟩

/-- **One step** keeps what holds of the wizard. -/
theorem guarded_step {input : Input} (h : s.Guarded dryRun) (hstep : s.step input = some s') :
    s'.Guarded dryRun := by
  have hpending := h.pending
  cases input with
  | key look event =>
    simp only [step] at hstep
    split at hstep
    · rename_i hphase
      rw [hphase] at hpending
      cases hstep
      exact guarded_read h look event fun _ _ hmove => hphase ▸ hpending.key hmove
    · rename_i hphase
      rw [hphase] at hpending
      cases hstep
      exact guarded_read h look event fun _ _ hmove => hphase ▸ hpending.trayKey hmove
    · cases hstep
  | idle =>
    simp only [step] at hstep
    split at hstep <;> cases hstep <;> exact h
  | broken =>
    simp only [step] at hstep
    split at hstep
    · cases hstep
    · cases hstep
      exact ⟨h.flag, h.sound, trivial, h.performed⟩
  | act world =>
    simp only [step] at hstep
    split at hstep
    · cases hstep
      exact guarded_drain h ‹_›
    · cases hstep
      exact guarded_close h
    · cases hstep

theorem guarded_start (sources : List SourceEntry) (strategy : Strategy) (configPath : String)
    (dryRun : Bool) : (start sources strategy configPath dryRun).Guarded dryRun where
  flag := rfl
  sound := .of_step (.zero sources) (.zero []) (.inl rfl)
  pending := ⟨fun h => WizardStep.noConfusion h, rfl⟩
  performed p hp := by cases hp

theorem guarded_of_reach {sources : List SourceEntry} {strategy : Strategy} {configPath : String}
    (h : Run.Reach step Run.Any (start sources strategy configPath dryRun) s) :
    s.Guarded dryRun :=
  h.invariant (guarded_start sources strategy configPath dryRun) fun _ _ _ _ => guarded_step

/-! ## The confirmation -/

/-- What holds of the wizard at any moment. -/
structure Confirmed (dryRun : Bool) (s : Session) : Prop where
  source : IsRow s.app.selectedSource s.app.sources
  service : IsRow s.app.selectedService s.app.services
  /-- In STEP 3 and STEP 4 at least one service is selected. -/
  selected : s.app.Chose → s.app.HasSelection
  /-- A strategy is carried out over a selection that is not empty. -/
  carriedOut : ∀ p ∈ s.performed, p.action ≠ .startTrayDaemon → p.app.HasSelection
  /-- A dry run neither writes a file nor spawns a process. -/
  dry : dryRun = true → ∀ p ∈ s.performed, ∀ op ∈ p.ran.effects, op.acts = false
  /-- The rewrite acts after the operator typed `CONFIRM`. -/
  typed : ∀ p ∈ s.performed, p.action = .autoRewire → TypedFirst p.ran.effects

/-- The key is `q`, or Enter on Cancel in STEP 4. -/
def Leaves (app : AppState) (event : KeyEvent) : Prop :=
  event.code = .char 'q' ∨
    event.code = .enter ∧ app.wizardStep = .summaryConfirm ∧ app.summaryAction = .cancel

/-- What holds of a step of the wizard. -/
structure ConfirmedStep (s : Session) (input : Input) (s' : Session) : Prop where
  /-- A strategy becomes pending by Enter on Confirm in STEP 4. -/
  queued : ∀ action, action ≠ .startTrayDaemon → s.app.pendingAction ≠ some action →
    s'.app.pendingAction = some action →
    ∃ look event, input = .key look event ∧ event.kind ≠ .release ∧ event.code = .enter ∧
      s.app.wizardStep = .summaryConfirm ∧ s.app.summaryAction = .confirm ∧
      action = s.app.strategy.action
  /-- Leaving leaves nothing pending. -/
  left : ∀ look event, input = .key look event → Leaves s.app event →
    s'.app.pendingAction = none

theorem pending_drain (s : Session) (world : World) :
    (s.drainPendingActions world).app.pendingAction = none := by
  unfold drainPendingActions
  split
  · assumption
  · dsimp only
    split <;> rfl

theorem pending_close (s : Session) (world : World) :
    (s.closeStep5 world).app.pendingAction = none := by
  unfold closeStep5
  split <;> rfl

/-- A key is read in one of the two loops, with nothing pending. -/
theorem read_of_step {look : Look} {event : KeyEvent} (h : s.Guarded dryRun)
    (hstep : s.step (.key look event) = some s') :
    s.app.pendingAction = none ∧ ∃ next, s' = s.read look event next := by
  have hpending := h.pending
  simp only [step] at hstep
  split at hstep
  · rename_i hphase
    rw [hphase] at hpending
    cases hstep
    exact ⟨hpending.2, _, rfl⟩
  · rename_i hphase
    rw [hphase] at hpending
    cases hstep
    exact ⟨hpending.2, _, rfl⟩
  · cases hstep

theorem confirmedStep_key {look : Look} {event : KeyEvent} {next : Phase}
    (hnone : s.app.pendingAction = none) :
    ConfirmedStep s (.key look event) (s.read look event next) := by
  unfold read
  split
  · exact ⟨fun _ _ hbefore hafter => absurd hafter hbefore, fun _ _ _ _ => hnone⟩
  · rename_i hkind
    have hmove := keyMove s.app look event.code
    constructor
    · intro action hstrategy hbefore hafter
      exact ⟨look, event, rfl, hkind, hmove.queued hstrategy hbefore hafter⟩
    · intro _ _ hinput hleave
      cases hinput
      exact (hmove.left hleave).trans hnone

theorem confirmedStep {input : Input} (h : s.Guarded dryRun)
    (hstep : s.step input = some s') : ConfirmedStep s input s' := by
  have hquiet : (∀ action, s'.app.pendingAction = some action →
      s.app.pendingAction = some action) → (∀ look event, input ≠ .key look event) →
      ConfirmedStep s input s' := fun hsame hkey =>
    ⟨fun action _ hbefore hafter => absurd (hsame action hafter) hbefore,
      fun look event hinput => absurd hinput (hkey look event)⟩
  cases input with
  | key look event =>
    obtain ⟨hnone, next, rfl⟩ := read_of_step h hstep
    exact confirmedStep_key hnone
  | idle =>
    refine hquiet (fun action hafter => ?_) (by simp)
    simp only [step] at hstep
    split at hstep <;> cases hstep <;> exact hafter
  | broken =>
    refine hquiet (fun action hafter => ?_) (by simp)
    simp only [step] at hstep
    split at hstep <;> cases hstep
    exact hafter
  | act world =>
    refine hquiet (fun action hafter => ?_) (by simp)
    simp only [step] at hstep
    split at hstep <;> cases hstep
    · rw [pending_drain] at hafter
      cases hafter
    · rw [pending_close] at hafter
      cases hafter

end Session

/-- **The wizard acts only on a confirmation**, of a selection that is not empty: in every
state that keys, actions and failures of the terminal lead to, and in every step from it. -/
theorem acts_only_confirmed (sources : List SourceEntry) (strategy : Strategy)
    (configPath : String) (dryRun : Bool) {s : Session}
    (h : Run.Reach Session.step Run.Any (.start sources strategy configPath dryRun) s) :
    s.Confirmed dryRun ∧
      ∀ input s', s.step input = some s' → Session.ConfirmedStep s input s' := by
  have hguarded := Session.guarded_of_reach h
  refine ⟨?_, fun input s' => Session.confirmedStep hguarded⟩
  exact
    { source := hguarded.sound.source
      service := hguarded.sound.service
      selected := hguarded.sound.chosen
      carriedOut := fun p hp => (hguarded.performed p hp).selected
      dry := fun hdry p hp op hop => by
        rw [(hguarded.performed p hp).dry hdry] at hop
        cases hop
      typed := fun p hp => (hguarded.performed p hp).typed }

/-- A home without files, where the default server is installed. -/
def freshLook : Look where
  home := some "/root"
  pathExists _ := false
  files _ := none
  surroundings := ⟨discoverVibecraftedMcp "/root" false true, [], fun _ => false⟩

/-- The same home, when the action is carried out. -/
def freshWorld : World where
  home := some "/root"
  pathExists _ := false
  disk _ := none
  works _ := true
  serializes := true
  typed := none
  weather _ := ⟨0, true, .done, .done⟩
  exeDir := none
  pid := none

/-- Enter from STEP 1 to Confirm, and the strategy. -/
def confirmedInputs : List Input :=
  List.replicate 4 (.key freshLook ⟨.enter, .press⟩) ++ [.act freshWorld]

theorem acts_only_confirmed_unified :
    ∃ s, Run.exec Session.step (.start [] .unified "mcp-mux.toml" false) confirmedInputs = some s ∧
      s.phase = .tray ∧ (s.performed.map fun p => p.ran.effects.length) = [5] ∧
      s.Confirmed false ∧
      ∀ input s', s.step input = some s' → Session.ConfirmedStep s input s' := by
  refine ⟨_, rfl, rfl, rfl, acts_only_confirmed [] .unified "mcp-mux.toml" false ?_⟩
  exact Run.reach_of_exec (show Run.exec _ _ confirmedInputs = some _ from rfl) .init

end Wizard

end VcOperator
