import VcOperator.Board.Aging
import VcOperator.Console.Model.Keys
/-!
# The prompt editor

What is typed in the prompt editor is added to the prompt, one character
after the other, and nothing else happens. That is so of every character but
one: a question mark is not added, it opens the guide, where the next newline
ends the editing, and what comes after it is taken for the keys of the
console.
-/

namespace VcOperator

namespace Console

open Board (Outside epoch)

variable {τ : Type} [LinearOrder τ] {out : Outside τ} {app : App}

/-- A character that is typed, and what its key finds outside. -/
structure Typed (τ : Type) where
  char : Char
  shift : Bool
  world : World τ

/-- The key of a character: Enter for a newline, and no modifier other than Shift. -/
def Typed.key (typed : Typed τ) : KeyEvent where
  code := if typed.char = '\n' then .enter else .char typed.char
  modifiers := ⟨typed.shift, false, false⟩

/-- The text that is typed. -/
def textOf (keys : List (Typed τ)) : String := String.ofList (keys.map Typed.char)

namespace App

/-- The keys one by one. -/
def typeKeys (out : Outside τ) (app : App) (keys : List (Typed τ)) : App :=
  keys.foldl (fun app typed => (app.handleKey out typed.world typed.key).app) app

/-- **None of the keys does anything** but change the prompt: nothing outside, and nothing
of the rest of the console. -/
def OnlyPrompt (out : Outside τ) : App → List (Typed τ) → Prop
  | _, [] => True
  | app, typed :: keys =>
    let handled := app.handleKey out typed.world typed.key
    handled = .within { app with launchPrompt := handled.app.launchPrompt } ∧
      OnlyPrompt out handled.app keys

/-- **The editor takes a text.** -/
structure TakesText (out : Outside τ) (app : App) (keys : List (Typed τ)) : Prop where
  /-- It ends in the editor. -/
  focus : (app.typeKeys out keys).focus = .editPrompt
  /-- The prompt has the text at its end. -/
  prompt : (app.typeKeys out keys).launchPrompt = app.launchPrompt ++ textOf keys
  quiet : app.OnlyPrompt out keys

/-! ## One key -/

/-- A key without Control is the editor's. -/
theorem handleKey_editing {world : World τ} {key : KeyEvent} (h : app.focus = .editPrompt)
    (hctrl : key.modifiers.control = false) :
    app.handleKey out world key = .within (app.editPromptKey key) := by
  simp only [handleKey, hctrl, h, Bool.false_and, Bool.false_eq_true, if_false]

/-- A character is added. -/
theorem handleKey_typed (h : app.focus = .editPrompt) {typed : Typed τ} (hne : typed.char ≠ '?') :
    app.handleKey out typed.world typed.key =
      .within { app with launchPrompt := app.launchPrompt.push typed.char } := by
  rw [handleKey_editing h rfl, editPromptKey, Typed.key]
  rcases eq_or_ne typed.char '\n' with hnl | hnl
  · rw [if_pos hnl, hnl]
  · rw [if_neg hnl]
    simp

/-- A question mark is not. -/
theorem handleKey_question (h : app.focus = .editPrompt) {typed : Typed τ}
    (heq : typed.char = '?') :
    app.handleKey out typed.world typed.key = .within { app with focus := .help } := by
  rw [handleKey_editing h rfl, editPromptKey, Typed.key, heq]
  rfl

/-! ## The whole text -/

/-- A text without a question mark is added to the prompt. -/
theorem typeKeys_eq (h : app.focus = .editPrompt) {keys : List (Typed τ)}
    (hne : ∀ typed ∈ keys, typed.char ≠ '?') :
    app.typeKeys out keys = { app with launchPrompt := app.launchPrompt ++ textOf keys } := by
  induction keys generalizing app with
  | nil => simp [typeKeys, textOf]
  | cons typed keys ih =>
    have hfirst : app.handleKey out typed.world typed.key =
        .within { app with launchPrompt := app.launchPrompt.push typed.char } :=
      handleKey_typed h (hne typed List.mem_cons_self)
    have hrest := @ih { app with launchPrompt := app.launchPrompt.push typed.char } h
      fun t ht => hne t (List.mem_cons_of_mem _ ht)
    have htext : app.launchPrompt.push typed.char ++ textOf keys =
        app.launchPrompt ++ textOf (typed :: keys) := by
      rw [← String.toList_inj]
      simp [textOf]
    rw [typeKeys, List.foldl_cons, hfirst, ← htext]
    exact hrest

/-- Nothing happens exactly when no question mark is typed. -/
theorem onlyPrompt_iff (h : app.focus = .editPrompt) (keys : List (Typed τ)) :
    app.OnlyPrompt out keys ↔ ∀ typed ∈ keys, typed.char ≠ '?' := by
  induction keys generalizing app with
  | nil => simp [OnlyPrompt]
  | cons typed keys ih =>
    rw [OnlyPrompt, List.forall_mem_cons]
    rcases eq_or_ne typed.char '?' with heq | hne
    · rw [handleKey_question h heq]
      refine iff_of_false (fun hquiet => ?_) fun hne => hne.1 heq
      have hfocus := congrArg (fun handled => handled.app.focus) hquiet.1
      dsimp only [Handled.within] at hfocus
      rw [h] at hfocus
      cases hfocus
    · have hrest := @ih { app with launchPrompt := app.launchPrompt.push typed.char } h
      rw [handleKey_typed h hne]
      exact ⟨fun hquiet => ⟨hne, hrest.1 hquiet.2⟩, fun hall => ⟨rfl, hrest.2 hall.2⟩⟩

/-- **The editor takes a text exactly when there is no question mark in it.** -/
theorem takesText_iff_noQuestionMark (h : app.focus = .editPrompt) (keys : List (Typed τ)) :
    app.TakesText out keys ↔ ∀ typed ∈ keys, typed.char ≠ '?' := by
  constructor
  · intro htakes
    exact (onlyPrompt_iff h keys).1 htakes.quiet
  · intro hne
    refine ⟨?_, ?_, (onlyPrompt_iff h keys).2 hne⟩
    · rw [typeKeys_eq h hne]
      exact h
    · rw [typeKeys_eq h hne]

/-! ## A console around which nothing is -/

end App

/-- Nothing is loaded, and everything that is done succeeds. -/
def nothing : World ℤ where
  now := 0
  rfc3339 := "1970-01-01T00:00:00+00:00"
  millis := 0
  host := ⟨none, fun _ => false⟩
  floats := ⟨fun _ => [], fun _ => none⟩
  load := none
  currentSummaries := []
  currentIntents := []
  createDirAll _ := .ok ()
  write _ _ := .ok ()
  setText _ := .ok ()
  artifactLines _ _ := .ok []
  prismPreviewLines _ := .ok []
  preLaunchVerify _ := .ok ()
  spawnDetached _ := .ok 0
  suspendAndRun _ := .ok ()

/-- The configuration of a console. -/
def localConfig : AppConfig where
  stateRoot := .ofString "/state"
  commandDeck := .ofString "vibecrafted"
  launchRoot := .ofString "/work"
  launchRuntime := .terminal
  terminalBinary := .ofString "zellij"
  noVerifyGate := false

/-- The console in the prompt editor. -/
def editing : App := { App.new epoch nothing localConfig with focus := .editPrompt }

/-- A text that is typed. -/
def typedText (text : String) : List (Typed ℤ) :=
  text.toList.map fun c => ⟨c, c.isUpper, nothing⟩

namespace App

/-- A text of two lines. -/
theorem takesText_lines : editing.TakesText epoch (typedText "Fix it,\nthen test.") :=
  (takesText_iff_noQuestionMark rfl _).2 (by decide +kernel)

/-- A question mark is not in the prompt, and the letter after the next line break quits. -/
theorem not_takesText_question : ¬ editing.TakesText epoch (typedText "why?\nquit") ∧
    ((editing.typeKeys epoch (typedText "why?\n")).handleKey epoch nothing
      ⟨.char 'q', ⟨false, false, false⟩⟩).outcome = .ok true := by
  constructor
  · intro htakes
    have hquiet := (onlyPrompt_iff rfl _).1 htakes.quiet
    revert hquiet
    decide +kernel
  · rfl

end App

end Console

end VcOperator
