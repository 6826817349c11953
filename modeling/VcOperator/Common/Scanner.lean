import Mathlib.Data.List.Basic
/-!
# Scanners

A machine that reads a text character by character and puts out tokens. What
is read of a text that is put together from pieces is put together from what
is read of the pieces (`Scanner.read_append`, `Scanner.scan_of_read`), so a
piece that leaves the machine where it found it can be read on its own.
-/

namespace VcOperator

/-- A scanner with states in `σ` and tokens in `τ`. -/
structure Scanner (σ τ : Type) where
  /-- What a character puts out, and where it leads; nothing, where it may not stand. -/
  next : σ → Char → Option (List τ × σ)
  /-- What the end of the text puts out, if it may stand there. -/
  finish : σ → Option (List τ)

namespace Scanner

variable {σ τ : Type} {m : Scanner σ τ} {s s' s'' : σ} {text text' : List Char}
  {tokens tokens' : List τ}

/-- What a piece of text puts out, and where it leads. -/
def read (m : Scanner σ τ) : σ → List Char → Option (List τ × σ)
  | s, [] => some ([], s)
  | s, c :: text =>
    match m.next s c with
    | some (tokens, s') => (m.read s' text).map fun (rest, s'') => (tokens ++ rest, s'')
    | none => none

/-- The tokens of a whole text. -/
def scan (m : Scanner σ τ) (s : σ) (text : List Char) : Option (List τ) :=
  match m.read s text with
  | some (tokens, s') => (m.finish s').map (tokens ++ ·)
  | none => none

@[simp] theorem read_nil : m.read s [] = some ([], s) := rfl

/-- A character that leads on. -/
theorem read_cons {c : Char} (hc : m.next s c = some (tokens, s'))
    (h : m.read s' text = some (tokens', s'')) :
    m.read s (c :: text) = some (tokens ++ tokens', s'') := by
  rw [read, hc]
  dsimp only
  rw [h]
  rfl

/-- **Pieces are read one after the other.** -/
theorem read_append (h : m.read s text = some (tokens, s'))
    (h' : m.read s' text' = some (tokens', s'')) :
    m.read s (text ++ text') = some (tokens ++ tokens', s'') := by
  induction text generalizing s tokens with
  | nil =>
    obtain ⟨rfl, rfl⟩ := Prod.mk.inj (Option.some.inj h)
    exact h'
  | cons c text ih =>
    rw [read] at h
    cases hc : m.next s c with
    | none => rw [hc] at h; cases h
    | some out =>
      obtain ⟨first, mid⟩ := out
      rw [hc] at h
      obtain ⟨⟨rest, last⟩, hrest, heq⟩ := Option.map_eq_some_iff.1 h
      obtain ⟨rfl, rfl⟩ := Prod.mk.inj heq
      rw [List.cons_append, List.append_assoc]
      exact read_cons hc (ih hrest)

/-- **A text that ends where it may** is scanned as what it puts out. -/
theorem scan_of_read (h : m.read s text = some (tokens, s')) (hfin : m.finish s' = some tokens') :
    m.scan s text = some (tokens ++ tokens') := by
  rw [scan, h]
  dsimp only
  rw [hfin]
  rfl

end Scanner

end VcOperator
