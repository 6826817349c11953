import VcOperator.Json.Text
/-!
# Layouts

`serde_json` prints through a formatter, which puts blank space between the
tokens of a text. One printer over such a layout is both of its printers:
the pretty one, and the compact one of `to_vec` and `to_string`.
-/

namespace VcOperator

namespace Json

/-- A formatter: what stands before a value or a bracket that has a level, and after a
colon. It is blank space. -/
structure Layout where
  line : ℕ → List Char
  colon : List Char
  line_blank : ∀ level, ∀ c ∈ line level, isSpace c = true
  colon_blank : ∀ c ∈ colon, isSpace c = true

namespace Layout

/-- `PrettyFormatter`. -/
def pretty : Layout where
  line := newline
  colon := [' ']
  line_blank level c hc := by
    rcases List.mem_cons.1 hc with rfl | hc
    · rfl
    · rw [List.eq_of_mem_replicate hc]
      rfl
  colon_blank c hc := by
    rw [List.mem_singleton.1 hc]
    rfl

/-- `CompactFormatter`. -/
def compact : Layout where
  line _ := []
  colon := []
  line_blank _ c hc := by cases hc
  colon_blank c hc := by cases hc

@[simp] theorem compact_line (level : ℕ) : compact.line level = [] := rfl

@[simp] theorem compact_colon : compact.colon = [] := rfl

end Layout

mutual

/-- A value, at a level. -/
def print (layout : Layout) (floats : Floats) (level : ℕ) : Value → List Char
  | .null => ['n', 'u', 'l', 'l']
  | .bool true => ['t', 'r', 'u', 'e']
  | .bool false => ['f', 'a', 'l', 's', 'e']
  | .number n => printNumber floats n
  | .string s => quote s
  | .array [] => ['[', ']']
  | .array (v :: vs) =>
    '[' :: (layout.line (level + 1) ++ print layout floats (level + 1) v ++
      printElements layout floats level vs)
  | .object [] => ['\x7b', '\x7d']
  | .object ((k, v) :: ms) =>
    '\x7b' :: (layout.line (level + 1) ++ quote k ++ ':' :: layout.colon ++
      print layout floats (level + 1) v ++ printMembers layout floats level ms)

/-- The elements after the first, and the end of the array. -/
def printElements (layout : Layout) (floats : Floats) (level : ℕ) : List Value → List Char
  | [] => layout.line level ++ [']']
  | v :: vs =>
    ',' :: (layout.line (level + 1) ++ print layout floats (level + 1) v ++
      printElements layout floats level vs)

/-- The members after the first, and the end of the object. -/
def printMembers (layout : Layout) (floats : Floats) (level : ℕ) :
    List (String × Value) → List Char
  | [] => layout.line level ++ ['\x7d']
  | (k, v) :: ms =>
    ',' :: (layout.line (level + 1) ++ quote k ++ ':' :: layout.colon ++
      print layout floats (level + 1) v ++ printMembers layout floats level ms)

end

/-- `serde_json::to_string`, and `to_vec`. -/
def toText (floats : Floats) (v : Value) : String :=
  String.ofList (print .compact floats 0 v)

mutual

/-- The pretty printer prints in its layout. -/
theorem pretty_eq_print (floats : Floats) (level : ℕ) (v : Value) :
    pretty floats level v = print .pretty floats level v := by
  match v with
  | .null => rw [pretty, print]
  | .bool true => rw [pretty, print]
  | .bool false => rw [pretty, print]
  | .number n => rw [pretty, print]
  | .string s => rw [pretty, print]
  | .array [] => rw [pretty, print]
  | .array (v :: vs) =>
    rw [pretty, print, pretty_eq_print floats _ v, prettyElements_eq_print floats _ vs]
    rfl
  | .object [] => rw [pretty, print]
  | .object ((k, v) :: ms) =>
    rw [pretty, print, pretty_eq_print floats _ v, prettyMembers_eq_print floats _ ms]
    simp [Layout.pretty]

theorem prettyElements_eq_print (floats : Floats) (level : ℕ) (vs : List Value) :
    prettyElements floats level vs = printElements .pretty floats level vs := by
  match vs with
  | [] =>
    rw [prettyElements, printElements]
    rfl
  | v :: vs =>
    rw [prettyElements, printElements, pretty_eq_print floats _ v,
      prettyElements_eq_print floats _ vs]
    rfl

theorem prettyMembers_eq_print (floats : Floats) (level : ℕ) (ms : List (String × Value)) :
    prettyMembers floats level ms = printMembers .pretty floats level ms := by
  match ms with
  | [] =>
    rw [prettyMembers, printMembers]
    rfl
  | (k, v) :: ms =>
    rw [prettyMembers, printMembers, pretty_eq_print floats _ v,
      prettyMembers_eq_print floats _ ms]
    simp [Layout.pretty]

end

end Json

end VcOperator
