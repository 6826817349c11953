import VcOperator.Common.Scanner
/-!
# The tokens of the shell

The token recognition and the quoting rules of the POSIX shell: words with
quotes, operators, numbers before a redirection, comments. Of the expansions
the scanner knows a command substitution of plain words. Where it meets
another one, a backquote, a here-document or a line that is continued outside
of quotes, it gives up.
-/

namespace VcOperator

namespace Shell

/-- A piece of a word. -/
inductive Piece where
  | plain (c : Char)
  /-- A character that quotes keep as it is. -/
  | quoted (c : Char)
  /-- A command substitution, and whether it is in double quotes. -/
  | substitution (quoted : Bool) (command : String)
  deriving DecidableEq, Repr

/-- A token. -/
inductive Token where
  | word (pieces : List Piece)
  /-- The number of a file descriptor, before a redirection. -/
  | ioNumber (digits : List Piece)
  /-- An operator, or the end of a line. -/
  | operator (text : String)
  deriving DecidableEq, Repr

/-- Where the scanner stands. -/
inductive State where
  | blank
  | word (pieces : List Piece)
  | single (pieces : List Piece)
  | double (pieces : List Piece)
  /-- After a backslash. -/
  | escape (pieces : List Piece)
  | doubleEscape (pieces : List Piece)
  /-- After a dollar sign, and whether it is in double quotes. -/
  | dollar (quoted : Bool) (pieces : List Piece)
  | substitution (quoted : Bool) (pieces : List Piece) (command : List Char)
  | operator (text : List Char)
  | comment
  deriving DecidableEq, Repr

/-! ## Characters and operators -/

/-- A blank. -/
def isBlankChar (c : Char) : Bool := c = ' ' || c = '\t'

/-- The operators. Those of here-documents are not read. -/
def operators : List (List Char) :=
  ["&", "&&", "(", ")", ";", ";;", "\n", "|", "||", "<", "<&", "<>", ">", ">&", ">>",
    ">|"].map String.toList

/-- A character that an operator begins with. -/
def beginsOperator (c : Char) : Bool := operators.contains [c]

/-- A character that a plain word in a command substitution may have. -/
def isCommandChar (c : Char) : Bool := c.isAlphanum || c ∈ " -_./=".toList

/-- A digit that is not quoted. -/
def isPlainDigit : Piece → Bool
  | .plain c => c.isDigit
  | _ => false

/-- The token of a word that ends before this character. -/
def endWord (pieces : List Piece) (c : Char) : Token :=
  if (c = '<' ∨ c = '>') ∧ pieces ≠ [] ∧ pieces.all isPlainDigit then .ioNumber pieces
  else .word pieces

/-! ## The scanner -/

/-- A character in a word, outside of quotes. -/
def inWord (pieces : List Piece) (c : Char) : Option (List Token × State) :=
  if c = '\'' then some ([], .single pieces)
  else if c = '"' then some ([], .double pieces)
  else if c = '\\' then some ([], .escape pieces)
  else if c = '$' then some ([], .dollar false pieces)
  else if c.toNat = 0x60 then none
  else some ([], .word (pieces ++ [.plain c]))

/-- A character between two tokens. -/
def between (c : Char) : Option (List Token × State) :=
  if isBlankChar c then some ([], .blank)
  else if beginsOperator c then some ([], .operator [c])
  else if c = '#' then some ([], .comment)
  else inWord [] c

/-- The step of the scanner. -/
def next : State → Char → Option (List Token × State)
  | .blank, c => between c
  | .word pieces, c =>
    if isBlankChar c then some ([endWord pieces c], .blank)
    else if beginsOperator c then some ([endWord pieces c], .operator [c])
    else inWord pieces c
  | .single pieces, c =>
    if c = '\'' then some ([], .word pieces) else some ([], .single (pieces ++ [.quoted c]))
  | .double pieces, c =>
    if c = '"' then some ([], .word pieces)
    else if c = '\\' then some ([], .doubleEscape pieces)
    else if c = '$' then some ([], .dollar true pieces)
    else if c.toNat = 0x60 then none
    else some ([], .double (pieces ++ [.quoted c]))
  | .escape pieces, c =>
    if c = '\n' then none else some ([], .word (pieces ++ [.quoted c]))
  | .doubleEscape pieces, c =>
    if c = '\n' then some ([], .double pieces)
    else if c = '$' ∨ c = '"' ∨ c = '\\' ∨ c.toNat = 0x60 then
      some ([], .double (pieces ++ [.quoted c]))
    else some ([], .double (pieces ++ [.quoted '\\', .quoted c]))
  | .dollar quoted pieces, c => if c = '(' then some ([], .substitution quoted pieces []) else none
  | .substitution quoted pieces command, c =>
    if c = ')' then
      let pieces := pieces ++ [.substitution quoted (String.ofList command)]
      some ([], if quoted then .double pieces else .word pieces)
    else if isCommandChar c then some ([], .substitution quoted pieces (command ++ [c]))
    else none
  | .operator text, c =>
    if operators.contains (text ++ [c]) then some ([], .operator (text ++ [c]))
    else if text = ['<'] ∧ c = '<' then none
    else (between c).map fun (tokens, s) => (.operator (String.ofList text) :: tokens, s)
  | .comment, c => if c = '\n' then some ([], .operator [c]) else some ([], .comment)

/-- The end of the text. -/
def finish : State → Option (List Token)
  | .blank | .comment => some []
  | .word pieces => some [.word pieces]
  | .operator text => some [.operator (String.ofList text)]
  | _ => none

/-- The scanner. -/
def scanner : Scanner State Token := ⟨next, finish⟩

/-- The tokens of a text. -/
def tokens (text : String) : Option (List Token) := scanner.scan .blank text.toList

/-- The pieces of a text without quotes. -/
def plain (text : String) : List Piece := text.toList.map .plain

/-- The pieces of a text in quotes. -/
def quoted (text : String) : List Piece := text.toList.map .quoted

-- quotes within a word, a redirection and a comment
example : tokens "a'b c'\"$(d e)\\$\" 2>&1; # f" = some
    [.word (plain "a" ++ quoted "b c" ++ [.substitution true "d e"] ++ quoted "$"),
      .ioNumber (plain "2"), .operator ">&", .word (plain "1"), .operator ";"] := by
  decide +kernel

/-! ## Words -/

variable {text text' : List Char} {ts ts' : List Token}

/-- The characters that quote, end a word or begin something else. -/
def specialChars : List Char := Char.ofNat 0x60 :: " \t\n&();|<>'\"\\$#".toList

/-- A character that stands for itself in a word. -/
def isPlainChar (c : Char) : Bool := c ∉ specialChars

theorem inWord_of_isPlainChar {c : Char} (h : isPlainChar c = true) (pieces : List Piece) :
    inWord pieces c = some ([], .word (pieces ++ [.plain c])) := by
  have hne : ∀ d ∈ specialChars, c ≠ d := fun d hd heq => of_decide_eq_true h (heq ▸ hd)
  have htick : c.toNat ≠ 0x60 := fun heq =>
    hne _ List.mem_cons_self (by rw [← heq, Char.ofNat_toNat])
  rw [inWord, if_neg (hne _ (by decide)), if_neg (hne _ (by decide)), if_neg (hne _ (by decide)),
    if_neg (hne _ (by decide)), if_neg htick]

theorem isBlankChar_of_isPlainChar {c : Char} (h : isPlainChar c = true) :
    isBlankChar c = false := by
  by_contra hblank
  rw [Bool.not_eq_false, isBlankChar, Bool.or_eq_true, decide_eq_true_eq, decide_eq_true_eq]
    at hblank
  rcases hblank with rfl | rfl <;> exact absurd h (by decide)

theorem beginsOperator_of_isPlainChar {c : Char} (h : isPlainChar c = true) :
    beginsOperator c = false := by
  have hspecial : operators.all (·.all fun d => decide (d ∈ specialChars)) = true := by decide
  simp only [List.all_eq_true, decide_eq_true_eq] at hspecial
  rw [beginsOperator, List.contains_eq_mem, decide_eq_false_iff_not]
  intro hop
  exact of_decide_eq_true h (hspecial _ hop c (List.mem_singleton_self c))

theorem read_plain (h : ∀ c ∈ text, isPlainChar c = true) (pieces : List Piece) :
    scanner.read (.word pieces) text = some ([], .word (pieces ++ text.map .plain)) := by
  induction text generalizing pieces with
  | nil => rw [List.map_nil, List.append_nil, Scanner.read_nil]
  | cons c text ih =>
    have hc := h c List.mem_cons_self
    have hstep : scanner.next (.word pieces) c = some ([], .word (pieces ++ [.plain c])) := by
      rw [← inWord_of_isPlainChar hc]
      simp [scanner, next, isBlankChar_of_isPlainChar hc, beginsOperator_of_isPlainChar hc]
    rw [List.map_cons, List.append_cons]
    exact Scanner.read_cons hstep (ih (fun d hd => h d (List.mem_cons_of_mem _ hd)) _)

/-- A word may begin with a character that stands for itself. -/
theorem read_blank_plain (hne : text ≠ []) (h : ∀ c ∈ text, isPlainChar c = true) :
    scanner.read .blank text = some ([], .word (text.map .plain)) := by
  cases text with
  | nil => exact absurd rfl hne
  | cons c text =>
    have hc := h c List.mem_cons_self
    have hhash : c ≠ '#' := by
      rintro rfl
      exact absurd hc (by decide)
    have hstep : scanner.next .blank c = some ([], .word [.plain c]) := by
      rw [← List.nil_append [Piece.plain c], ← inWord_of_isPlainChar hc]
      simp [scanner, next, between, isBlankChar_of_isPlainChar hc,
        beginsOperator_of_isPlainChar hc, hhash]
    exact Scanner.read_cons hstep (read_plain (fun d hd => h d (List.mem_cons_of_mem _ hd)) _)

/-- **A text that is kept in single quotes** character by character. -/
theorem read_single {f : Char → List Char}
    (hf : ∀ pieces c, scanner.read (.single pieces) (f c) =
      some ([], .single (pieces ++ [.quoted c])))
    (pieces : List Piece) (text : List Char) :
    scanner.read (.single pieces) (text.flatMap f) =
      some ([], .single (pieces ++ text.map .quoted)) := by
  induction text generalizing pieces with
  | nil => rw [List.flatMap_nil, List.map_nil, List.append_nil, Scanner.read_nil]
  | cons c text ih =>
    rw [List.flatMap_cons, List.map_cons, List.append_cons]
    exact Scanner.read_append (hf pieces c) (ih _)

/-- **A text in single quotes** is of the word it stands in. -/
theorem read_singleQuoted {f : Char → List Char}
    (hf : ∀ pieces c, scanner.read (.single pieces) (f c) =
      some ([], .single (pieces ++ [.quoted c])))
    (pieces : List Piece) (text : List Char) :
    scanner.read (.word pieces) (['\''] ++ (text.flatMap f ++ ['\''])) =
      some ([], .word (pieces ++ text.map .quoted)) := by
  have hopen : scanner.read (.word pieces) ['\''] = some ([], .single pieces) := rfl
  exact Scanner.read_append hopen (Scanner.read_append (read_single hf pieces text) rfl)

/-- And it may begin one. -/
theorem read_blank_singleQuoted {f : Char → List Char}
    (hf : ∀ pieces c, scanner.read (.single pieces) (f c) =
      some ([], .single (pieces ++ [.quoted c]))) (text : List Char) :
    scanner.read .blank (['\''] ++ (text.flatMap f ++ ['\''])) =
      some ([], .word (text.map .quoted)) := by
  have hopen : scanner.read .blank ['\''] = some ([], .single []) := rfl
  exact Scanner.read_append hopen (Scanner.read_append (read_single hf [] text) rfl)

/-! ## Commands -/

/-- A text whose tokens these are, and the last of them is a word. -/
def IsCommand (text : List Char) (ts : List Token) : Prop :=
  ∃ init pieces, scanner.read .blank text = some (init, .word pieces) ∧
    ts = init ++ [.word pieces]

/-- **A blank stands between two words.** -/
theorem IsCommand.blank (h : IsCommand text ts) (h' : IsCommand text' ts') :
    IsCommand (text ++ ' ' :: text') (ts ++ ts') := by
  obtain ⟨init, pieces, hread, rfl⟩ := h
  obtain ⟨init', pieces', hread', rfl⟩ := h'
  refine ⟨init ++ [.word pieces] ++ init', pieces', ?_, (List.append_assoc ..).symm⟩
  rw [List.append_assoc]
  exact Scanner.read_append hread (Scanner.read_cons rfl hread')

/-- **A semicolon stands between two commands.** -/
theorem IsCommand.semicolon (h : IsCommand text ts) (h' : IsCommand text' ts') :
    IsCommand (text ++ ';' :: ' ' :: text') (ts ++ .operator ";" :: ts') := by
  obtain ⟨init, pieces, hread, rfl⟩ := h
  obtain ⟨init', pieces', hread', rfl⟩ := h'
  have hsep : scanner.read (.word pieces) [';', ' '] =
      some ([.word pieces, .operator ";"], .blank) := rfl
  refine ⟨init ++ ([.word pieces, .operator ";"] ++ init'), pieces', ?_, by simp⟩
  exact Scanner.read_append hread (Scanner.read_append hsep hread')

theorem IsCommand.tokens {text : String} (h : IsCommand text.toList ts) :
    Shell.tokens text = some ts := by
  obtain ⟨init, pieces, hread, rfl⟩ := h
  exact Scanner.scan_of_read hread rfl

/-- Words, with a blank between each two. -/
theorem IsCommand.words {α : Type} {text : α → List Char} {word : α → Token}
    (h : ∀ a, IsCommand (text a) [word a]) (first : α) (more : List α) :
    IsCommand ([' '].intercalate ((first :: more).map text)) ((first :: more).map word) := by
  induction more generalizing first with
  | nil => simpa using h first
  | cons next more ih =>
    rw [List.map_cons, List.map_cons, List.intercalate_cons_cons, List.map_cons]
    simpa using (h first).blank (ih next)

/-- Commands, with a semicolon between each two. -/
theorem IsCommand.list {texts : List (List Char)} {tss : List (List Token)}
    (h : List.Forall₂ IsCommand texts tss) (hne : texts ≠ []) :
    IsCommand ([';', ' '].intercalate texts) ([.operator ";"].intercalate tss) := by
  induction h with
  | nil => exact absurd rfl hne
  | cons hfirst hmore ih =>
    cases hmore with
    | nil => simpa using hfirst
    | cons hnext hmore =>
      rw [List.intercalate_cons_cons, List.intercalate_cons_cons]
      simpa using hfirst.semicolon (ih (List.cons_ne_nil _ _))

end Shell

end VcOperator
