import VcOperator.Shell.Token
/-!
# What the shell runs

The words of a simple command and what the POSIX shell makes of them: the tilde a
word begins with stands for a home directory, up to the first slash, unless one of
these characters is quoted; quotes are removed; and only what comes out of another expansion
is split into fields. Where a word has a command substitution or a pattern, what
becomes of it depends on other programs and on the files, and nothing is said of it.
-/

namespace VcOperator

namespace Shell

/-- The home directories a shell knows, by login name; that of the empty name is `HOME`. -/
abbrev Homes := String → Option String

/-- The words before which there is no simple command. -/
def reservedWords : List String :=
  ["!", "\x7b", "\x7d", "case", "do", "done", "elif", "else", "esac", "fi", "for", "if", "in",
    "then", "until", "while"]

/-- The characters of a pattern. -/
def patternChars : List Char := "*?[".toList

/-! ## Expansion -/

/-- A login name, and what comes after it: it ends before a slash or with the word, and none of
it is quoted. -/
def loginName : List Piece → Option (List Char × List Piece)
  | [] => some ([], [])
  | .plain c :: pieces =>
    if c = '/' then some ([], .plain c :: pieces)
    else (loginName pieces).map fun (name, rest) => (c :: name, rest)
  | _ :: _ => none

/-- Tilde expansion. A name that is not known is left as it is. -/
def expandTilde (homes : Homes) : List Piece → List Piece
  | .plain '~' :: pieces =>
    match loginName pieces with
    | some (name, rest) =>
      match homes (String.ofList name) with
      | some dir => quoted dir ++ rest
      | none => .plain '~' :: pieces
    | none => .plain '~' :: pieces
  | pieces => pieces

/-- What is left of a piece when quotes are removed. -/
def Piece.char : Piece → Option Char
  | .plain c => if c ∈ patternChars then none else some c
  | .quoted c => some c
  | .substitution _ _ => none

/-- The field of a word. -/
def field (homes : Homes) (pieces : List Piece) : Option String :=
  ((expandTilde homes pieces).mapM Piece.char).map String.ofList

/-- The pieces of a word. -/
def Token.pieces : Token → Option (List Piece)
  | .word pieces => some pieces
  | _ => none

/-- The fields of a simple command: its name and its arguments. -/
def argv (homes : Homes) (text : String) : Option (List String) :=
  match (tokens text).bind (·.mapM Token.pieces) with
  | some (first :: words) =>
    if first ∈ reservedWords.map plain ∨ .plain '=' ∈ first then none
    else (first :: words).mapM (field homes)
  | _ => none

-- a home directory, a tilde in quotes and one within a word
example : argv (fun name => if name = "" then some "/home/u" else none) "cp ~/a '~/a' b~/a ''" =
    some ["cp", "/home/u/a", "~/a", "b~/a", ""] := by
  decide +kernel

/-! ## Words -/

variable {homes : Homes} {text : String}

theorem mapM_char {f : Char → Piece} {cs : List Char} (h : ∀ c ∈ cs, (f c).char = some c) :
    (cs.map f).mapM Piece.char = some cs := by
  induction cs with
  | nil => rfl
  | cons c cs ih =>
    rw [List.map_cons, List.mapM_cons, h c List.mem_cons_self,
      ih fun d hd => h d (List.mem_cons_of_mem _ hd)]
    rfl

/-- A word without a tilde before it is not expanded. -/
theorem expandTilde_of_ne {pieces : List Piece} (h : pieces.head? ≠ some (.plain '~')) :
    expandTilde homes pieces = pieces := by
  unfold expandTilde
  split
  · exact absurd rfl h
  · rfl

/-- **A text in quotes is its field.** -/
theorem field_quoted (homes : Homes) (text : String) : field homes (quoted text) = some text := by
  have hhead : (quoted text).head? ≠ some (.plain '~') := by
    rw [quoted, List.head?_map]
    cases text.toList.head? <;> simp
  have hchars : (quoted text).mapM Piece.char = some text.toList := mapM_char fun _ _ => rfl
  rw [field, expandTilde_of_ne hhead, hchars, Option.map_some, String.ofList_toList]

theorem loginName_plain (cs : List Char) : loginName (cs.map .plain) =
    some (cs.takeWhile (· ≠ '/'), (cs.dropWhile (· ≠ '/')).map .plain) := by
  induction cs with
  | nil => rfl
  | cons c cs ih =>
    rw [List.map_cons, loginName, ih, List.takeWhile_cons, List.dropWhile_cons]
    by_cases hc : c = '/' <;> simp [hc]

/-- The name after the tilde that a text begins with. -/
def tildeName (text : String) : Option String :=
  match text.toList with
  | '~' :: rest => some (String.ofList (rest.takeWhile (· ≠ '/')))
  | _ => none

theorem mapM_char_plain {cs : List Char} (h : ∀ c ∈ cs, c ∉ patternChars) :
    (cs.map Piece.plain).mapM Piece.char = some cs :=
  mapM_char fun c hc => if_neg (h c hc)

theorem mapM_char_append {pieces pieces' : List Piece} {cs cs' : List Char}
    (h : pieces.mapM Piece.char = some cs) (h' : pieces'.mapM Piece.char = some cs') :
    (pieces ++ pieces').mapM Piece.char = some (cs ++ cs') := by
  rw [List.mapM_append, h, h']
  rfl

/-- A text that does not begin with a tilde. -/
theorem field_no_tilde (htilde : ¬ ∃ rest, text.toList = '~' :: rest)
    (hplain : ∀ c ∈ text.toList, c ∉ patternChars) : field homes (plain text) = some text := by
  have hhead : (plain text).head? ≠ some (.plain '~') := by
    rw [plain, List.head?_map]
    cases hlist : text.toList with
    | nil => simp
    | cons c rest =>
      intro heq
      obtain rfl : c = '~' := Piece.plain.inj (Option.some.inj heq)
      exact htilde ⟨rest, hlist⟩
  rw [field, expandTilde_of_ne hhead, plain, mapM_char_plain hplain, Option.map_some,
    String.ofList_toList]

/-- And one that does. -/
theorem field_tilde {rest : List Char} (htext : text.toList = '~' :: rest)
    (hplain : ∀ c ∈ text.toList, c ∉ patternChars) :
    field homes (plain text) =
      match homes (String.ofList (rest.takeWhile (· ≠ '/'))) with
      | some dir => some (dir ++ String.ofList (rest.dropWhile (· ≠ '/')))
      | none => some text := by
  have hafter : ∀ c ∈ rest.dropWhile (· ≠ '/'), c ∉ patternChars := fun c hc =>
    hplain c (htext ▸ List.mem_cons_of_mem _ ((List.dropWhile_suffix _).subset hc))
  rw [field, plain, htext, List.map_cons, expandTilde, loginName_plain]
  dsimp only
  cases homes (String.ofList (rest.takeWhile (· ≠ '/'))) with
  | none =>
    dsimp only
    rw [← List.map_cons (f := Piece.plain), ← htext, mapM_char_plain hplain, Option.map_some,
      String.ofList_toList]
  | some dir =>
    have hdir : (quoted dir).mapM Piece.char = some dir.toList := mapM_char fun _ _ => rfl
    dsimp only
    rw [mapM_char_append hdir (mapM_char_plain hafter), Option.map_some, String.ofList_append,
      String.ofList_toList]

/-- **A text without quotes is its field** unless the shell knows the home directory that it begins
with, and that is another text. -/
theorem field_plain_iff (hplain : ∀ c ∈ text.toList, c ∉ patternChars) :
    field homes (plain text) = some text ↔
      ∀ name, tildeName text = some name → ∀ dir, homes name = some dir → dir = "~" ++ name := by
  by_cases htilde : ∃ rest, text.toList = '~' :: rest
  · obtain ⟨rest, htext⟩ := htilde
    have hname : tildeName text = some (String.ofList (rest.takeWhile (· ≠ '/'))) := by
      rw [tildeName, htext]
      rfl
    have hsplit : text = "~" ++ String.ofList (rest.takeWhile (· ≠ '/')) ++
        String.ofList (rest.dropWhile (· ≠ '/')) := by
      apply String.toList_injective
      simp [htext]
    rw [field_tilde htext hplain, hname]
    simp only [Option.some.injEq, forall_eq']
    generalize String.ofList (rest.takeWhile (· ≠ '/')) = name at hsplit
    cases homes name with
    | none => simp
    | some dir =>
      simp only [Option.some.injEq, forall_eq']
      rw [hsplit, String.append_left_inj]
  · have hname : tildeName text = none := by
      unfold tildeName
      split
      · rename_i rest heq
        exact absurd ⟨rest, heq⟩ htilde
      · rfl
    rw [field_no_tilde htilde hplain, hname]
    simp

/-- **A command of words** is run as their fields. -/
theorem argv_words {first : List Piece} {words : List (List Piece)}
    (h : tokens text = some ((first :: words).map .word))
    (hfirst : ¬ (first ∈ reservedWords.map plain ∨ .plain '=' ∈ first)) :
    argv homes text = (first :: words).mapM (field homes) := by
  have hpieces : ∀ ws : List (List Piece), (ws.map Token.word).mapM Token.pieces = some ws := by
    intro ws
    induction ws with
    | nil => rfl
    | cons w ws ih =>
      rw [List.map_cons, List.mapM_cons, ih]
      rfl
  rw [argv, h, Option.bind_some, hpieces]
  exact if_neg hfirst

end Shell

end VcOperator
