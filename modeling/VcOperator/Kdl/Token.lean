import VcOperator.Common.Scanner
/-!
# The tokens of KDL

The lexical rules of the KDL document language, version 1: strings with
escapes, raw strings, bare words, white space, line breaks, and the three
kinds of comment. A slash-escaped line break is one token.
-/

namespace VcOperator

namespace Kdl

/-- A token. -/
inductive Token where
  /-- A string, by its value. -/
  | text (value : String)
  /-- A run of identifier characters: an identifier, a number or a keyword. -/
  | bare (text : String)
  | equals | openBrace | closeBrace | openParen | closeParen | semicolon | slashdash
  /-- A character of white space, or a comment within a line. -/
  | space
  | newline
  /-- A comment to the end of the line, and the end of the line. -/
  | comment
  /-- A line break that is escaped. -/
  | escline
  deriving DecidableEq, Repr

/-- Where the scanner stands. `esc` says that a line break is being escaped. -/
inductive State where
  | start
  /-- After a carriage return: a line feed belongs to it. -/
  | cr
  | bare (text : List Char)
  | string (value : List Char)
  | escape (value : List Char)
  /-- After `\u`, and after the brace the digits. -/
  | unicode (value : List Char) (digits : Option (List Char))
  | raw (hashes : ℕ) (value : List Char)
  /-- After a quote, and as many hashes. -/
  | rawEnd (hashes seen : ℕ) (value : List Char)
  | escline
  | slash (esc : Bool)
  /-- In a line comment, and whether there is anything in it. -/
  | lineComment (esc any : Bool)
  | block (esc : Bool) (depth : ℕ)
  | blockStar (esc : Bool) (depth : ℕ)
  | blockSlash (esc : Bool) (depth : ℕ)
  deriving DecidableEq, Repr

/-! ## Characters -/

/-- A line break. -/
def isNewline (c : Char) : Bool :=
  c.toNat ∈ [0x0D, 0x0A, 0x85, 0x0C, 0x2028, 0x2029]

/-- A space, or the byte order mark. -/
def isSpace (c : Char) : Bool :=
  c.toNat ∈ [0x09, 0x20, 0xA0, 0x1680, 0x202F, 0x205F, 0x3000, 0xFEFF] ||
    0x2000 ≤ c.toNat && c.toNat ≤ 0x200A

/-- A character of an identifier. -/
def isIdentifierChar (c : Char) : Bool :=
  !isNewline c && !isSpace c && c ∉ "\\/()\x7b\x7d<>;[]=,\"".toList

/-- The value of an escape of one letter. -/
def unescape (c : Char) : Option Char :=
  match c with
  | '"' => some '"'
  | '\\' => some '\\'
  | '/' => some '/'
  | 'b' => some '\x08'
  | 'f' => some '\x0C'
  | 'n' => some '\n'
  | 'r' => some '\r'
  | 't' => some '\t'
  | _ => none

/-- The value of a hexadecimal digit. -/
def hexValue (c : Char) : Option ℕ :=
  if c.isDigit then some (c.toNat - '0'.toNat)
  else if 'a' ≤ c ∧ c ≤ 'f' then some (c.toNat - 'a'.toNat + 10)
  else if 'A' ≤ c ∧ c ≤ 'F' then some (c.toNat - 'A'.toNat + 10)
  else none

/-- The character of an escape with digits. -/
def scalar (digits : List Char) : Option Char :=
  let n := digits.foldl (fun n c => n * 16 + (hexValue c).getD 0) 0
  if digits ≠ [] ∧ n.isValidChar then some (Char.ofNat n) else none

/-- What begins a raw string, before the quote. -/
def isRawPrefix (text : List Char) : Bool :=
  match text with
  | 'r' :: hashes => hashes.all (· = '#')
  | _ => false

/-! ## The scanner -/

/-- A character between two tokens. -/
def between (c : Char) : Option (List Token × State) :=
  match c with
  | '"' => some ([], .string [])
  | '\x7b' => some ([.openBrace], .start)
  | '\x7d' => some ([.closeBrace], .start)
  | '(' => some ([.openParen], .start)
  | ')' => some ([.closeParen], .start)
  | '=' => some ([.equals], .start)
  | ';' => some ([.semicolon], .start)
  | '/' => some ([], .slash false)
  | '\\' => some ([], .escline)
  | '\r' => some ([.newline], .cr)
  | c =>
    if isNewline c then some ([.newline], .start)
    else if isSpace c then some ([.space], .start)
    else if isIdentifierChar c then some ([], .bare [c])
    else none

/-- The end of a line comment, or of an escaped line. -/
def endLine (esc : Bool) (c : Char) : List Token × State :=
  ([if esc then .escline else .comment], if c = '\r' then .cr else .start)

/-- The end of a comment within a line. -/
def endBlock (esc : Bool) (depth : ℕ) : List Token × State :=
  if 1 < depth then ([], .block esc (depth - 1))
  else if esc then ([], .escline)
  else ([.space], .start)

/-- The step of the scanner. -/
def next : State → Char → Option (List Token × State)
  | .start, c => between c
  | .cr, c => if c = '\n' then some ([], .start) else between c
  | .bare text, c =>
    if isIdentifierChar c then some ([], .bare (text ++ [c]))
    else if c = '"' ∧ isRawPrefix text then some ([], .raw (text.length - 1) [])
    else (between c).map fun (tokens, s) => (.bare (String.ofList text) :: tokens, s)
  | .string value, c =>
    if c = '"' then some ([.text (String.ofList value)], .start)
    else if c = '\\' then some ([], .escape value)
    else some ([], .string (value ++ [c]))
  | .escape value, c =>
    if c = 'u' then some ([], .unicode value none)
    else (unescape c).map fun d => ([], .string (value ++ [d]))
  | .unicode value none, c => if c = '\x7b' then some ([], .unicode value (some [])) else none
  | .unicode value (some digits), c =>
    if c = '\x7d' then (scalar digits).map fun d => ([], .string (value ++ [d]))
    else if (hexValue c).isSome ∧ digits.length < 6 then
      some ([], .unicode value (some (digits ++ [c])))
    else none
  | .raw hashes value, c =>
    if c ≠ '"' then some ([], .raw hashes (value ++ [c]))
    else if hashes = 0 then some ([.text (String.ofList value)], .start)
    else some ([], .rawEnd hashes 0 value)
  | .rawEnd hashes seen value, c =>
    -- what looked like the end belongs to the value, if it is none
    let value' := value ++ '"' :: List.replicate seen '#'
    if c = '#' then
      if seen + 1 = hashes then some ([.text (String.ofList value)], .start)
      else some ([], .rawEnd hashes (seen + 1) value)
    else if c = '"' then some ([], .rawEnd hashes 0 value')
    else some ([], .raw hashes (value' ++ [c]))
  | .escline, c =>
    if isNewline c then some (endLine true c)
    else if isSpace c then some ([], .escline)
    else if c = '/' then some ([], .slash true)
    else none
  | .slash esc, c =>
    if c = '/' then some ([], .lineComment esc false)
    else if c = '*' then some ([], .block esc 1)
    else if c = '-' ∧ esc = false then some ([.slashdash], .start)
    else none
  | .lineComment esc any, c =>
    if !isNewline c then some ([], .lineComment esc true)
    else if any then some (endLine esc c)
    else none
  | .block esc depth, c =>
    if c = '*' then some ([], .blockStar esc depth)
    else if c = '/' then some ([], .blockSlash esc depth)
    else some ([], .block esc depth)
  | .blockStar esc depth, c =>
    if c = '/' then some (endBlock esc depth)
    else if c = '*' then some ([], .blockStar esc depth)
    else some ([], .block esc depth)
  | .blockSlash esc depth, c =>
    if c = '*' then some ([], .block esc (depth + 1))
    else if c = '/' then some ([], .blockSlash esc depth)
    else some ([], .block esc depth)

/-- The end of the text. -/
def finish : State → Option (List Token)
  | .start | .cr => some []
  | .bare text => some [.bare (String.ofList text)]
  | .lineComment esc true => some [if esc then .escline else .comment]
  | _ => none

/-- The scanner. -/
def scanner : Scanner State Token := ⟨next, finish⟩

/-- The tokens of a text. -/
def tokens (text : String) : Option (List Token) := scanner.scan .start text.toList

-- a raw string, an escape, a comment in a comment, and a line that is continued
example : tokens "a r#\"\\\"\"#\"\\u\x7b41\x7d\"/* /* */ */1 \\ // b\n;" = some
    [.bare "a", .space, .text "\\\"", .text "A", .space, .bare "1", .space, .escline,
      .semicolon] := by decide +kernel

/-! ## Strings -/

/-- **A string that is escaped character by character** has the characters for its value. -/
theorem read_string {f : Char → List Char}
    (hf : ∀ value c, scanner.read (.string value) (f c) = some ([], .string (value ++ [c])))
    (value text : List Char) :
    scanner.read (.string value) (text.flatMap f) = some ([], .string (value ++ text)) := by
  induction text generalizing value with
  | nil => rw [List.flatMap_nil, List.append_nil, Scanner.read_nil]
  | cons c text ih =>
    rw [List.flatMap_cons, List.append_cons]
    exact Scanner.read_append (hf value c) (ih _)

/-! ## Pieces of a document -/

/-- A text with these tokens, after which another token may begin. -/
def IsPiece (text : String) (ts : List Token) : Prop :=
  scanner.read .start text.toList = some (ts, .start)

instance (text : String) (ts : List Token) : Decidable (IsPiece text ts) :=
  inferInstanceAs (Decidable (_ = _))

/-- **Pieces stand one after the other.** -/
theorem IsPiece.append {text text' : String} {ts ts' : List Token} (h : IsPiece text ts)
    (h' : IsPiece text' ts') : IsPiece (text ++ text') (ts ++ ts') := by
  rw [IsPiece, String.toList_append]
  exact Scanner.read_append h h'

theorem IsPiece.tokens {text : String} {ts : List Token} (h : IsPiece text ts) :
    Kdl.tokens text = some ts := by
  rw [Kdl.tokens, Scanner.scan_of_read h rfl, List.append_nil]

end Kdl

end VcOperator
