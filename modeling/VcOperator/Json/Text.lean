import VcOperator.Json.Value
/-!
# JSON texts

The text of a value, as `serde_json`'s pretty printer writes it, and the
parser that reads a text. The members of an object stand in the order of
the text. How a double is written and read is a parameter, and the limit
on the nesting of a text is left out.
-/

namespace VcOperator

namespace Json

/-- How doubles are written, and read: a literal with a fraction or an exponent, or an
integer that neither `u64` nor `i64` holds. -/
structure Floats where
  print : UInt64 → List Char
  parse : List Char → Option UInt64

/-! ## The printer -/

/-- A hexadecimal digit. -/
def hexDigit (n : ℕ) : Char := Nat.digitChar n

/-- A character of a string. -/
def escape (c : Char) : List Char :=
  if c = '"' then ['\\', '"']
  else if c = '\\' then ['\\', '\\']
  else if c.toNat = 8 then ['\\', 'b']
  else if c.toNat = 12 then ['\\', 'f']
  else if c = '\n' then ['\\', 'n']
  else if c = '\r' then ['\\', 'r']
  else if c = '\t' then ['\\', 't']
  else if c.toNat < 32 then
    ['\\', 'u', '0', '0', hexDigit (c.toNat / 16), hexDigit (c.toNat % 16)]
  else [c]

/-- A string. -/
def quote (s : String) : List Char := '"' :: (s.toList.flatMap escape ++ ['"'])

/-- A number. -/
def printNumber (floats : Floats) : Number → List Char
  | .posInt n => Nat.toDigits 10 n.toNat
  | .negInt n => '-' :: Nat.toDigits 10 n.toInt.natAbs
  | .float bits => floats.print bits

/-- A new line, at a level. -/
def newline (level : ℕ) : List Char := '\n' :: List.replicate (2 * level) ' '

mutual

/-- A value, at a level. -/
def pretty (floats : Floats) (level : ℕ) : Value → List Char
  | .null => ['n', 'u', 'l', 'l']
  | .bool true => ['t', 'r', 'u', 'e']
  | .bool false => ['f', 'a', 'l', 's', 'e']
  | .number n => printNumber floats n
  | .string s => quote s
  | .array [] => ['[', ']']
  | .array (v :: vs) =>
    '[' :: (newline (level + 1) ++ pretty floats (level + 1) v ++ prettyElements floats level vs)
  | .object [] => ['\x7b', '\x7d']
  | .object ((k, v) :: ms) =>
    '\x7b' :: (newline (level + 1) ++ quote k ++ [':', ' '] ++ pretty floats (level + 1) v ++
      prettyMembers floats level ms)

/-- The elements after the first, and the end of the array. -/
def prettyElements (floats : Floats) (level : ℕ) : List Value → List Char
  | [] => newline level ++ [']']
  | v :: vs =>
    ',' :: (newline (level + 1) ++ pretty floats (level + 1) v ++ prettyElements floats level vs)

/-- The members after the first, and the end of the object. -/
def prettyMembers (floats : Floats) (level : ℕ) : List (String × Value) → List Char
  | [] => newline level ++ ['\x7d']
  | (k, v) :: ms =>
    ',' :: (newline (level + 1) ++ quote k ++ [':', ' '] ++ pretty floats (level + 1) v ++
      prettyMembers floats level ms)

end

/-- `serde_json::to_vec_pretty`. -/
def toVecPretty (floats : Floats) (v : Value) : String := String.ofList (pretty floats 0 v)

/-! ## The parser -/

/-- Blank space. -/
def isSpace (c : Char) : Bool := c = ' ' || c = '\n' || c = '\t' || c = '\r'

/-- A text from its first character that is not blank on. -/
def skip (cs : List Char) : List Char := cs.dropWhile isSpace

/-- The value of a hexadecimal digit. -/
def hexValue (c : Char) : Option ℕ :=
  if '0' ≤ c ∧ c ≤ '9' then some (c.toNat - 48)
  else if 'a' ≤ c ∧ c ≤ 'f' then some (c.toNat - 87)
  else if 'A' ≤ c ∧ c ≤ 'F' then some (c.toNat - 55)
  else none

/-- The four digits of an escape. -/
def hexValues (a b c d : Char) : Option ℕ := do
  return (((← hexValue a) * 16 + (← hexValue b)) * 16 + (← hexValue c)) * 16 + (← hexValue d)

/-- The character an escape of one letter stands for. -/
def unescape : Char → Option Char
  | '"' => some '"'
  | '\\' => some '\\'
  | '/' => some '/'
  | 'b' => some (Char.ofNat 8)
  | 'f' => some (Char.ofNat 12)
  | 'n' => some '\n'
  | 'r' => some '\r'
  | 't' => some '\t'
  | _ => none

/-- The rest of a string, up to its closing quote. Two escapes that are the halves of a
surrogate pair are one character, and a half alone is refused. -/
def parseString : List Char → Option (List Char × List Char)
  | [] => none
  | '"' :: rest => some ([], rest)
  | '\\' :: 'u' :: a :: b :: c :: d :: rest =>
    match hexValues a b c d with
    | none => none
    | some n =>
      if n < 0xD800 ∨ 0xDFFF < n then
        (parseString rest).map fun p => (Char.ofNat n :: p.1, p.2)
      else
        match rest with
        | '\\' :: 'u' :: a' :: b' :: c' :: d' :: rest' =>
          match hexValues a' b' c' d' with
          | none => none
          | some m =>
            if n ≤ 0xDBFF ∧ 0xDC00 ≤ m ∧ m ≤ 0xDFFF then
              (parseString rest').map fun p =>
                (Char.ofNat (0x10000 + (n - 0xD800) * 0x400 + (m - 0xDC00)) :: p.1, p.2)
            else none
        | _ => none
  | '\\' :: c :: rest =>
    match unescape c with
    | none => none
    | some e => (parseString rest).map fun p => (e :: p.1, p.2)
  | c :: rest =>
    if c.toNat < 32 ∨ c = '\\' then none else (parseString rest).map fun p => (c :: p.1, p.2)

/-- A character that goes on with a number. -/
def inNumber (c : Char) : Bool :=
  c.isDigit || c = '.' || c = 'e' || c = 'E' || c = '+' || c = '-'

/-- An integer with these digits. -/
def integer (floats : Floats) (negative : Bool) (digits : List Char) : Option Number :=
  let n := Nat.ofDigitChars 10 digits 0
  if negative then
    if 0 < n ∧ n ≤ 2 ^ 63 then some (.negInt (Int64.ofInt (-n)))
    else (floats.parse ('-' :: digits)).map .float
  else if n < 2 ^ 64 then some (.posInt (UInt64.ofNat n))
  else (floats.parse digits).map .float

/-- The rest of a number, from its first digit on. -/
def parseDigits (floats : Floats) (negative : Bool) (cs : List Char) :
    Option (Number × List Char) :=
  let digits := cs.takeWhile Char.isDigit
  let rest := cs.dropWhile Char.isDigit
  let tail := rest.takeWhile inNumber
  match digits with
  | [] => none
  | '0' :: _ :: _ => none
  | _ =>
    if tail = [] then (integer floats negative digits).map fun n => (n, rest)
    else
      (floats.parse ((if negative then ['-'] else []) ++ digits ++ tail)).map fun bits =>
        (.float bits, rest.dropWhile inNumber)

/-- A number. -/
def parseNumber (floats : Floats) : List Char → Option (Number × List Char)
  | '-' :: rest => parseDigits floats true rest
  | rest => parseDigits floats false rest

/-- A key and its colon. -/
def parseKey (cs : List Char) : Option (String × List Char) :=
  match skip cs with
  | '"' :: rest =>
    match parseString rest with
    | some (k, rest) =>
      match skip rest with
      | ':' :: rest => some (String.ofList k, rest)
      | _ => none
    | none => none
  | _ => none

mutual

/-- A value, in at most so many steps. -/
def parse (floats : Floats) : ℕ → List Char → Option (Value × List Char)
  | 0, _ => none
  | n + 1, cs =>
    match skip cs with
    | 'n' :: 'u' :: 'l' :: 'l' :: rest => some (.null, rest)
    | 't' :: 'r' :: 'u' :: 'e' :: rest => some (.bool true, rest)
    | 'f' :: 'a' :: 'l' :: 's' :: 'e' :: rest => some (.bool false, rest)
    | '"' :: rest => (parseString rest).map fun p => (.string (String.ofList p.1), p.2)
    | '[' :: rest =>
      match skip rest with
      | ']' :: rest => some (.array [], rest)
      | _ => do
        let (v, rest) ← parse floats n rest
        let (vs, rest) ← parseElements floats n rest
        return (.array (v :: vs), rest)
    | '\x7b' :: rest =>
      match skip rest with
      | '\x7d' :: rest => some (.object [], rest)
      | _ => do
        let (k, rest) ← parseKey rest
        let (v, rest) ← parse floats n rest
        let (ms, rest) ← parseMembers floats n rest
        return (.object ((k, v) :: ms), rest)
    | cs => (parseNumber floats cs).map fun p => (.number p.1, p.2)

/-- The elements after the first, and the end of the array. -/
def parseElements (floats : Floats) : ℕ → List Char → Option (List Value × List Char)
  | 0, _ => none
  | n + 1, cs =>
    match skip cs with
    | ']' :: rest => some ([], rest)
    | ',' :: rest => do
      let (v, rest) ← parse floats n rest
      let (vs, rest) ← parseElements floats n rest
      return (v :: vs, rest)
    | _ => none

/-- The members after the first, and the end of the object. -/
def parseMembers (floats : Floats) : ℕ → List Char → Option (List (String × Value) × List Char)
  | 0, _ => none
  | n + 1, cs =>
    match skip cs with
    | '\x7d' :: rest => some ([], rest)
    | ',' :: rest => do
      let (k, rest) ← parseKey rest
      let (v, rest) ← parse floats n rest
      let (ms, rest) ← parseMembers floats n rest
      return ((k, v) :: ms, rest)
    | _ => none

end

/-- `serde_json::from_str`, as far as the text goes: one value, and blank space around it. -/
def fromStr (floats : Floats) (text : String) : Option Value :=
  match parse floats (text.toList.length + 1) text.toList with
  | some (v, rest) => if skip rest = [] then some v else none
  | none => none

end Json

end VcOperator
