import VcOperator.Kdl.Token
/-!
# KDL documents

The node grammar of the KDL document language, version 1, over the tokens of
a text. A node ends with a line break, a semicolon, a line comment or the
text. Where `closing` is set, the brace that closes a block also ends the last
node of the block, as later versions of the language have it.
-/

namespace VcOperator

namespace Kdl

/-- What a value says. -/
inductive Data where
  | text (value : String)
  | number (text : String)
  | bool (b : Bool)
  | null
  deriving DecidableEq, Repr

/-- A value, with its type annotation. -/
structure Value where
  type : Option String
  data : Data
  deriving DecidableEq, Repr

/-- An argument, or a property. -/
inductive Entry where
  | arg (value : Value)
  | prop (key : String) (value : Value)
  deriving DecidableEq, Repr

/-- A node, with its type annotation. -/
inductive Node where
  | mk (type : Option String) (name : String) (entries : List Entry) (children : List Node)
  deriving Repr

/-- A text as an argument. -/
def Entry.textArg (text : String) : Entry := .arg ⟨none, .text text⟩

/-- A text as the value of a property. -/
def Entry.textProp (key text : String) : Entry := .prop key ⟨none, .text text⟩

/-! ## Bare words -/

/-- Digits of one kind, with underscores after the first. -/
def isDigits (digit : Char → Bool) : List Char → Bool
  | [] => false
  | c :: text => digit c && text.all fun d => digit d || d = '_'

/-- A text without its sign. -/
def stripSign : List Char → List Char
  | '+' :: text => text
  | '-' :: text => text
  | text => text

/-- A decimal number. -/
def isDecimal (text : List Char) : Bool :=
  let (mantissa, exponent) := (stripSign text).span fun c => c ≠ 'e' ∧ c ≠ 'E'
  let (whole, fraction) := mantissa.span fun c => c ≠ '.'
  isDigits Char.isDigit whole &&
    (fraction = [] || isDigits Char.isDigit (fraction.drop 1)) &&
    (exponent = [] || isDigits Char.isDigit (stripSign (exponent.drop 1)))

/-- A number. -/
def isNumber (text : List Char) : Bool :=
  match stripSign text with
  | '0' :: 'x' :: digits => isDigits (fun c => (hexValue c).isSome) digits
  | '0' :: 'o' :: digits => isDigits (fun c => '0' ≤ c && c ≤ '7') digits
  | '0' :: 'b' :: digits => isDigits (fun c => c = '0' || c = '1') digits
  | _ => isDecimal text

/-- An identifier without quotes. -/
def isBareIdentifier (text : String) : Bool :=
  text ∉ ["true", "false", "null"] &&
    match text.toList with
    | [] => false
    | c :: rest =>
      if c = '+' ∨ c = '-' then !(rest.head?.any Char.isDigit) else !c.isDigit

/-! ## Values and entries -/

/-- An identifier. -/
def identifier : Token → Option String
  | .text value => some value
  | .bare text => if isBareIdentifier text then some text else none
  | _ => none

/-- What a value is, apart from its type annotation. -/
def data : Token → Option Data
  | .text value => some (.text value)
  | .bare text =>
    if text = "true" then some (.bool true)
    else if text = "false" then some (.bool false)
    else if text = "null" then some .null
    else if isNumber text.toList then some (.number text)
    else none
  | _ => none

/-- A type annotation, if there is one. -/
def annotation : List Token → Option (Option String × List Token)
  | .openParen :: t :: .closeParen :: ts => (identifier t).map fun type => (some type, ts)
  | .openParen :: _ => none
  | ts => some (none, ts)

/-- A value. -/
def value (ts : List Token) : Option (Value × List Token) := do
  match ← annotation ts with
  | (type, t :: ts) => return (⟨type, ← data t⟩, ts)
  | (_, []) => none

/-- A property or an argument. -/
def entry : List Token → Option (Entry × List Token)
  | t :: .equals :: ts => do
    let key ← identifier t
    let (value, ts) ← value ts
    return (.prop key value, ts)
  | ts => do
    let (value, ts) ← value ts
    return (.arg value, ts)

/-- White space within a node. -/
def nodeSpace (ts : List Token) : List Token := ts.dropWhile fun t => t = .space || t = .escline

/-- White space between nodes. -/
def lineSpace (ts : List Token) : List Token :=
  ts.dropWhile fun t => t = .space || t = .newline || t = .comment

/-- An entry stands here. -/
def startsEntry : List Token → Bool
  | .text _ :: _ | .bare _ :: _ | .openParen :: _ => true
  | _ => false

/-- The entries of a node, each after white space, and what is left from there on. -/
def entries : ℕ → List Token → Option (List Entry × List Token)
  | 0, _ => none
  | fuel + 1, ts =>
    let rest := nodeSpace ts
    if rest.length = ts.length then some ([], ts)
    else
      match rest with
      | .slashdash :: rest =>
        if startsEntry (nodeSpace rest) then do
          let (_, rest) ← entry (nodeSpace rest)
          entries fuel rest
        else some ([], ts)
      | rest =>
        if startsEntry rest then do
          let (first, rest) ← entry rest
          let (more, rest) ← entries fuel rest
          return (first :: more, rest)
        else some ([], ts)

/-! ## Nodes -/

/-- The end of a node. -/
def terminator (closing : Bool) (ts : List Token) : Option (List Token) :=
  match nodeSpace ts with
  | [] => some []
  | .newline :: ts | .semicolon :: ts | .comment :: ts => some ts
  | .closeBrace :: ts => if closing then some (.closeBrace :: ts) else none
  | _ => none

mutual

/-- A node. -/
def node (closing : Bool) : ℕ → List Token → Option (Node × List Token)
  | 0, _ => none
  | fuel + 1, ts => do
    match ← annotation ts with
    | (type, t :: ts) => do
      let name ← identifier t
      let (entries, ts) ← entries (ts.length + 1) ts
      let (children, ts) ← children closing fuel ts
      let ts ← terminator closing ts
      return (.mk type name entries children, ts)
    | (_, []) => none

/-- The children of a node, if it has any. -/
def children (closing : Bool) : ℕ → List Token → Option (List Node × List Token)
  | 0, _ => none
  | fuel + 1, ts =>
    match nodeSpace ts with
    | .openBrace :: ts => block closing fuel ts
    | .slashdash :: ts => do
      match nodeSpace ts with
      | .openBrace :: ts =>
        let (_, ts) ← block closing fuel ts
        return ([], ts)
      | _ => none
    | _ => some ([], ts)

/-- Nodes, and the brace after them. -/
def block (closing : Bool) : ℕ → List Token → Option (List Node × List Token)
  | 0, _ => none
  | fuel + 1, ts => do
    match ← nodes closing fuel ts with
    | (ns, .closeBrace :: ts) => return (ns, ts)
    | _ => none

/-- Nodes, up to a brace that closes them or the end. -/
def nodes (closing : Bool) : ℕ → List Token → Option (List Node × List Token)
  | 0, _ => none
  | fuel + 1, ts =>
    match lineSpace ts with
    | [] => some ([], [])
    | .closeBrace :: ts => some ([], .closeBrace :: ts)
    | .slashdash :: ts => do
      let (_, ts) ← node closing fuel (nodeSpace ts)
      nodes closing fuel ts
    | ts => do
      let (first, ts) ← node closing fuel ts
      let (more, ts) ← nodes closing fuel ts
      return (first :: more, ts)

end

/-- The nodes of a document. -/
def document (closing : Bool) (ts : List Token) : Option (List Node) :=
  match nodes closing (4 * ts.length + 4) ts with
  | some (ns, []) => some ns
  | _ => none

/-- The nodes of a text. -/
def parse (closing : Bool) (text : String) : Option (List Node) :=
  (tokens text).bind (document closing)

end Kdl

end VcOperator
