import Mathlib.Algebra.GroupWithZero.Nat
import VcOperator.Json.Value
/-!
# The length of an encoded value

The length of `serde_json::to_vec`: compact output, where a string costs
its bytes in UTF-8 and the escapes of the characters that need one. How a
double prints is left to a parameter.
-/

namespace VcOperator

/-- The bytes a character takes inside a JSON string. -/
def escapedLen (c : Char) : ℕ :=
  if c = '"' ∨ c = '\\' ∨ c = '\n' ∨ c = '\r' ∨ c = '\t' ∨ c.toNat = 8 ∨ c.toNat = 12 then 2
  else if c.toNat < 32 then 6
  else c.utf8Size

/-- The bytes of a quoted string. -/
def quotedLen (s : String) : ℕ := 2 + (s.toList.map escapedLen).sum

/-- The bytes of a number. -/
def Number.encodedLen (floatLen : UInt64 → ℕ) : Number → ℕ
  | .posInt n => (toString n.toNat).length
  | .negInt n => (toString n.toInt).length
  | .float bits => floatLen bits

mutual

/-- The bytes of a value. -/
def Value.encodedLen (floatLen : UInt64 → ℕ) : Value → ℕ
  | .null => 4
  | .bool b => if b then 4 else 5
  | .number n => n.encodedLen floatLen
  | .string s => quotedLen s
  | .array elements => 2 + (elements.length - 1) + elementsLen floatLen elements
  | .object members => 2 + (members.length - 1) + membersLen floatLen members

/-- The bytes of the elements of an array, without its brackets and commas. -/
def elementsLen (floatLen : UInt64 → ℕ) : List Value → ℕ
  | [] => 0
  | v :: vs => v.encodedLen floatLen + elementsLen floatLen vs

/-- The bytes of the members of an object, without its braces and commas. -/
def membersLen (floatLen : UInt64 → ℕ) : List (String × Value) → ℕ
  | [] => 0
  | (k, v) :: ms => quotedLen k + 1 + v.encodedLen floatLen + membersLen floatLen ms

end

end VcOperator
