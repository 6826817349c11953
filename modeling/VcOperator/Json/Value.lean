import Mathlib.Algebra.Group.Nat.Defs
import Mathlib.Data.List.Basic
import Mathlib.Data.Int.Notation
/-!
# JSON values

`serde_json::Value`, as far as the mux reads it: member lookup, the three
casts, and member insertion. An object is `serde_json`'s default map, a
`BTreeMap`: its members stand in key order, and `insertMember` keeps them
there. Numbers keep the three forms `serde_json::Number` has, because the
casts tell them apart.
-/

namespace VcOperator

/-- `serde_json::Number`. -/
inductive Number where
  /-- A non-negative integer that fits `u64`. -/
  | posInt (n : UInt64)
  /-- A negative integer that fits `i64`. -/
  | negInt (n : Int64)
  /-- A double, by its bits. -/
  | float (bits : UInt64)
  deriving DecidableEq, Repr

/-- `serde_json::Value`. -/
inductive Value where
  | null
  | bool (b : Bool)
  | number (n : Number)
  | string (s : String)
  | array (elements : List Value)
  | object (members : List (String × Value))
  deriving Repr

namespace Value

mutual

/-- Two values are equal, or they are not. -/
def decEq : (v w : Value) → Decidable (v = w)
  | null, null => isTrue rfl
  | bool a, bool b => decidable_of_iff (a = b) (by simp)
  | number a, number b => decidable_of_iff (a = b) (by simp)
  | string a, string b => decidable_of_iff (a = b) (by simp)
  | array as, array bs =>
    match decEqs as bs with
    | isTrue h => isTrue (congrArg array h)
    | isFalse h => isFalse fun heq => h (array.inj heq)
  | object as, object bs =>
    match decEqMembers as bs with
    | isTrue h => isTrue (congrArg object h)
    | isFalse h => isFalse fun heq => h (object.inj heq)
  | null, bool _ | null, number _ | null, string _ | null, array _ | null, object _
  | bool _, null | bool _, number _ | bool _, string _ | bool _, array _ | bool _, object _
  | number _, null | number _, bool _ | number _, string _ | number _, array _
  | number _, object _ | string _, null | string _, bool _ | string _, number _
  | string _, array _ | string _, object _ | array _, null | array _, bool _
  | array _, number _ | array _, string _ | array _, object _ | object _, null
  | object _, bool _ | object _, number _ | object _, string _ | object _, array _ =>
    isFalse nofun

/-- So are two lists of them. -/
def decEqs : (vs ws : List Value) → Decidable (vs = ws)
  | [], [] => isTrue rfl
  | v :: vs, w :: ws =>
    match decEq v w, decEqs vs ws with
    | isTrue h, isTrue h' => isTrue (by rw [h, h'])
    | isFalse h, _ => isFalse fun heq => h (List.cons.inj heq).1
    | _, isFalse h => isFalse fun heq => h (List.cons.inj heq).2
  | [], _ :: _ | _ :: _, [] => isFalse nofun

/-- And the members of two objects. -/
def decEqMembers : (ms ns : List (String × Value)) → Decidable (ms = ns)
  | [], [] => isTrue rfl
  | (k, v) :: ms, (l, w) :: ns =>
    if hk : k = l then
      match decEq v w, decEqMembers ms ns with
      | isTrue h, isTrue h' => isTrue (by rw [hk, h, h'])
      | isFalse h, _ => isFalse fun heq => h (Prod.mk.inj (List.cons.inj heq).1).2
      | _, isFalse h => isFalse fun heq => h (List.cons.inj heq).2
    else isFalse fun heq => hk (Prod.mk.inj (List.cons.inj heq).1).1
  | [], _ :: _ | _ :: _, [] => isFalse nofun

end

instance : DecidableEq Value := decEq

/-- The member of an object under a key. -/
def member (key : String) : List (String × Value) → Option Value
  | [] => none
  | (k, v) :: ms => if k = key then some v else member key ms

/-- Insertion into a map held in key order; an existing member is replaced. -/
def insertMember (key : String) (v : Value) : List (String × Value) → List (String × Value)
  | [] => [(key, v)]
  | (k, w) :: ms =>
    if k = key then (key, v) :: ms
    else if key < k then (key, v) :: (k, w) :: ms
    else (k, w) :: insertMember key v ms

/-- `Value::get` at a string index: `None` on anything but an object. -/
def get (key : String) : Value → Option Value
  | object ms => member key ms
  | _ => none

/-- `Value::as_str`. -/
def asStr : Value → Option String
  | string s => some s
  | _ => none

/-- `Value::is_null`. -/
def isNull : Value → Bool
  | null => true
  | _ => false

/-- `Value::as_i64`. -/
def asI64 : Value → Option ℤ
  | number (.posInt n) => if n.toNat < 2 ^ 63 then some n.toNat else none
  | number (.negInt n) => some n.toInt
  | _ => none

/-- `Value::as_u64`. -/
def asU64 : Value → Option ℕ
  | number (.posInt n) => some n.toNat
  | _ => none

/-! ## Lookup after insertion -/

@[simp] theorem member_insertMember (key : String) (v : Value) (ms : List (String × Value)) :
    member key (insertMember key v ms) = some v := by
  induction ms with
  | nil => simp [insertMember, member]
  | cons m ms ih =>
    obtain ⟨k, w⟩ := m
    rw [insertMember]
    split_ifs with hk hlt
    · simp [member]
    · simp [member]
    · rw [member, if_neg hk, ih]

theorem member_insertMember_ne {key key' : String} (h : key' ≠ key) (v : Value)
    (ms : List (String × Value)) :
    member key' (insertMember key v ms) = member key' ms := by
  induction ms with
  | nil => simp [insertMember, member, Ne.symm h]
  | cons m ms ih =>
    obtain ⟨k, w⟩ := m
    rw [insertMember]
    split_ifs with hk hlt
    · subst hk
      simp [member, Ne.symm h]
    · simp [member, Ne.symm h]
    · rw [member, member, ih]

/-- A value with a member is an object. -/
theorem exists_members_of_get {key : String} {v w : Value} (h : v.get key = some w) :
    ∃ ms, v = object ms := by
  cases v with
  | object ms => exact ⟨ms, rfl⟩
  | null | bool _ | number _ | string _ | array _ => cases h

end Value

end VcOperator
