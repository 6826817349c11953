import Mathlib.Algebra.Group.Nat.Defs
import Mathlib.Data.List.Basic
/-!
# Text and the strings of the operating system

A `String` of the source is text. An `OsString` or a `PathBuf` is, on Unix,
any list of bytes; text is one whose bytes are its UTF-8.
-/

namespace VcOperator

/-- `char::is_whitespace`: the characters with the property `White_Space`. -/
def isWhitespace (c : Char) : Bool :=
  9 ≤ c.toNat && c.toNat ≤ 13 || 0x2000 ≤ c.toNat && c.toNat ≤ 0x200A ||
    c.toNat ∈ [0x20, 0x85, 0xA0, 0x1680, 0x2028, 0x2029, 0x202F, 0x205F, 0x3000]

/-- `str::trim`. -/
def trim (text : List Char) : List Char :=
  ((text.dropWhile isWhitespace).reverse.dropWhile isWhitespace).reverse

/-- `str::trim` leaves nothing. -/
def isBlank (text : String) : Bool := text.toList.all isWhitespace

/-- `str::lines`: a line that ends may end with a carriage return too, and nothing is no
last line. -/
def textLines (text : String) : List (List Char) :=
  let pieces := text.toList.splitOn '\n'
  (pieces.dropLast.map fun line => if line.getLast? = some '\r' then line.dropLast else line) ++
    pieces.getLast?.toList.filter (· ≠ [])

/-- `str::replace` of a character. -/
def replace (c : Char) (new text : String) : String :=
  String.ofList (text.toList.flatMap fun d => if d = c then new.toList else [d])

theorem toList_replace (c : Char) (new text : String) :
    (replace c new text).toList =
      text.toList.flatMap fun d => if d = c then new.toList else [d] :=
  String.toList_ofList

/-- Texts that are not empty and have no separator in them can be told from the joined text. -/
theorem intercalate_inj {sep : Char} {xs ys : List (List Char)}
    (hx : ∀ x ∈ xs, x ≠ [] ∧ sep ∉ x) (hy : ∀ y ∈ ys, y ≠ [] ∧ sep ∉ y)
    (h : [sep].intercalate xs = [sep].intercalate ys) : xs = ys := by
  have hsplit : ∀ zs : List (List Char), (∀ z ∈ zs, z ≠ [] ∧ sep ∉ z) →
      zs = (([sep].intercalate zs).splitOn sep).filter (· ≠ []) := by
    intro zs hz
    rcases eq_or_ne zs [] with rfl | hne
    · simp
    · rw [List.splitOn_intercalate sep (fun z hmem => (hz z hmem).2) hne, List.filter_eq_self.2]
      exact fun z hmem => by simpa using (hz z hmem).1
  rw [hsplit xs hx, h, ← hsplit ys hy]

/-- A character of the joined text is the separator, or one of a text. -/
theorem notMem_intercalate {sep c : Char} (hne : c ≠ sep) {xs : List (List Char)}
    (h : ∀ x ∈ xs, c ∉ x) : c ∉ [sep].intercalate xs := by
  induction xs with
  | nil => exact List.not_mem_nil
  | cons x xs ih =>
    have hrest := ih fun y hy => h y (List.mem_cons_of_mem _ hy)
    have hx := h x List.mem_cons_self
    cases xs with
    | nil => simpa using hx
    | cons y xs =>
      rw [List.intercalate_cons_cons]
      simp [hx, hne, hrest]

/-! ## File names -/

/-- What is before the last dot of a file name, if there is one, and what is after it. -/
def rsplitDot (name : String) : Option String × String :=
  match name.toList.reverse.dropWhile (· ≠ '.') with
  | [] => (none, name)
  | _ :: before =>
    (some (String.ofList before.reverse),
      String.ofList (name.toList.reverse.takeWhile (· ≠ '.')).reverse)

/-- `Path::extension` of a file name. -/
def extension (name : String) : Option String :=
  if name = ".." then none
  else
    match rsplitDot name with
    | (some before, after) => if before = "" then none else some after
    | (none, _) => none

/-- `Path::file_stem` of a file name. -/
def fileStem (name : String) : String :=
  if name = ".." then name
  else
    match rsplitDot name with
    | (some before, _) => if before = "" then name else before
    | (none, _) => name

/-! ## Ill-formed UTF-8 -/

namespace Utf8

/-- How many bytes a character takes that begins with this one: none does, where it is 0. -/
def width (b : UInt8) : ℕ :=
  if b < 0x80 then 1
  else if 0xC2 ≤ b ∧ b ≤ 0xDF then 2
  else if 0xE0 ≤ b ∧ b ≤ 0xEF then 3
  else if 0xF0 ≤ b ∧ b ≤ 0xF4 then 4
  else 0

/-- A byte that continues a character. -/
def isCont (b : UInt8) : Bool := 0x80 ≤ b && b ≤ 0xBF

/-- The second byte of a character that begins with `b`. -/
def isSecond (b c : UInt8) : Bool :=
  if b = 0xE0 then 0xA0 ≤ c && c ≤ 0xBF
  else if b = 0xED then 0x80 ≤ c && c ≤ 0x9F
  else if b = 0xF0 then 0x90 ≤ c && c ≤ 0xBF
  else if b = 0xF4 then 0x80 ≤ c && c ≤ 0x8F
  else isCont c

/-- The bytes after `b` that continue its character, as far as they go. -/
def continuation (b : UInt8) : List UInt8 → List UInt8
  | [] => []
  | c :: bytes =>
    if 2 ≤ width b ∧ isSecond b c then c :: (bytes.take (width b - 2)).takeWhile isCont else []

/-- The character of a first byte and of all that continue it. -/
def character (b : UInt8) (cont : List UInt8) : Char :=
  let first := if width b = 1 then b.toNat else b.toNat % 2 ^ (7 - width b)
  Char.ofNat (cont.foldl (fun n c => n * 64 + c.toNat % 64) first)

/-- The characters of a list of bytes: what is ill-formed becomes a replacement character. -/
def lossyChars : ℕ → List UInt8 → List Char
  | 0, _ => []
  | _, [] => []
  | fuel + 1, b :: bytes =>
    let cont := continuation b bytes
    let c := if cont.length + 1 = width b then character b cont else Char.ofNat 0xFFFD
    c :: lossyChars fuel (bytes.drop cont.length)

/-- `String::from_utf8_lossy`. -/
def fromUtf8Lossy (bytes : List UInt8) : String :=
  match String.fromUTF8? ⟨bytes.toArray⟩ with
  | some text => text
  | none => String.ofList (lossyChars bytes.length bytes)

-- an overlong slash, half a character and a lone byte between letters
example : lossyChars 7 [0x61, 0xC0, 0xAF, 0xE2, 0x82, 0x62, 0xFF] =
    ['a', '\uFFFD', '\uFFFD', '\uFFFD', 'b', '\uFFFD'] := by decide

/-- A byte that is not of ASCII is no newline. -/
theorem ne_ofNat_add {n k : ℕ} (hk : 128 ≤ k) (hlt : n + k < 256) :
    (10 : UInt8) ≠ UInt8.ofNat (n + k) := by
  intro heq
  have h := congrArg UInt8.toNat heq
  rw [UInt8.toNat_ofNat_of_lt' hlt] at h
  have h10 : (10 : UInt8).toNat = 10 := rfl
  omega

/-- **Only a newline has the byte of a newline.** -/
theorem eq_newline_of_mem {c : Char} (h : (10 : UInt8) ∈ String.utf8EncodeChar c) : c = '\n' := by
  have hlow (n : ℕ) : (10 : UInt8) ≠ UInt8.ofNat (n % 0x40 + 0x80) :=
    ne_ofNat_add (by decide) (by omega)
  rw [String.utf8EncodeChar] at h
  split_ifs at h with h1 h2 h3
  · have hlt : c.val.toNat < 2 ^ 8 := by omega
    have heq := congrArg UInt8.toNat (List.mem_singleton.1 h)
    rw [UInt8.toNat_ofNat_of_lt' hlt] at heq
    have hten : c.toNat = 10 := heq.symm
    rw [← Char.ofNat_toNat c, hten]
  -- the first byte of a longer character says how long it is
  · have hfirst : (10 : UInt8) ≠ UInt8.ofNat (c.val.toNat / 64 % 0x20 + 0xc0) :=
      ne_ofNat_add (by decide) (by omega)
    simp only [List.mem_cons, List.not_mem_nil, hlow, hfirst, or_false] at h
  · have hfirst : (10 : UInt8) ≠ UInt8.ofNat (c.val.toNat / 4096 % 0x10 + 0xe0) :=
      ne_ofNat_add (by decide) (by omega)
    simp only [List.mem_cons, List.not_mem_nil, hlow, hfirst, or_false] at h
  · have hfirst : (10 : UInt8) ≠ UInt8.ofNat (c.val.toNat / 262144 % 0x08 + 0xf0) :=
      ne_ofNat_add (by decide) (by omega)
    simp only [List.mem_cons, List.not_mem_nil, hlow, hfirst, or_false] at h

/-- The bytes of a text, character by character. -/
theorem toList_toUTF8 (text : String) :
    text.toUTF8.data.toList = text.toList.flatMap String.utf8EncodeChar := by
  have h : text.toUTF8 = text.toList.utf8Encode := by
    rw [String.toUTF8_eq_toByteArray, ← String.toByteArray_ofList, String.ofList_toList]
  rw [h, List.utf8Encode]
  simp

theorem newline_notMem {text : String} (h : '\n' ∉ text.toList) :
    (10 : UInt8) ∉ text.toUTF8.data.toList := by
  rw [toList_toUTF8]
  intro hmem
  obtain ⟨c, hc, hbyte⟩ := List.mem_flatMap.1 hmem
  rw [eq_newline_of_mem hbyte] at hc
  exact h hc

/-- The bytes of a text are those of no other text. -/
theorem fromUTF8?_toUTF8 (text : String) :
    String.fromUTF8? ⟨text.toUTF8.data.toList.toArray⟩ = some text := by
  rw [String.fromUTF8?]
  simp [String.fromUTF8, text.isValidUTF8]

/-- A character is read off its bytes, whatever comes after them. -/
theorem eq_of_utf8EncodeChar_append {c d : Char} {a b : List UInt8}
    (h : String.utf8EncodeChar c ++ a = String.utf8EncodeChar d ++ b) : c = d := by
  have hdecode (c : Char) (a : List UInt8) :
      (String.utf8EncodeChar c ++ a).toByteArray.utf8DecodeChar? 0 = some c := by
    rw [List.toByteArray_append]
    exact ByteArray.utf8DecodeChar?_utf8EncodeChar_append
  have heq := hdecode c a
  rw [h, hdecode d b, Option.some.injEq] at heq
  exact heq.symm

/-- **The beginning of a text** is what the beginning of its bytes is that is a text. -/
theorem prefix_of_flatMap_prefix {cs ds : List Char}
    (h : cs.flatMap String.utf8EncodeChar <+: ds.flatMap String.utf8EncodeChar) : cs <+: ds := by
  induction cs generalizing ds with
  | nil => exact List.nil_prefix
  | cons c cs ih =>
    obtain ⟨rest, hrest⟩ := h
    rw [List.flatMap_cons, List.append_assoc] at hrest
    cases ds with
    | nil =>
      have hnil := (List.append_eq_nil_iff.1 hrest).1
      exact absurd hnil (by simp)
    | cons d ds =>
      rw [List.flatMap_cons] at hrest
      obtain rfl := eq_of_utf8EncodeChar_append hrest
      exact (List.prefix_cons_inj c).2 (ih ⟨rest, List.append_cancel_left hrest⟩)

end Utf8

/-- `OsString`, and `PathBuf`. -/
structure OsString where
  bytes : List UInt8
  deriving DecidableEq

namespace OsString

/-- `OsString::from`. -/
def ofString (text : String) : OsString := ⟨text.toUTF8.data.toList⟩

/-- `to_string_lossy`. -/
def toStringLossy (s : OsString) : String := Utf8.fromUtf8Lossy s.bytes

/-- **Text is not lost.** -/
@[simp] theorem toStringLossy_ofString (text : String) :
    (ofString text).toStringLossy = text := by
  rw [toStringLossy, Utf8.fromUtf8Lossy, ofString, Utf8.fromUTF8?_toUTF8]

theorem ofString_injective : Function.Injective ofString := fun a b h => by
  rw [← toStringLossy_ofString a, h, toStringLossy_ofString]

@[simp] theorem ofString_inj {a b : String} : ofString a = ofString b ↔ a = b :=
  ofString_injective.eq_iff

/-- The bytes are those of a text. -/
def IsText (s : OsString) : Prop := ∃ text, s = ofString text

theorem isText_ofString (text : String) : (ofString text).IsText := ⟨text, rfl⟩

theorem IsText.ofString_toStringLossy {s : OsString} (h : s.IsText) :
    ofString s.toStringLossy = s := by
  obtain ⟨text, rfl⟩ := h
  rw [toStringLossy_ofString]

/-- `Path::join`, of a relative path. -/
def join (path : OsString) (child : String) : OsString :=
  if path.bytes = [] ∨ path.bytes.getLast? = some 0x2F then ⟨path.bytes ++ (ofString child).bytes⟩
  else ⟨path.bytes ++ 0x2F :: (ofString child).bytes⟩

end OsString

end VcOperator
