import VcOperator.Json.Print
/-!
# A value that is written is read back

The parser on the printer's text in any layout, piece by piece: a character
of a string, a string, a number, and then a value with the elements and
members in it. Doubles are left out, because how they are written is a
parameter.
-/

namespace VcOperator

namespace Json

variable {floats : Floats}

mutual

/-- A value without doubles. A negative number is negative. -/
def plain : Value → Bool
  | .null | .bool _ | .string _ => true
  | .number (.posInt _) => true
  | .number (.negInt n) => decide (n.toInt < 0)
  | .number (.float _) => false
  | .array vs => plainElements vs
  | .object ms => plainMembers ms

/-- And elements without any. -/
def plainElements : List Value → Bool
  | [] => true
  | v :: vs => plain v && plainElements vs

/-- And members. -/
def plainMembers : List (String × Value) → Bool
  | [] => true
  | (_, v) :: ms => plain v && plainMembers ms

end

/-! ## Blank space -/

@[simp] theorem skip_cons_of_not {c : Char} (h : isSpace c = false) (cs : List Char) :
    skip (c :: cs) = c :: cs := by
  rw [skip, List.dropWhile_cons_of_neg]
  simp [h]

/-- Blank space is skipped. -/
theorem skip_append {blank : List Char} (h : ∀ c ∈ blank, isSpace c = true) (cs : List Char) :
    skip (blank ++ cs) = skip cs := by
  induction blank with
  | nil => rfl
  | cons c blank ih =>
    have hc : isSpace c = true := h c (List.mem_cons_self ..)
    rw [List.cons_append, skip, List.dropWhile_cons_of_pos hc]
    exact ih fun d hd => h d (List.mem_cons_of_mem c hd)

@[simp] theorem skip_line (layout : Layout) (level : ℕ) (cs : List Char) :
    skip (layout.line level ++ cs) = skip cs := skip_append (layout.line_blank level) cs

@[simp] theorem skip_colon (layout : Layout) (cs : List Char) :
    skip (layout.colon ++ cs) = skip cs := skip_append layout.colon_blank cs

/-! ## Strings -/

theorem hexValues_control : ∀ n < 32,
    hexValues '0' '0' (hexDigit (n / 16)) (hexDigit (n % 16)) = some n := by decide

/-- **A character of a string is read back.** -/
theorem parseString_escape (c : Char) (rest : List Char) :
    parseString (escape c ++ rest) = (parseString rest).map fun p => (c :: p.1, p.2) := by
  have hback : Char.ofNat c.toNat = c := Char.ofNat_toNat c
  rw [escape]
  split_ifs with hquote hslash hb hf hn hr ht hcontrol
  · subst hquote
    simp [parseString, unescape]
  · subst hslash
    simp [parseString, unescape]
  · obtain rfl : c = Char.ofNat 8 := by rw [← hb, hback]
    simp [parseString, unescape]
  · obtain rfl : c = Char.ofNat 12 := by rw [← hf, hback]
    simp [parseString, unescape]
  · subst hn
    simp [parseString, unescape]
  · subst hr
    simp [parseString, unescape]
  · subst ht
    simp [parseString, unescape]
  · simp [parseString, hexValues_control _ hcontrol, hback,
      (by omega : c.toNat < 0xD800 ∨ 0xDFFF < c.toNat)]
  · rw [List.singleton_append, parseString.eq_def]
    split
    · rename_i h; cases h
    · rename_i h; exact absurd (List.cons.inj h).1 hquote
    · rename_i h; exact absurd (List.cons.inj h).1 hslash
    · rename_i h; exact absurd (List.cons.inj h).1 hslash
    · rename_i h
      obtain ⟨rfl, rfl⟩ := List.cons.inj h
      rw [if_neg (not_or.2 ⟨hcontrol, hslash⟩)]

/-- **A string is read back**, and what comes after it is left. -/
theorem parseString_quote (s rest : List Char) :
    parseString (s.flatMap escape ++ '"' :: rest) = some (s, rest) := by
  induction s with
  | nil => simp [parseString]
  | cons c s ih =>
    rw [List.flatMap_cons, List.append_assoc, parseString_escape, ih]
    rfl

/-- So is a key. -/
theorem parseKey_quote (k : String) (rest cs : List Char)
    (h : skip cs = quote k ++ ':' :: rest) : parseKey cs = some (k, rest) := by
  rw [parseKey, h]
  simp [quote, parseString_quote, isSpace]

/-- The key of a member, with what comes after it. -/
theorem parseKey_line (layout : Layout) (level : ℕ) (k : String) (value members rest : List Char) :
    parseKey (layout.line level ++ quote k ++ ':' :: layout.colon ++ value ++ members ++ rest) =
      some (k, layout.colon ++ (value ++ (members ++ rest))) := by
  refine parseKey_quote k _ _ ?_
  simp [quote, isSpace]

/-! ## Numbers -/

/-- A text that does not go on with a number. -/
def Stops (rest : List Char) : Prop := ∀ c ∈ rest.head?, inNumber c = false

theorem Stops.takeWhile {rest : List Char} (h : Stops rest) : rest.takeWhile inNumber = [] := by
  cases rest with
  | nil => rfl
  | cons c rest => rw [List.takeWhile_cons_of_neg (by simp [h c rfl])]

/-- The digits of a number end where the number does. -/
theorem span_digits (digits : List Char) {rest : List Char}
    (hdigits : ∀ c ∈ digits, c.isDigit = true) (h : Stops rest) :
    (digits ++ rest).takeWhile Char.isDigit = digits ∧
      (digits ++ rest).dropWhile Char.isDigit = rest := by
  induction digits with
  | nil =>
    cases rest with
    | nil => exact ⟨rfl, rfl⟩
    | cons c rest =>
      have hc : c.isDigit = false := by
        have hin := h c rfl
        simp only [inNumber, Bool.or_eq_false_iff] at hin
        exact hin.1.1.1.1.1
      simp [hc]
  | cons d digits ih =>
    obtain ⟨htake, hdrop⟩ := ih fun c hc => hdigits c (List.mem_cons_of_mem d hc)
    have hd := hdigits d (List.mem_cons_self ..)
    rw [List.cons_append, List.takeWhile_cons_of_pos hd, List.dropWhile_cons_of_pos hd, htake,
      hdrop]
    exact ⟨rfl, rfl⟩

/-- Only zero starts with a zero. -/
theorem head_toDigits {n : ℕ} (h : 0 < n) : ∃ c cs, Nat.toDigits 10 n = c :: cs ∧ c ≠ '0' := by
  induction n using Nat.strongRecOn with
  | ind n ih =>
    by_cases hlt : n < 10
    · have hdigit : ∀ k < 10, 0 < k → k.digitChar ≠ '0' := by decide
      exact ⟨_, [], Nat.toDigits_of_lt_base hlt, hdigit n hlt h⟩
    · obtain ⟨c, cs, heq, hc⟩ := ih (n / 10) (by omega) (by omega)
      exact ⟨c, cs ++ Nat.toDigits 10 (n % 10),
        by rw [Nat.toDigits_of_base_le (by decide) (by omega), heq,
          Nat.toDigits_of_lt_base (Nat.mod_lt n (by decide))]; rfl, hc⟩

/-- **The digits of a number are read back.** -/
theorem parseDigits_toDigits (negative : Bool) (n : ℕ) {rest : List Char} (h : Stops rest) :
    parseDigits floats negative (Nat.toDigits 10 n ++ rest) =
      (integer floats negative (Nat.toDigits 10 n)).map fun k => (k, rest) := by
  obtain ⟨htake, hdrop⟩ := span_digits (Nat.toDigits 10 n)
    (fun c hc => Nat.isDigit_of_mem_toDigits (by decide) (by decide) hc) h
  have hzero : ∀ c cs, Nat.toDigits 10 n ≠ '0' :: c :: cs := by
    intro c cs heq
    rcases Nat.eq_zero_or_pos n with rfl | hn
    · rw [Nat.toDigits_zero] at heq
      cases heq
    · obtain ⟨d, ds, hd, hne⟩ := head_toDigits hn
      rw [heq] at hd
      exact hne (List.cons.inj hd).1.symm
  rw [parseDigits, htake, hdrop, h.takeWhile]
  split
  · rename_i heq
    exact absurd heq Nat.toDigits_ne_nil
  · rename_i heq
    exact absurd heq (hzero _ _)
  · rw [if_pos rfl]

/-- **A number is read back.** -/
theorem parseNumber_print {n : Number} (hn : plain (.number n) = true) {rest : List Char}
    (h : Stops rest) : parseNumber floats (printNumber floats n ++ rest) = some (n, rest) := by
  cases n with
  | posInt n =>
    have hne : ∀ cs, Nat.toDigits 10 n.toNat ++ rest ≠ '-' :: cs := by
      intro cs heq
      obtain ⟨c, ds, hds⟩ : ∃ c ds, Nat.toDigits 10 n.toNat = c :: ds :=
        List.exists_cons_of_ne_nil Nat.toDigits_ne_nil
      rw [hds, List.cons_append] at heq
      have hdigit : c.isDigit = true :=
        Nat.isDigit_of_mem_toDigits (by decide) (by decide) (hds ▸ List.mem_cons_self ..)
      rw [(List.cons.inj heq).1] at hdigit
      cases hdigit
    rw [printNumber, parseNumber]
    · rw [parseDigits_toDigits false n.toNat h, integer, Nat.ofDigitChars_ten_toDigits]
      rw [if_neg (by decide), if_pos (UInt64.toNat_lt n), UInt64.ofNat_toNat]
      rfl
    · exact hne
  | negInt n =>
    have hneg : n.toInt < 0 := by simpa [plain] using hn
    have hmin : -2 ^ 63 ≤ n.toInt := Int64.le_toInt n
    have hcast : -((n.toInt.natAbs : ℕ) : ℤ) = n.toInt := by omega
    rw [printNumber, List.cons_append, parseNumber, parseDigits_toDigits true _ h, integer,
      Nat.ofDigitChars_ten_toDigits]
    simp only [if_true]
    rw [if_pos (by omega), hcast, Int64.ofInt_toInt]
    rfl
  | float bits => cases hn

/-- A number starts with a digit or its sign. -/
theorem exists_printNumber_eq_cons (floats : Floats) {n : Number}
    (hn : plain (.number n) = true) :
    ∃ c cs, printNumber floats n = c :: cs ∧ (c.isDigit || c == '-') = true := by
  cases n with
  | posInt n =>
    obtain ⟨c, cs, hcs⟩ : ∃ c cs, Nat.toDigits 10 n.toNat = c :: cs :=
      List.exists_cons_of_ne_nil Nat.toDigits_ne_nil
    have hdigit : c.isDigit = true :=
      Nat.isDigit_of_mem_toDigits (by decide) (by decide) (hcs ▸ List.mem_cons_self ..)
    exact ⟨c, cs, hcs, by rw [hdigit, Bool.true_or]⟩
  | negInt n => exact ⟨'-', _, rfl, rfl⟩
  | float bits => cases hn

/-! ## Values -/

/-- A character a value starts with. -/
def starts (c : Char) : Bool := !isSpace c && c != ']' && c != '\x7d'

/-- The text of a value does not start with blank space, and not as the end of an array or of
an object. -/
theorem exists_print_eq_cons (layout : Layout) (floats : Floats) {v : Value}
    (hv : plain v = true) (level : ℕ) :
    ∃ c cs, print layout floats level v = c :: cs ∧ starts c = true := by
  have hdigit : ∀ c : Char, c.isDigit = true → starts c = true := by
    intro c hc
    simp only [Char.isDigit, Bool.and_eq_true, decide_eq_true_eq, UInt32.le_iff_toNat_le] at hc
    have hne : ∀ d : Char, d.toNat < 48 ∨ 57 < d.toNat → c ≠ d := by
      rintro d hd rfl
      have hval : c.val.toNat = c.toNat := rfl
      simp only [hval] at hc
      have h48 : ('0' : Char).val.toNat = 48 := rfl
      have h57 : ('9' : Char).val.toNat = 57 := rfl
      omega
    simp [starts, isSpace, hne ' ' (by decide), hne '\n' (by decide), hne '\t' (by decide),
      hne '\r' (by decide), hne ']' (by decide), hne '\x7d' (by decide)]
  cases v with
  | null => exact ⟨_, _, by rw [print], by decide⟩
  | bool b => cases b <;> exact ⟨_, _, by rw [print], by decide⟩
  | number n =>
    obtain ⟨c, cs, hcs, hc⟩ := exists_printNumber_eq_cons floats hv
    refine ⟨c, cs, by rw [print, hcs], ?_⟩
    rcases Bool.or_eq_true_iff.1 hc with hc | hc
    · exact hdigit c hc
    · rw [eq_of_beq hc]
      decide
  | string s => exact ⟨_, _, by rw [print, quote], by decide⟩
  | array vs => cases vs <;> exact ⟨_, _, by rw [print], by decide⟩
  | object ms =>
    cases ms with
    | nil => exact ⟨_, _, by rw [print], by decide⟩
    | cons m ms => exact ⟨_, _, by rw [print], by decide⟩

variable {layout : Layout}

/-- So the blank space before it is what is skipped. -/
theorem skip_print {v : Value} (hv : plain v = true) (level : ℕ) (rest : List Char) :
    skip (print layout floats level v ++ rest) = print layout floats level v ++ rest := by
  obtain ⟨c, cs, hcs, hc⟩ := exists_print_eq_cons layout floats hv level
  rw [hcs, List.cons_append, skip_cons_of_not]
  simp only [starts, Bool.and_eq_true, Bool.not_eq_true'] at hc
  exact hc.1.1

/-- Blank space is not part of a number. -/
theorem stops_append {blank rest : List Char} (h : ∀ c ∈ blank, isSpace c = true)
    (hrest : Stops rest) : Stops (blank ++ rest) := by
  cases blank with
  | nil => exact hrest
  | cons c blank =>
    intro d hd
    obtain rfl : c = d := by simpa using hd
    have hc : isSpace c = true := h c (List.mem_cons_self ..)
    simp only [isSpace, Bool.or_eq_true, decide_eq_true_eq] at hc
    rcases hc with ((rfl | rfl) | rfl) | rfl <;> decide

theorem stops_cons {c : Char} {rest : List Char} (h : inNumber c = false) : Stops (c :: rest) := by
  intro d hd
  obtain rfl : c = d := by simpa using hd
  exact h

/-- What follows an element is not part of a number. -/
theorem stops_printElements (level : ℕ) (vs : List Value) (rest : List Char) :
    Stops (printElements layout floats level vs ++ rest) := by
  cases vs with
  | nil =>
    rw [printElements, List.append_assoc]
    exact stops_append (layout.line_blank level) (stops_cons rfl)
  | cons v vs =>
    rw [printElements]
    exact stops_cons rfl

/-- Nor is what follows a member. -/
theorem stops_printMembers (level : ℕ) (ms : List (String × Value)) (rest : List Char) :
    Stops (printMembers layout floats level ms ++ rest) := by
  cases ms with
  | nil =>
    rw [printMembers, List.append_assoc]
    exact stops_append (layout.line_blank level) (stops_cons rfl)
  | cons m ms =>
    rw [printMembers]
    exact stops_cons rfl

/-- An array ends. -/
theorem length_printElements_pos (level : ℕ) (vs : List Value) :
    0 < (printElements layout floats level vs).length := by
  cases vs <;> simp [printElements]

/-- An object ends. -/
theorem length_printMembers_pos (level : ℕ) (ms : List (String × Value)) :
    0 < (printMembers layout floats level ms).length := by
  cases ms <;> simp [printMembers]

mutual

/-- **A value is read back**, in as many steps as its text is long. -/
theorem parse_print (v : Value) (hv : plain v = true) (level n : ℕ) (cs rest : List Char)
    (hcs : skip cs = print layout floats level v ++ rest)
    (hn : (print layout floats level v).length < n) (hrest : Stops rest) :
    parse floats n cs = some (v, rest) := by
  obtain ⟨n, rfl⟩ : ∃ m, n = m + 1 := ⟨n - 1, by omega⟩
  rw [parse, hcs]
  match v with
  | .null => simp [print]
  | .bool true => simp [print]
  | .bool false => simp [print]
  | .string s => simp [print, quote, parseString_quote]
  | .number k =>
    obtain ⟨c, ds, hc, hdigit⟩ := exists_printNumber_eq_cons floats hv
    have hnum : parseNumber floats (c :: (ds ++ rest)) = some (k, rest) := by
      rw [← List.cons_append, ← hc]
      exact parseNumber_print hv hrest
    rw [print, hc, List.cons_append]
    -- the other values start with a letter, a quote or a bracket
    split
    iterate 6
      rename_i h
      rw [(List.cons.inj h).1] at hdigit
      cases hdigit
    rw [hnum]
    rfl
  | .array [] => simp [print, isSpace]
  | .array (v :: vs) =>
    rw [plain, plainElements, Bool.and_eq_true] at hv
    rw [print] at hn
    simp only [List.length_cons, List.length_append] at hn
    have hpos : 0 < (printElements layout floats level vs).length := length_printElements_pos ..
    have hskip : skip (layout.line (level + 1) ++ print layout floats (level + 1) v ++
        printElements layout floats level vs ++ rest) =
        print layout floats (level + 1) v ++ (printElements layout floats level vs ++ rest) := by
      rw [List.append_assoc, List.append_assoc, skip_line, skip_print hv.1]
    have hvalue := parse_print v hv.1 (level + 1) n _ _ hskip (by omega)
      (stops_printElements level vs rest)
    have helements := parseElements_print vs hv.2 level n rest (by omega)
    obtain ⟨c, ds, hc, hstart⟩ := exists_print_eq_cons layout floats hv.1 (level + 1)
    have hend : c ≠ ']' := by
      rintro rfl
      cases hstart
    simp only [print, List.cons_append]
    rw [hskip]
    split
    · rename_i h
      rw [hc, List.cons_append] at h
      exact absurd (List.cons.inj h).1 hend
    · rw [hvalue]
      simp only [Option.bind_eq_bind, Option.bind_some, helements]
      rfl
  | .object [] => simp [print, isSpace]
  | .object ((k, v) :: ms) =>
    rw [plain, plainMembers, Bool.and_eq_true] at hv
    rw [print] at hn
    simp only [List.length_cons, List.length_append] at hn
    have hvalue := parse_print v hv.1 (level + 1) n
      (layout.colon ++ (print layout floats (level + 1) v ++
        (printMembers layout floats level ms ++ rest))) _
      (by rw [skip_colon, skip_print hv.1]) (by omega) (stops_printMembers level ms rest)
    have hmembers := parseMembers_print ms hv.2 level n rest (by omega)
    simp only [print, List.cons_append]
    rw [parseKey_line]
    have hskip : skip (layout.line (level + 1) ++ quote k ++ ':' :: layout.colon ++
        print layout floats (level + 1) v ++ printMembers layout floats level ms ++ rest) =
        '"' :: (k.toList.flatMap escape ++ '"' :: ':' :: (layout.colon ++
          (print layout floats (level + 1) v ++
            (printMembers layout floats level ms ++ rest)))) := by
      simp [quote, isSpace]
    rw [hskip]
    simp only [Option.bind_eq_bind, Option.bind_some, hvalue, hmembers]
    rfl

/-- So are the elements after the first. -/
theorem parseElements_print (vs : List Value) (hvs : plainElements vs = true) (level n : ℕ)
    (rest : List Char) (hn : (printElements layout floats level vs).length ≤ n) :
    parseElements floats n (printElements layout floats level vs ++ rest) = some (vs, rest) := by
  match vs with
  | [] =>
    have hpos : 0 < (printElements layout floats level []).length := length_printElements_pos ..
    obtain ⟨n, rfl⟩ : ∃ m, n = m + 1 := ⟨n - 1, by omega⟩
    rw [printElements, parseElements, List.append_assoc, skip_line]
    simp [isSpace]
  | v :: vs =>
    rw [plainElements, Bool.and_eq_true] at hvs
    rw [printElements] at hn ⊢
    simp only [List.length_cons, List.length_append] at hn
    have hpos : 0 < (printElements layout floats level vs).length := length_printElements_pos ..
    obtain ⟨n, rfl⟩ : ∃ m, n = m + 1 := ⟨n - 1, by omega⟩
    have hskip : skip (layout.line (level + 1) ++ print layout floats (level + 1) v ++
        printElements layout floats level vs ++ rest) =
        print layout floats (level + 1) v ++ (printElements layout floats level vs ++ rest) := by
      rw [List.append_assoc, List.append_assoc, skip_line, skip_print hvs.1]
    have hvalue := parse_print v hvs.1 (level + 1) n _ _ hskip (by omega)
      (stops_printElements level vs rest)
    have helements := parseElements_print vs hvs.2 level n rest (by omega)
    rw [parseElements, List.cons_append, skip_cons_of_not rfl]
    simp only [hvalue, helements, Option.bind_eq_bind, Option.bind_some]
    rfl

/-- And the members after the first. -/
theorem parseMembers_print (ms : List (String × Value)) (hms : plainMembers ms = true)
    (level n : ℕ) (rest : List Char) (hn : (printMembers layout floats level ms).length ≤ n) :
    parseMembers floats n (printMembers layout floats level ms ++ rest) = some (ms, rest) := by
  match ms with
  | [] =>
    have hpos : 0 < (printMembers layout floats level []).length := length_printMembers_pos ..
    obtain ⟨n, rfl⟩ : ∃ m, n = m + 1 := ⟨n - 1, by omega⟩
    rw [printMembers, parseMembers, List.append_assoc, skip_line]
    simp [isSpace]
  | (k, v) :: ms =>
    rw [plainMembers, Bool.and_eq_true] at hms
    rw [printMembers] at hn ⊢
    simp only [List.length_cons, List.length_append] at hn
    have hpos : 0 < (printMembers layout floats level ms).length := length_printMembers_pos ..
    obtain ⟨n, rfl⟩ : ∃ m, n = m + 1 := ⟨n - 1, by omega⟩
    have hvalue := parse_print v hms.1 (level + 1) n
      (layout.colon ++ (print layout floats (level + 1) v ++
        (printMembers layout floats level ms ++ rest))) _
      (by rw [skip_colon, skip_print hms.1]) (by omega) (stops_printMembers level ms rest)
    have hmembers := parseMembers_print ms hms.2 level n rest (by omega)
    rw [parseMembers, List.cons_append, skip_cons_of_not rfl]
    simp only [parseKey_line, hvalue, hmembers, Option.bind_eq_bind, Option.bind_some]
    rfl

end

/-- **What a printer writes, the parser reads**, whatever blank space comes after it. -/
theorem fromStr_print (floats : Floats) (layout : Layout) {v : Value} (hv : plain v = true)
    (blank : List Char) (hblank : ∀ c ∈ blank, isSpace c = true) :
    fromStr floats (String.ofList (print layout floats 0 v ++ blank)) = some v := by
  have hstops : Stops blank := by
    have hnil : Stops [] := fun c hc => by cases hc
    simpa using stops_append hblank hnil
  have hparse : parse floats ((print layout floats 0 v ++ blank).length + 1)
      (print layout floats 0 v ++ blank) = some (v, blank) := by
    refine parse_print v hv 0 _ _ blank (skip_print hv 0 blank) ?_ hstops
    rw [List.length_append]
    omega
  have hskip : skip blank = [] := by
    have h := skip_append hblank []
    rwa [List.append_nil] at h
  rw [fromStr, String.toList_ofList, hparse]
  exact if_pos hskip

theorem fromStr_toVecPretty {v : Value} (hv : plain v = true) :
    fromStr floats (toVecPretty floats v) = some v := by
  have h := fromStr_print floats .pretty hv [] fun c hc => by cases hc
  rwa [List.append_nil, ← pretty_eq_print] at h

/-! ## Lines -/

/-- A character of a string is not written as a newline. -/
theorem newline_notMem_escape (c : Char) : '\n' ∉ escape c := by
  have hhex : ∀ n < 32, '\n' ≠ hexDigit (n / 16) ∧ '\n' ≠ hexDigit (n % 16) := by decide
  rw [escape]
  split_ifs with hquote hslash hb hf hn hr ht hcontrol
  all_goals try decide
  · have := hhex _ hcontrol
    simp [this.1, this.2]
  · rw [List.mem_singleton]
    exact Ne.symm hn

theorem newline_notMem_quote (s : String) : '\n' ∉ quote s := by
  simp [quote, newline_notMem_escape]

theorem newline_notMem_printNumber {n : Number} (hn : plain (.number n) = true) :
    '\n' ∉ printNumber floats n := by
  have hdigits : ∀ n : ℕ, '\n' ∉ Nat.toDigits 10 n := by
    intro n hmem
    have hdigit := Nat.isDigit_of_mem_toDigits (by decide) (by decide) hmem
    cases hdigit
  cases n with
  | posInt n => exact hdigits n.toNat
  | negInt n =>
    intro hmem
    rcases List.mem_cons.1 hmem with h | h
    · cases h
    · exact hdigits _ h
  | float bits => cases hn

mutual

/-- **The compact text of a value is one line.** -/
theorem newline_notMem_print (v : Value) (hv : plain v = true) (level : ℕ) :
    '\n' ∉ print .compact floats level v := by
  match v with
  | .null => simp [print]
  | .bool true => simp [print]
  | .bool false => simp [print]
  | .string s =>
    rw [print]
    exact newline_notMem_quote s
  | .number n =>
    rw [print]
    exact newline_notMem_printNumber hv
  | .array [] => simp [print]
  | .array (v :: vs) =>
    rw [plain, plainElements, Bool.and_eq_true] at hv
    simp [print, newline_notMem_print v hv.1, newline_notMem_printElements vs hv.2]
  | .object [] => simp [print]
  | .object ((k, v) :: ms) =>
    rw [plain, plainMembers, Bool.and_eq_true] at hv
    simp [print, newline_notMem_quote, newline_notMem_print v hv.1,
      newline_notMem_printMembers ms hv.2]

theorem newline_notMem_printElements (vs : List Value) (hvs : plainElements vs = true)
    (level : ℕ) : '\n' ∉ printElements .compact floats level vs := by
  match vs with
  | [] => simp [printElements]
  | v :: vs =>
    rw [plainElements, Bool.and_eq_true] at hvs
    simp [printElements, newline_notMem_print v hvs.1,
      newline_notMem_printElements vs hvs.2]

theorem newline_notMem_printMembers (ms : List (String × Value)) (hms : plainMembers ms = true)
    (level : ℕ) : '\n' ∉ printMembers .compact floats level ms := by
  match ms with
  | [] => simp [printMembers]
  | (k, v) :: ms =>
    rw [plainMembers, Bool.and_eq_true] at hms
    simp [printMembers, newline_notMem_quote, newline_notMem_print v hms.1,
      newline_notMem_printMembers ms hms.2]

end

end Json

end VcOperator
