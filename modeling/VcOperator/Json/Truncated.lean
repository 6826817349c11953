import Mathlib.Data.List.TakeWhile
import VcOperator.Json.RoundTrip
/-!
# Texts that are cut off

The parser does not look beyond what it takes, but for a number, which ends
where something follows that is no part of one. So what it makes of a text
it makes of every longer one (`parse_append`), and no proper beginning of an
object is a text: whoever reads one that was cut off gets an error, and no
other value.
-/

namespace VcOperator

namespace Json

variable {floats : Floats} {cs rest : List Char}

/-! ## The tokens -/

/-- Where something is left, more of it changes nothing before it. -/
theorem span_append {p : Char → Bool} (h : cs.dropWhile p ≠ []) (more : List Char) :
    (cs ++ more).takeWhile p = cs.takeWhile p ∧
      (cs ++ more).dropWhile p = cs.dropWhile p ++ more := by
  induction cs with
  | nil => exact absurd rfl h
  | cons c cs ih =>
    rw [List.dropWhile_cons] at h
    rw [List.cons_append, List.takeWhile_cons, List.takeWhile_cons, List.dropWhile_cons,
      List.dropWhile_cons]
    split_ifs at h ⊢ with hc
    · obtain ⟨htake, hdrop⟩ := ih h
      exact ⟨by rw [htake], hdrop⟩
    · exact ⟨rfl, rfl⟩

theorem skip_append_of_cons {c : Char} (h : skip cs = c :: rest) (more : List Char) :
    skip (cs ++ more) = c :: (rest ++ more) := by
  have hne : cs.dropWhile isSpace ≠ [] := by
    change skip cs ≠ []
    rw [h]
    exact List.cons_ne_nil _ _
  have hdrop := (span_append hne more).2
  change skip (cs ++ more) = skip cs ++ more at hdrop
  rw [hdrop, h, List.cons_append]

/-- **A string ends with its quote.** -/
theorem parseString_append {s : List Char} (h : parseString cs = some (s, rest))
    (more : List Char) : parseString (cs ++ more) = some (s, rest ++ more) := by
  fun_induction parseString cs generalizing s with
  | case1 | case3 | case5 | case7 | case8 | case9 | case11 => cases h
  | case2 => cases h; simp [parseString]
  | case4 a b c d tail n hn hone ih =>
    obtain ⟨⟨t, r⟩, hp, heq⟩ := Option.map_eq_some_iff.1 h
    cases heq
    simp only [List.cons_append, parseString, hn, if_pos hone, ih hp, Option.map_some]
  | case6 a b c d n hn hpair a' b' c' d' tail m hm hlow ih =>
    obtain ⟨⟨t, r⟩, hp, heq⟩ := Option.map_eq_some_iff.1 h
    cases heq
    simp only [List.cons_append, parseString, hn, if_neg hpair, hm, if_pos hlow, ih hp,
      Option.map_some]
  | case10 c tail hshort e he ih =>
    obtain ⟨⟨t, r⟩, hp, heq⟩ := Option.map_eq_some_iff.1 h
    cases heq
    have hu : c ≠ 'u' := by
      rintro rfl
      cases he
    rw [List.cons_append, List.cons_append, parseString]
    · simp only [he, ih hp, Option.map_some]
    · exact fun _ _ _ _ _ hc => absurd hc hu
  | case12 c tail hquote hshort hescape hplain ih =>
    obtain ⟨⟨t, r⟩, hp, heq⟩ := Option.map_eq_some_iff.1 h
    cases heq
    have hslash : c ≠ '\\' := fun hc => hplain (.inr hc)
    rw [List.cons_append, parseString]
    · simp only [if_neg hplain, ih hp, Option.map_some]
    · exact hquote
    · exact fun _ _ _ _ _ hc => absurd hc hslash
    · exact fun _ _ hc => absurd hc hslash

/-- So does a key with its colon. -/
theorem parseKey_append {k : String} (h : parseKey cs = some (k, rest)) (more : List Char) :
    parseKey (cs ++ more) = some (k, rest ++ more) := by
  unfold parseKey at h ⊢
  split at h
  · rename_i tail hquote
    simp only [skip_append_of_cons hquote]
    split at h
    · rename_i s tail' hs
      simp only [parseString_append hs]
      split at h
      · rename_i tail'' hcolon
        cases h
        simp only [skip_append_of_cons hcolon]
      · cases h
    · cases h
  · cases h

/-- A number that does not come to the end of its text. -/
theorem parseDigits_append {negative : Bool} {n : Number}
    (h : parseDigits floats negative cs = some (n, rest)) (hne : rest ≠ []) (more : List Char) :
    parseDigits floats negative (cs ++ more) = some (n, rest ++ more) := by
  simp only [parseDigits] at h
  have hdigits : cs.dropWhile Char.isDigit ≠ [] := by
    intro hnil
    simp only [hnil, List.takeWhile_nil, List.dropWhile_nil, if_true] at h
    split at h
    · cases h
    · cases h
    · obtain ⟨k, -, heq⟩ := Option.map_eq_some_iff.1 h
      cases heq
      exact hne rfl
  obtain ⟨htake, hdrop⟩ := span_append hdigits more
  simp only [parseDigits, htake, hdrop]
  split at h
  · cases h
  · cases h
  · by_cases htail : (cs.dropWhile Char.isDigit).takeWhile inNumber = []
    · rw [if_pos htail] at h
      obtain ⟨k, hk, heq⟩ := Option.map_eq_some_iff.1 h
      cases heq
      have hstops : (cs.dropWhile Char.isDigit).dropWhile inNumber ≠ [] := by
        have hsplit : (cs.dropWhile Char.isDigit).takeWhile inNumber ++
            (cs.dropWhile Char.isDigit).dropWhile inNumber = cs.dropWhile Char.isDigit :=
          List.takeWhile_append_dropWhile
        rw [htail, List.nil_append] at hsplit
        rwa [hsplit]
      rw [(span_append hstops more).1, htail, if_pos rfl, hk]
      rfl
    · rw [if_neg htail] at h
      obtain ⟨bits, hbits, heq⟩ := Option.map_eq_some_iff.1 h
      cases heq
      obtain ⟨htake', hdrop'⟩ := span_append hne more
      rw [htake', hdrop', if_neg htail, hbits]
      rfl

theorem parseNumber_append {n : Number} (h : parseNumber floats cs = some (n, rest))
    (hne : rest ≠ []) (more : List Char) :
    parseNumber floats (cs ++ more) = some (n, rest ++ more) := by
  unfold parseNumber at h
  split at h
  · exact parseDigits_append h hne more
  · rename_i hminus
    rw [parseNumber]
    · exact parseDigits_append h hne more
    · intro tail heq
      cases cs with
      | nil => cases h
      | cons c cs =>
        rw [List.cons_append, List.cons.injEq] at heq
        exact hminus cs (by rw [heq.1])

/-- A number starts with a digit or its sign. -/
theorem head_of_parseNumber {p : Number × List Char} (h : parseNumber floats cs = some p) :
    ∃ c tail, cs = c :: tail ∧ (c.isDigit || c == '-') = true := by
  cases cs with
  | nil => cases h
  | cons c tail =>
    refine ⟨c, tail, rfl, ?_⟩
    by_cases hminus : c = '-'
    · rw [hminus]
      rfl
    · by_cases hdigit : c.isDigit = true
      · rw [hdigit, Bool.true_or]
      · -- there is no digit, so there is no number
        rw [parseNumber, parseDigits] at h
        · rw [List.takeWhile_cons_of_neg hdigit] at h
          cases h
        · intro tail' heq
          exact hminus (List.cons.inj heq).1

/-! ## Values -/

/-- There is something to parse. -/
theorem exists_skip_of_parse {n : ℕ} {p : Value × List Char} (h : parse floats n cs = some p) :
    ∃ c tail, skip cs = c :: tail := by
  cases n with
  | zero => cases h
  | succ n =>
    cases hskip : skip cs with
    | cons c tail => exact ⟨c, tail, rfl⟩
    | nil =>
      rw [parse, hskip] at h
      cases h

theorem exists_skip_of_parseKey {p : String × List Char} (h : parseKey cs = some p) :
    ∃ c tail, skip cs = c :: tail := by
  cases hskip : skip cs with
  | cons c tail => exact ⟨c, tail, rfl⟩
  | nil =>
    rw [parseKey, hskip] at h
    cases h

theorem ne_nil_of_parseElements {n : ℕ} {p : List Value × List Char}
    (h : parseElements floats n cs = some p) : cs ≠ [] := by
  rintro rfl
  cases n <;> cases h

theorem ne_nil_of_parseMembers {n : ℕ} {p : List (String × Value) × List Char}
    (h : parseMembers floats n cs = some p) : cs ≠ [] := by
  rintro rfl
  cases n <;> cases h

mutual

/-- **What is parsed is parsed of every longer text**, but for a number at
the very end. -/
theorem parse_append (n : ℕ) {m : ℕ} (hm : n ≤ m) {cs rest : List Char} {v : Value}
    (h : parse floats n cs = some (v, rest)) (hne : rest ≠ [] ∨ ∀ k, v ≠ .number k)
    (more : List Char) : parse floats m (cs ++ more) = some (v, rest ++ more) := by
  match n with
  | 0 => cases h
  | n + 1 =>
    obtain ⟨m, rfl⟩ : ∃ k, m = k + 1 := ⟨m - 1, by omega⟩
    rw [parse] at h ⊢
    split at h
    · rename_i hskip
      cases h
      simp only [skip_append_of_cons hskip, List.cons_append]
    · rename_i hskip
      cases h
      simp only [skip_append_of_cons hskip, List.cons_append]
    · rename_i hskip
      cases h
      simp only [skip_append_of_cons hskip, List.cons_append]
    · rename_i hskip
      obtain ⟨⟨s, r⟩, hs, heq⟩ := Option.map_eq_some_iff.1 h
      cases heq
      simp only [skip_append_of_cons hskip, parseString_append hs, Option.map_some]
    · rename_i tail hskip
      simp only [skip_append_of_cons hskip]
      split at h
      · rename_i hend
        cases h
        simp only [skip_append_of_cons hend]
      · rename_i hnot
        obtain ⟨⟨w, r⟩, hw, h⟩ := Option.bind_eq_some_iff.1 h
        obtain ⟨⟨ws, r'⟩, hws, h⟩ := Option.bind_eq_some_iff.1 h
        cases h
        obtain ⟨c, tail', hc⟩ := exists_skip_of_parse hw
        have hw' := parse_append n (Nat.le_of_succ_le_succ hm) hw
          (.inl (ne_nil_of_parseElements hws)) more
        have hws' := parseElements_append n (Nat.le_of_succ_le_succ hm) hws more
        rw [skip_append_of_cons hc]
        split
        · rename_i hend
          rw [(List.cons.inj hend).1] at hc
          exact absurd hc (hnot _)
        · simp only [Option.bind_eq_bind, hw', Option.bind_some, hws']
          rfl
    · rename_i tail hskip
      simp only [skip_append_of_cons hskip]
      split at h
      · rename_i hend
        cases h
        simp only [skip_append_of_cons hend]
      · rename_i hnot
        obtain ⟨⟨k, r⟩, hk, h⟩ := Option.bind_eq_some_iff.1 h
        obtain ⟨⟨w, r'⟩, hw, h⟩ := Option.bind_eq_some_iff.1 h
        obtain ⟨⟨ms, r''⟩, hms, h⟩ := Option.bind_eq_some_iff.1 h
        cases h
        obtain ⟨c, tail', hc⟩ := exists_skip_of_parseKey hk
        have hw' := parse_append n (Nat.le_of_succ_le_succ hm) hw
          (.inl (ne_nil_of_parseMembers hms)) more
        have hms' := parseMembers_append n (Nat.le_of_succ_le_succ hm) hms more
        rw [skip_append_of_cons hc]
        split
        · rename_i hend
          rw [(List.cons.inj hend).1] at hc
          exact absurd hc (hnot _)
        · simp only [Option.bind_eq_bind, parseKey_append hk, hw', Option.bind_some, hms']
          rfl
    · obtain ⟨⟨k, r⟩, hk, heq⟩ := Option.map_eq_some_iff.1 h
      cases heq
      obtain ⟨c, tail, hskip, hdigit⟩ := head_of_parseNumber hk
      have hnumber := parseNumber_append hk (hne.resolve_right fun hnot => hnot k rfl) more
      rw [skip_append_of_cons hskip]
      -- the other values start with a letter, a quote or a bracket
      split
      iterate 6
        rename_i hstart
        rw [(List.cons.inj hstart).1] at hdigit
        cases hdigit
      rw [hskip, List.cons_append] at hnumber
      rw [hnumber]
      rfl

/-- So are the elements after the first. -/
theorem parseElements_append (n : ℕ) {m : ℕ} (hm : n ≤ m) {cs rest : List Char} {vs : List Value}
    (h : parseElements floats n cs = some (vs, rest)) (more : List Char) :
    parseElements floats m (cs ++ more) = some (vs, rest ++ more) := by
  match n with
  | 0 => cases h
  | n + 1 =>
    obtain ⟨m, rfl⟩ : ∃ k, m = k + 1 := ⟨m - 1, by omega⟩
    rw [parseElements] at h ⊢
    split at h
    · rename_i hend
      cases h
      simp only [skip_append_of_cons hend]
    · rename_i hcomma
      obtain ⟨⟨w, r⟩, hw, h⟩ := Option.bind_eq_some_iff.1 h
      obtain ⟨⟨ws, r'⟩, hws, h⟩ := Option.bind_eq_some_iff.1 h
      cases h
      have hw' := parse_append n (Nat.le_of_succ_le_succ hm) hw
        (.inl (ne_nil_of_parseElements hws)) more
      have hws' := parseElements_append n (Nat.le_of_succ_le_succ hm) hws more
      simp only [skip_append_of_cons hcomma, Option.bind_eq_bind, hw', Option.bind_some, hws']
      rfl
    · cases h

/-- And the members after the first. -/
theorem parseMembers_append (n : ℕ) {m : ℕ} (hm : n ≤ m) {cs rest : List Char}
    {ms : List (String × Value)} (h : parseMembers floats n cs = some (ms, rest))
    (more : List Char) : parseMembers floats m (cs ++ more) = some (ms, rest ++ more) := by
  match n with
  | 0 => cases h
  | n + 1 =>
    obtain ⟨m, rfl⟩ : ∃ k, m = k + 1 := ⟨m - 1, by omega⟩
    rw [parseMembers] at h ⊢
    split at h
    · rename_i hend
      cases h
      simp only [skip_append_of_cons hend]
    · rename_i hcomma
      obtain ⟨⟨k, r⟩, hk, h⟩ := Option.bind_eq_some_iff.1 h
      obtain ⟨⟨w, r'⟩, hw, h⟩ := Option.bind_eq_some_iff.1 h
      obtain ⟨⟨ws, r''⟩, hws, h⟩ := Option.bind_eq_some_iff.1 h
      cases h
      have hw' := parse_append n (Nat.le_of_succ_le_succ hm) hw
        (.inl (ne_nil_of_parseMembers hws)) more
      have hws' := parseMembers_append n (Nat.le_of_succ_le_succ hm) hws more
      simp only [skip_append_of_cons hcomma, Option.bind_eq_bind, parseKey_append hk, hw',
        Option.bind_some, hws']
      rfl
    · cases h

end

/-- An object ends with its bracket. -/
theorem exists_printMembers (floats : Floats) (layout : Layout) (level : ℕ)
    (ms : List (String × Value)) :
    ∃ mid, printMembers layout floats level ms = mid ++ ['\x7d'] := by
  induction ms with
  | nil => exact ⟨_, by rw [printMembers]⟩
  | cons m ms ih =>
    obtain ⟨mid, hmid⟩ := ih
    refine ⟨',' :: (layout.line (level + 1) ++ quote m.1 ++ ':' :: layout.colon ++
      print layout floats (level + 1) m.2 ++ mid), ?_⟩
    rw [printMembers, hmid]
    simp only [List.append_assoc, List.cons_append]

theorem exists_print_object (floats : Floats) (layout : Layout) (level : ℕ)
    (ms : List (String × Value)) :
    ∃ mid, print layout floats level (.object ms) = '\x7b' :: mid ++ ['\x7d'] := by
  cases ms with
  | nil => exact ⟨[], by rw [Json.print]; rfl⟩
  | cons m ms =>
    obtain ⟨mid, hmid⟩ := exists_printMembers floats layout level ms
    refine ⟨layout.line (level + 1) ++ quote m.1 ++ ':' :: layout.colon ++
      print layout floats (level + 1) m.2 ++ mid, ?_⟩
    rw [Json.print, hmid]
    simp only [List.append_assoc, List.cons_append]

/-- An object is no number. -/
theorem ne_number_of_parse {n : ℕ} {tail : List Char} {v : Value}
    (h : parse floats n ('\x7b' :: tail) = some (v, rest)) (k : Number) : v ≠ .number k := by
  cases n with
  | zero => cases h
  | succ n =>
    rw [parse, skip_cons_of_not rfl] at h
    simp only at h
    split at h
    · cases h
      nofun
    · obtain ⟨p, -, h⟩ := Option.bind_eq_some_iff.1 h
      obtain ⟨q, -, h⟩ := Option.bind_eq_some_iff.1 h
      obtain ⟨r, -, h⟩ := Option.bind_eq_some_iff.1 h
      cases h
      nofun

/-- **A text that was cut off is no text**: what an object is read from
cannot be read without the end of it. -/
theorem fromStr_eq_none_of_cut {tail : List Char} {v : Value}
    (h : fromStr floats (String.ofList ('\x7b' :: tail ++ rest)) = some v)
    (hrest : skip rest ≠ []) : fromStr floats (String.ofList ('\x7b' :: tail)) = none := by
  rw [fromStr, String.toList_ofList] at h ⊢
  split
  · rename_i w blank hparse
    refine if_neg fun hblank => hrest ?_
    -- the parser would have come this far in the whole text, too
    have hlonger := parse_append _ (m := ('\x7b' :: tail ++ rest).length + 1) (by simp) hparse
      (.inr (ne_number_of_parse hparse)) rest
    rw [hlonger] at h
    dsimp only at h
    split_ifs at h with hend
    have hspaces : ∀ c ∈ blank, isSpace c = true := List.dropWhile_eq_nil_iff.1 hblank
    rwa [skip_append hspaces] at hend
  · rfl

end Json

end VcOperator
