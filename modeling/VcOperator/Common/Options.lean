import Mathlib.Data.List.Basic
import Mathlib.Tactic.Common
/-!
# Command lines

A loop over the words of a command line: the first rule that a word matches
says what is to be read, the word itself or the one after it, and what is read is a setting
that is applied to the options. `parse_eq_ok_iff` and `parse_eq_error_iff`
say what is accepted, and what the first fault of a line is that is not.
Nothing here knows what the options are.
-/

namespace VcOperator

namespace CommandLine

/-- What a word may be. -/
inductive Pattern where
  | word (text : String)
  /-- A word that begins so. -/
  | starting (lead : String)
  deriving DecidableEq, Repr

/-- The word is what the pattern says. -/
def Pattern.fits : Pattern → String → Bool
  | word text, arg => arg = text
  | starting lead, arg => lead.toList.isPrefixOf arg.toList

/-- What a rule reads. -/
inductive Arm (σ ε : Type) where
  /-- The word itself. -/
  | alone (read : String → Except ε σ)
  /-- The word after it, which may be missing. -/
  | value (missing : ε) (read : String → Except ε σ)

/-- A rule for the words of some patterns. -/
structure Rule (σ ε : Type) where
  patterns : List Pattern
  arm : Arm σ ε

variable {σ ε υ : Type} {rules : List (Rule σ ε)} {unknown : String → ε} {apply : υ → σ → υ}
  {arg lead : String} {a : Arm σ ε}

/-- What the first rule reads that a word matches. -/
def armOf (rules : List (Rule σ ε)) (arg : String) : Option (Arm σ ε) :=
  (rules.find? fun rule => rule.patterns.any (·.fits arg)).map Rule.arm

/-- The loop. -/
def parse (rules : List (Rule σ ε)) (unknown : String → ε) (apply : υ → σ → υ) (options : υ) :
    List String → Except ε υ
  | [] => .ok options
  | arg :: args =>
    match armOf rules arg with
    | none => .error (unknown arg)
    | some (.alone read) =>
      match read arg with
      | .error e => .error e
      | .ok setting => parse rules unknown apply (apply options setting) args
    | some (.value missing read) =>
      match args with
      | [] => .error missing
      | value :: args =>
        match read value with
        | .error e => .error e
        | .ok setting => parse rules unknown apply (apply options setting) args

/-! ## What is accepted -/

/-- The words that a setting is read from. -/
inductive Spells (rules : List (Rule σ ε)) : List String → σ → Prop
  | alone {arg : String} {read : String → Except ε σ} {setting : σ} :
      armOf rules arg = some (.alone read) → read arg = .ok setting → Spells rules [arg] setting
  | value {arg value : String} {missing : ε} {read : String → Except ε σ} {setting : σ} :
      armOf rules arg = some (.value missing read) → read value = .ok setting →
      Spells rules [arg, value] setting

/-- The faults that words may begin with. -/
inductive Fails (rules : List (Rule σ ε)) (unknown : String → ε) : List String → ε → Prop
  | unknown {arg : String} {args : List String} :
      armOf rules arg = none → Fails rules unknown (arg :: args) (unknown arg)
  | alone {arg : String} {args : List String} {read : String → Except ε σ} {e : ε} :
      armOf rules arg = some (.alone read) → read arg = .error e →
      Fails rules unknown (arg :: args) e
  | missing {arg : String} {missing : ε} {read : String → Except ε σ} :
      armOf rules arg = some (.value missing read) → Fails rules unknown [arg] missing
  | value {arg value : String} {args : List String} {missing e : ε}
      {read : String → Except ε σ} :
      armOf rules arg = some (.value missing read) → read value = .error e →
      Fails rules unknown (arg :: value :: args) e

/-- A line begins with the words of these settings, and this is the rest of it. -/
inductive Reads (spells : List String → σ → Prop) : List String → List σ → List String → Prop
  | nil {rest : List String} : Reads spells rest [] rest
  | cons {words line rest : List String} {setting : σ} {settings : List σ} :
      spells words setting → Reads spells line settings rest →
      Reads spells (words ++ line) (setting :: settings) rest

/-- What holds of every setting with words holds of those of a line. -/
theorem Reads.forall_mem {spells : List String → σ → Prop} {P : σ → Prop}
    (hspells : ∀ words setting, spells words setting → P setting) {line rest : List String}
    {settings : List σ} (h : Reads spells line settings rest) :
    ∀ setting ∈ settings, P setting := by
  induction h with
  | nil => exact fun _ hmem => (List.not_mem_nil hmem).elim
  | cons hwords _ ih => exact List.forall_mem_cons.2 ⟨hspells _ _ hwords, ih⟩

/-- What words spell is read. -/
theorem parse_of_spells {words : List String} {setting : σ} (h : Spells rules words setting)
    (options : υ) (args : List String) : parse rules unknown apply options (words ++ args) =
      parse rules unknown apply (apply options setting) args := by
  cases h with
  | alone harm hread => rw [List.singleton_append, parse, harm]; simp only [hread]
  | value harm hread =>
    rw [List.cons_append, List.singleton_append, parse, harm]; simp only [hread]

theorem parse_of_reads {line rest : List String} {settings : List σ}
    (h : Reads (Spells rules) line settings rest) (options : υ) :
    parse rules unknown apply options line =
      parse rules unknown apply (settings.foldl apply options) rest := by
  induction h generalizing options with
  | nil => rfl
  | cons hspells _ ih => rw [parse_of_spells hspells, ih, List.foldl_cons]

theorem parse_of_fails {rest : List String} {e : ε} (h : Fails rules unknown rest e)
    (options : υ) : parse rules unknown apply options rest = .error e := by
  cases h with
  | unknown harm => rw [parse, harm]
  | alone harm hread => rw [parse, harm]; simp only [hread]
  | missing harm => rw [parse, harm]
  | value harm hread => rw [parse, harm]; simp only [hread]

/-- **Every line is read to its end, or to its first fault.** A rule may take two words, so the
induction is on the length of the line. -/
theorem reads_or_fails (rules : List (Rule σ ε)) (unknown : String → ε) (line : List String) :
    ∃ settings rest, Reads (Spells rules) line settings rest ∧
      (rest = [] ∨ ∃ e, Fails rules unknown rest e) := by
  induction hlength : line.length using Nat.strongRecOn generalizing line with
  | ind n ih =>
    subst hlength
    cases line with
    | nil => exact ⟨[], [], .nil, .inl rfl⟩
    | cons arg args =>
      cases harm : armOf rules arg with
      | none => exact ⟨[], arg :: args, .nil, .inr ⟨_, .unknown harm⟩⟩
      | some a =>
        cases a with
        | alone read =>
          cases hread : read arg with
          | error e => exact ⟨[], arg :: args, .nil, .inr ⟨e, .alone harm hread⟩⟩
          | ok setting =>
            obtain ⟨settings, rest, hreads, hrest⟩ := ih _ (by simp) args rfl
            exact ⟨setting :: settings, rest, .cons (.alone harm hread) hreads, hrest⟩
        | value missing read =>
          cases args with
          | nil => exact ⟨[], [arg], .nil, .inr ⟨missing, .missing harm⟩⟩
          | cons value args =>
            cases hread : read value with
            | error e => exact ⟨[], arg :: value :: args, .nil, .inr ⟨e, .value harm hread⟩⟩
            | ok setting =>
              have hshorter : args.length < (arg :: value :: args).length := by
                simp only [List.length_cons]; omega
              obtain ⟨settings, rest, hreads, hrest⟩ := ih _ hshorter args rfl
              exact ⟨setting :: settings, rest, .cons (.value harm hread) hreads, hrest⟩

/-- **What is accepted**: the words of settings in a row, each of which is applied. -/
theorem parse_eq_ok_iff {line : List String} {options options' : υ} :
    parse rules unknown apply options line = .ok options' ↔
      ∃ settings, Reads (Spells rules) line settings [] ∧
        options' = settings.foldl apply options := by
  constructor
  · intro hparse
    obtain ⟨settings, rest, hreads, rfl | ⟨e, hfails⟩⟩ := reads_or_fails rules unknown line
    · rw [parse_of_reads hreads, parse, Except.ok.injEq] at hparse
      exact ⟨settings, hreads, hparse.symm⟩
    · rw [parse_of_reads hreads, parse_of_fails hfails] at hparse
      cases hparse
  · rintro ⟨settings, hreads, rfl⟩
    rw [parse_of_reads hreads, parse]

/-- **What is not**: the words of settings, and then a fault. -/
theorem parse_eq_error_iff {line : List String} {options : υ} {e : ε} :
    parse rules unknown apply options line = .error e ↔
      ∃ settings rest, Reads (Spells rules) line settings rest ∧ Fails rules unknown rest e := by
  constructor
  · intro hparse
    obtain ⟨settings, rest, hreads, rfl | ⟨e', hfails⟩⟩ := reads_or_fails rules unknown line
    · rw [parse_of_reads hreads, parse] at hparse
      cases hparse
    · rw [parse_of_reads hreads, parse_of_fails hfails, Except.error.injEq] at hparse
      exact ⟨settings, rest, hreads, hparse ▸ hfails⟩
  · rintro ⟨settings, rest, hreads, hfails⟩
    rw [parse_of_reads hreads, parse_of_fails hfails]

/-! ## Words with a lead -/

/-- The pattern fits no word with this lead. -/
def Pattern.misses (lead : String) : Pattern → Bool
  | word text => !lead.toList.isPrefixOf text.toList
  | starting other => !other.toList.isPrefixOf lead.toList && !lead.toList.isPrefixOf other.toList

/-- It fits every word with this lead. -/
def Pattern.covers (lead : String) : Pattern → Bool
  | word _ => false
  | starting other => other.toList.isPrefixOf lead.toList

theorem Pattern.fits_of_misses {pattern : Pattern} (h : pattern.misses lead = true)
    (text : String) : pattern.fits (lead ++ text) = false := by
  cases pattern with
  | word other =>
    rw [misses, Bool.not_eq_true', ← Bool.not_eq_true, List.isPrefixOf_iff_prefix] at h
    rw [fits, decide_eq_false_iff_not]
    rintro rfl
    exact h (by simp)
  | starting other =>
    rw [misses, Bool.and_eq_true, Bool.not_eq_true', Bool.not_eq_true', ← Bool.not_eq_true,
      ← Bool.not_eq_true, List.isPrefixOf_iff_prefix, List.isPrefixOf_iff_prefix] at h
    rw [fits, ← Bool.not_eq_true, List.isPrefixOf_iff_prefix, String.toList_append]
    intro hfits
    rcases List.prefix_or_prefix_of_prefix hfits (List.prefix_append _ _) with hle | hle
    · exact h.1 hle
    · exact h.2 hle

theorem Pattern.fits_of_covers {pattern : Pattern} (h : pattern.covers lead = true)
    (text : String) : pattern.fits (lead ++ text) = true := by
  cases pattern with
  | word => cases h
  | starting other =>
    rw [covers, List.isPrefixOf_iff_prefix] at h
    rw [fits, List.isPrefixOf_iff_prefix, String.toList_append]
    exact h.trans (List.prefix_append _ _)

/-- The first rule with a pattern that the word matches is at this place. -/
theorem armOf_eq_getElem? (rules : List (Rule σ ε)) (arg : String) (i : ℕ)
    (hfirst : rules.findIdx? (fun rule => rule.patterns.any (·.fits arg)) = some i) :
    armOf rules arg = rules[i]?.map Rule.arm := by
  rw [armOf, List.find?_eq_bind_findIdx?_getElem?, hfirst, Option.bind_some]

/-- The same, of every word with a lead: the rules before miss it, and this one covers it. -/
theorem armOf_append_eq_getElem? (rules : List (Rule σ ε)) (lead : String) (i : ℕ)
    (hbefore : (rules.take i).all (fun rule => rule.patterns.all (·.misses lead)) = true)
    (hcovers : rules[i]?.any (fun rule => rule.patterns.any (·.covers lead)) = true)
    (text : String) : armOf rules (lead ++ text) = rules[i]?.map Rule.arm := by
  obtain ⟨rule, hrule, hrulecovers⟩ := (Option.any_eq_true _ _).1 hcovers
  obtain ⟨hlt, hget⟩ := List.getElem?_eq_some_iff.1 hrule
  refine armOf_eq_getElem? rules (lead ++ text) i
    (List.findIdx?_eq_some_iff_getElem.2 ⟨hlt, ?_, ?_⟩)
  · obtain ⟨pattern, hmem, hpattern⟩ := List.any_eq_true.1 hrulecovers
    rw [hget]
    exact List.any_eq_true.2 ⟨pattern, hmem, Pattern.fits_of_covers hpattern text⟩
  · intro j hj
    have hmem : rules[j] ∈ rules.take i := List.mem_take_iff_getElem.2 ⟨j, by omega, rfl⟩
    rw [Bool.not_eq_true, List.any_eq_false]
    intro pattern hpattern
    have hmisses := List.all_eq_true.1 (List.all_eq_true.1 hbefore _ hmem) pattern hpattern
    rw [Pattern.fits_of_misses hmisses text]
    exact Bool.false_ne_true

/-- The word that is read matches a pattern of the rule. -/
theorem exists_rule_of_armOf (h : armOf rules arg = some a) :
    ∃ rule ∈ rules, rule.arm = a ∧ ∃ pattern ∈ rule.patterns, pattern.fits arg = true := by
  obtain ⟨rule, hfind, harm⟩ := Option.map_eq_some_iff.1 h
  have hany : rule.patterns.any (·.fits arg) = true :=
    List.find?_some (p := fun rule : Rule σ ε => rule.patterns.any (·.fits arg)) hfind
  exact ⟨rule, List.mem_of_find?_eq_some hfind, harm, List.any_eq_true.1 hany⟩

end CommandLine

end VcOperator
