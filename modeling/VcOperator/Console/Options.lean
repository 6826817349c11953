import VcOperator.Common.LastSet
import VcOperator.Console.Model.Options
/-!
# What the console's command line says

An option with a value is its name and then the value, or one word in which an
equals sign is between them; the last word on an option decides. `parseArgs_exact` says
which lines are accepted, what they set, and what the first fault of another
line is. A value is never taken for an option, `--tick-ms` has no form with an equals
sign, and a lead that is there twice is taken away twice from two of the options.
-/

namespace VcOperator

namespace Console

open CommandLine (Arm Pattern Rule Spells Fails Reads armOf)

/-! ## Words that hold a name and a value -/

/-- The lead is gone, as often as it was there. -/
inductive Trimmed (lead : List Char) : List Char → List Char → Prop
  | done {text : List Char} : ¬ lead <+: text → Trimmed lead text text
  | more {text rest : List Char} : Trimmed lead text rest → Trimmed lead (lead ++ text) rest

theorem Trimmed.unique {lead text rest rest' : List Char} (h : Trimmed lead text rest)
    (h' : Trimmed lead text rest') : rest = rest' := by
  induction h with
  | done hno =>
    cases h' with
    | done => rfl
    | more => exact (hno (List.prefix_append _ _)).elim
  | @more text rest _ ih =>
    generalize hword : lead ++ text = word at h'
    cases h' with
    | done hno => exact (hno (hword ▸ List.prefix_append _ _)).elim
    | more h' => exact ih (List.append_cancel_left hword ▸ h')

/-- **The loop takes away all of them.** -/
theorem trimmed_trimStartMatches {lead text : List Char} {fuel : ℕ} (hlead : lead ≠ [])
    (hfuel : text.length ≤ fuel) : Trimmed lead text (trimStartMatches lead fuel text) := by
  induction fuel generalizing text with
  | zero =>
    obtain rfl := List.eq_nil_of_length_eq_zero (Nat.le_zero.1 hfuel)
    exact .done fun hprefix => hlead (List.prefix_nil.1 hprefix)
  | succ fuel ih =>
    rw [trimStartMatches]
    split_ifs with hbegins
    · obtain ⟨rest, rfl⟩ := List.isPrefixOf_iff_prefix.1 hbegins.2
      have hpos := List.length_pos_iff.2 hlead
      rw [List.length_append] at hfuel
      rw [List.drop_left]
      exact .more (ih (by omega))
    · exact .done fun hprefix => hbegins ⟨hlead, List.isPrefixOf_iff_prefix.2 hprefix⟩

/-- What is after the first equals sign. -/
theorem afterEquals_append {name : String} (hname : '=' ∉ name.toList) (text : String) :
    afterEquals (name ++ "=" ++ text) = text := by
  have hdrop : (name ++ "=" ++ text).toList.dropWhile (· ≠ '=') = '=' :: text.toList := by
    rw [String.toList_append, String.toList_append, List.append_assoc,
      List.dropWhile_append_of_pos fun c hc => by
        rw [decide_eq_true_eq]; rintro rfl; exact hname hc]
    rfl
  rw [afterEquals, hdrop, List.drop_one, List.tail_cons, String.ofList_toList]

/-! ## The options -/

/-- An option that has a value. -/
inductive Key where
  | stateRoot | commandDeck | launchRoot | launchRuntime | terminalBinary | tickMs
  deriving DecidableEq

namespace Key

/-- The name that a message calls it by. -/
def name : Key → String
  | stateRoot => "--state-root"
  | commandDeck => "--deck"
  | launchRoot => "--root"
  | launchRuntime => "--runtime"
  | terminalBinary => "--terminal-binary"
  | tickMs => "--tick-ms"

/-- All names. -/
def names : Key → List String
  | commandDeck => ["--deck", "--command-deck"]
  | terminalBinary => ["--terminal-binary", "--zellij"]
  | key => [key.name]

/-- What its value sets. -/
def read : Key → String → Except Stop Setting
  | stateRoot => readPath .stateRoot
  | commandDeck => readPath .commandDeck
  | launchRoot => readPath .launchRoot
  | launchRuntime => readRuntime
  | terminalBinary => readPath .terminalBinary
  | tickMs => readTickMs

/-- The stop without a value. -/
def missing (key : Key) : Stop := .error (key.name ++ " requires a value")

/-- How a word that begins with a name and an equals sign is cut. -/
inductive Cut where
  | never | once | trimmed
  deriving DecidableEq

/-- Of each option. -/
def cut : Key → Cut
  | stateRoot | launchRoot => .trimmed
  | commandDeck | launchRuntime | terminalBinary => .once
  | tickMs => .never

/-- All of them. -/
def all : List Key :=
  [stateRoot, commandDeck, launchRoot, launchRuntime, terminalBinary, tickMs]

theorem mem_all (key : Key) : key ∈ all := by cases key <;> decide

/-- The word holds a name and this value. -/
inductive Joined (key : Key) : String → String → Prop
  | once {name value : String} : key.cut = .once → name ∈ key.names →
      Joined key (name ++ "=" ++ value) value
  | trimmed {name text value : String} : key.cut = .trimmed → name ∈ key.names →
      Trimmed (name ++ "=").toList text.toList value.toList →
      Joined key (name ++ "=" ++ text) value

end Key

/-- The words of a setting. -/
inductive Spelled : List String → Setting → Prop
  | next {key : Key} {name value : String} {setting : Setting} :
      name ∈ key.names → key.read value = .ok setting → Spelled [name, value] setting
  | joined {key : Key} {word value : String} {setting : Setting} :
      key.Joined word value → key.read value = .ok setting → Spelled [word] setting
  | noVerifyGate : Spelled ["--no-verify-gate"] .noVerifyGate

/-- The word is not one of the console's. -/
def Unknown (arg : String) : Prop :=
  arg ∉ ["--help", "-h", "--no-verify-gate"] ∧
    ∀ key : Key, arg ∉ key.names ∧ ∀ value, ¬ key.Joined arg value

/-- What stops the console, at words that begin so. -/
inductive Faulty : List String → Stop → Prop
  | help {arg : String} {rest : List String} :
      arg ∈ ["--help", "-h"] → Faulty (arg :: rest) .help
  | missing {key : Key} {name : String} : name ∈ key.names → Faulty [name] key.missing
  | value {key : Key} {name value : String} {rest : List String} {stop : Stop} :
      name ∈ key.names → key.read value = .error stop → Faulty (name :: value :: rest) stop
  | joined {key : Key} {word value : String} {rest : List String} {stop : Stop} :
      key.Joined word value → key.read value = .error stop → Faulty (word :: rest) stop
  | unknown {arg : String} {rest : List String} :
      Unknown arg → Faulty (arg :: rest) (.error ("unknown argument: " ++ arg))

/-! ## The rules of the loop -/

theorem armOf_help {arg : String} (h : arg ∈ ["--help", "-h"]) :
    armOf arms arg = some (.alone fun _ => .error .help) := by
  rcases List.mem_pair.1 h with rfl | rfl <;>
    exact CommandLine.armOf_eq_getElem? arms _ 0 (by decide +kernel)

theorem armOf_noVerifyGate :
    armOf arms "--no-verify-gate" = some (.alone fun _ => .ok .noVerifyGate) :=
  CommandLine.armOf_eq_getElem? arms _ 12 (by decide +kernel)

/-- Where the rule of its names is, which that of the words with an equals sign follows. -/
def Key.place : Key → ℕ
  | stateRoot => 1
  | commandDeck => 3
  | launchRoot => 5
  | launchRuntime => 7
  | terminalBinary => 9
  | tickMs => 11

theorem armOf_name {key : Key} {name : String} (h : name ∈ key.names) :
    armOf arms name = some (.value key.missing key.read) := by
  have hfirst : ∀ key ∈ Key.all, ∀ name ∈ key.names,
      arms.findIdx? (fun rule => rule.patterns.any (·.fits name)) = some key.place := by
    decide +kernel
  rw [CommandLine.armOf_eq_getElem? arms name key.place (hfirst key key.mem_all name h)]
  cases key <;> rfl

/-- **A word with a lead is for the rule after it**, since no rule before has a pattern of it. -/
theorem armOf_lead {key : Key} {name : String} (hcut : key.cut ≠ .never) (hname : name ∈ key.names)
    (text : String) : armOf arms (name ++ "=" ++ text) = arms[key.place + 1]?.map Rule.arm := by
  have hbefore : ∀ key ∈ Key.all, key.cut ≠ .never → ∀ name ∈ key.names,
      (arms.take (key.place + 1)).all
        (fun rule => rule.patterns.all (·.misses (name ++ "="))) = true := by
    decide +kernel
  have hcovers : ∀ key ∈ Key.all, key.cut ≠ .never → ∀ name ∈ key.names,
      arms[key.place + 1]?.any
        (fun rule => rule.patterns.any (·.covers (name ++ "="))) = true := by
    decide +kernel
  exact CommandLine.armOf_append_eq_getElem? arms (name ++ "=") (key.place + 1)
    (hbefore key key.mem_all hcut name hname) (hcovers key key.mem_all hcut name hname) text

theorem no_equals {key : Key} {name : String} (h : name ∈ key.names) : '=' ∉ name.toList := by
  have hall : ∀ key ∈ Key.all, ∀ name ∈ key.names, '=' ∉ name.toList := by decide +kernel
  exact hall key key.mem_all name h

theorem readTrimmed_of_trimmed {setting : OsString → Setting} {lead text value : String}
    (hlead : lead.toList ≠ []) (h : Trimmed lead.toList text.toList value.toList) :
    readTrimmed setting lead (lead ++ text) = readPath setting value := by
  have hloop := trimmed_trimStartMatches hlead (le_refl (lead ++ text).toList.length)
  have hword : Trimmed lead.toList (lead ++ text).toList value.toList := by
    rw [String.toList_append]
    exact .more h
  rw [readTrimmed, hloop.unique hword, String.ofList_toList]

/-- **A word that holds a value is read as that value.** -/
theorem armOf_joined {key : Key} {word value : String} (h : key.Joined word value) :
    ∃ read, armOf arms word = some (.alone read) ∧ read word = key.read value := by
  cases h with
  | @once name value hcut hname =>
    have harm := armOf_lead (by rw [hcut]; decide) hname value
    have hafter := afterEquals_append (no_equals hname) value
    cases key with
    | commandDeck =>
      exact ⟨readPath .commandDeck ∘ afterEquals, harm,
        by rw [Function.comp_apply, hafter, Key.read]⟩
    | launchRuntime =>
      exact ⟨readRuntime ∘ afterEquals, harm, by rw [Function.comp_apply, hafter, Key.read]⟩
    | terminalBinary =>
      exact ⟨readPath .terminalBinary ∘ afterEquals, harm,
        by rw [Function.comp_apply, hafter, Key.read]⟩
    | stateRoot => cases hcut
    | launchRoot => cases hcut
    | tickMs => cases hcut
  | @trimmed name text value hcut hname htrimmed =>
    have harm := armOf_lead (by rw [hcut]; decide) hname text
    cases key with
    | stateRoot =>
      obtain rfl := List.mem_singleton.1 hname
      have hlead : Key.stateRoot.name ++ "=" = "--state-root=" := by decide +kernel
      rw [hlead] at htrimmed harm ⊢
      exact ⟨readTrimmed .stateRoot "--state-root=", harm,
        readTrimmed_of_trimmed (by decide +kernel) htrimmed⟩
    | launchRoot =>
      obtain rfl := List.mem_singleton.1 hname
      have hlead : Key.launchRoot.name ++ "=" = "--root=" := by decide +kernel
      rw [hlead] at htrimmed harm ⊢
      exact ⟨readTrimmed .launchRoot "--root=", harm,
        readTrimmed_of_trimmed (by decide +kernel) htrimmed⟩
    | commandDeck => cases hcut
    | launchRuntime => cases hcut
    | terminalBinary => cases hcut
    | tickMs => cases hcut

/-- A word that begins with a name and an equals sign holds some value. -/
theorem joined_of_lead {key : Key} {name : String} (hcut : key.cut ≠ .never)
    (hname : name ∈ key.names) (text : String) :
    ∃ value, key.Joined (name ++ "=" ++ text) value := by
  cases h : key.cut with
  | never => exact (hcut h).elim
  | once => exact ⟨text, .once h hname⟩
  | trimmed =>
    have hlead : (name ++ "=").toList ≠ [] := by
      rw [String.toList_append]
      exact List.append_ne_nil_of_right_ne_nil _ (by decide)
    have htrimmed := trimmed_trimStartMatches hlead (le_refl text.toList.length)
    rw [← String.toList_ofList (l := trimStartMatches _ _ _)] at htrimmed
    exact ⟨_, .trimmed h hname htrimmed⟩

/-- The pattern is of a name, or of a name and an equals sign. -/
def knows : Pattern → Bool
  | .word text => text ∈ ["--help", "-h", "--no-verify-gate"] || Key.all.any (text ∈ ·.names)
  | .starting lead =>
    Key.all.any fun key => key.cut ≠ .never && key.names.any (lead = · ++ "=")

theorem knows_of_mem_arms : ∀ rule ∈ arms, ∀ pattern ∈ rule.patterns, knows pattern = true := by
  decide +kernel

/-- **No rule is for another word.** -/
theorem armOf_unknown {arg : String} (h : Unknown arg) : armOf arms arg = none := by
  cases harm : armOf arms arg with
  | none => rfl
  | some a =>
    obtain ⟨rule, hrule, -, pattern, hpattern, hfits⟩ := CommandLine.exists_rule_of_armOf harm
    have hknows := knows_of_mem_arms rule hrule pattern hpattern
    cases pattern with
    | word text =>
      -- the word itself is one that is known
      obtain rfl : arg = text := of_decide_eq_true hfits
      rw [knows, Bool.or_eq_true, decide_eq_true_eq, List.any_eq_true] at hknows
      rcases hknows with hword | ⟨key, -, hkey⟩
      · exact (h.1 hword).elim
      · exact ((h.2 key).1 (of_decide_eq_true hkey)).elim
    | starting lead =>
      -- the lead is, and what is after it is a value
      obtain ⟨key, -, hkey⟩ := List.any_eq_true.1 hknows
      rw [Bool.and_eq_true, decide_eq_true_eq, List.any_eq_true] at hkey
      obtain ⟨hcut, name, hname, hlead⟩ := hkey
      obtain rfl := of_decide_eq_true hlead
      obtain ⟨text, htext⟩ := List.isPrefixOf_iff_prefix.1 hfits
      obtain rfl : arg = name ++ "=" ++ String.ofList text := by
        rw [← String.toList_inj, String.toList_append, String.toList_ofList, htext]
      obtain ⟨value, hjoined⟩ := joined_of_lead hcut hname (String.ofList text)
      exact ((h.2 key).2 value hjoined).elim

/-- What a word is. -/
theorem known_or_unknown (arg : String) : arg ∈ ["--help", "-h"] ∨ (∃ key : Key, arg ∈ key.names) ∨
    (∃ (key : Key) (value : String), key.Joined arg value) ∨ arg = "--no-verify-gate" ∨
      Unknown arg := by
  by_cases hname : ∃ key : Key, arg ∈ key.names
  · exact .inr (.inl hname)
  by_cases hjoined : ∃ (key : Key) (value : String), key.Joined arg value
  · exact .inr (.inr (.inl hjoined))
  by_cases hword : arg ∈ ["--help", "-h", "--no-verify-gate"]
  · rcases List.mem_cons.1 hword with rfl | hword
    · exact .inl List.mem_cons_self
    · rcases List.mem_pair.1 hword with rfl | rfl
      · exact .inl (List.mem_cons_of_mem _ List.mem_cons_self)
      · exact .inr (.inr (.inr (.inl rfl)))
  · exact .inr (.inr (.inr (.inr ⟨hword, fun key =>
      ⟨fun h => hname ⟨key, h⟩, fun value h => hjoined ⟨key, value, h⟩⟩⟩)))

/-- What the rules make of a word. -/
inductive ArmIs (arg : String) : Option (Arm Setting Stop) → Prop
  | help : arg ∈ ["--help", "-h"] → ArmIs arg (some (.alone fun _ => .error .help))
  | name {key : Key} : arg ∈ key.names → ArmIs arg (some (.value key.missing key.read))
  | joined {key : Key} {value : String} {read : String → Except Stop Setting} :
      key.Joined arg value → read arg = key.read value → ArmIs arg (some (.alone read))
  | noVerifyGate : arg = "--no-verify-gate" →
      ArmIs arg (some (.alone fun _ => .ok .noVerifyGate))
  | unknown : Unknown arg → ArmIs arg none

theorem armIs_armOf (arg : String) : ArmIs arg (armOf arms arg) := by
  rcases known_or_unknown arg with hhelp | ⟨key, hname⟩ | ⟨key, value, hjoined⟩ | rfl | hunknown
  · rw [armOf_help hhelp]
    exact .help hhelp
  · rw [armOf_name hname]
    exact .name hname
  · obtain ⟨read, harm, hread⟩ := armOf_joined hjoined
    rw [harm]
    exact .joined hjoined hread
  · rw [armOf_noVerifyGate]
    exact .noVerifyGate rfl
  · rw [armOf_unknown hunknown]
    exact .unknown hunknown

/-- The rules read the words of settings. -/
theorem spells_arms_iff {words : List String} {setting : Setting} :
    Spells arms words setting ↔ Spelled words setting := by
  constructor
  · intro h
    cases h with
    | @alone arg read setting harm hread =>
      have his := armIs_armOf arg
      rw [harm] at his
      cases his with
      | help => cases hread
      | joined hjoined hword => exact .joined hjoined (hword.symm.trans hread)
      | noVerifyGate hgate =>
        obtain rfl := Except.ok.inj hread
        exact hgate ▸ .noVerifyGate
    | @value arg value missing read setting harm hread =>
      have his := armIs_armOf arg
      rw [harm] at his
      cases his with
      | name hname => exact .next hname hread
  · intro h
    cases h with
    | next hname hread => exact .value (armOf_name hname) hread
    | joined hjoined hread =>
      obtain ⟨read, harm, hword⟩ := armOf_joined hjoined
      exact .alone harm (hword.trans hread)
    | noVerifyGate => exact .alone armOf_noVerifyGate rfl

/-- And they fail at its faults. -/
theorem fails_arms_iff {rest : List String} {stop : Stop} :
    Fails arms (fun arg => .error ("unknown argument: " ++ arg)) rest stop ↔
      Faulty rest stop := by
  constructor
  · intro h
    cases h with
    | @unknown arg rest harm =>
      have his := armIs_armOf arg
      rw [harm] at his
      cases his with
      | unknown hunknown => exact .unknown hunknown
    | @alone arg rest read stop harm hread =>
      have his := armIs_armOf arg
      rw [harm] at his
      cases his with
      | help hhelp =>
        obtain rfl := Except.error.inj hread
        exact .help hhelp
      | joined hjoined hword => exact .joined hjoined (hword.symm.trans hread)
      | noVerifyGate => cases hread
    | @missing arg missing read harm =>
      have his := armIs_armOf arg
      rw [harm] at his
      cases his with
      | name hname => exact .missing hname
    | @value arg value rest missing stop read harm hread =>
      have his := armIs_armOf arg
      rw [harm] at his
      cases his with
      | name hname => exact .value hname hread
  · intro h
    cases h with
    | help hhelp => exact .alone (armOf_help hhelp) rfl
    | missing hname => exact .missing (armOf_name hname)
    | value hname hread => exact .value (armOf_name hname) hread
    | joined hjoined hread =>
      obtain ⟨read, harm, hword⟩ := armOf_joined hjoined
      exact .alone harm (hword.trans hread)
    | unknown hunknown => exact .unknown (armOf_unknown hunknown)

/-! ## What is set -/

/-- The tick that a setting sets, in milliseconds. -/
def Setting.tick : Setting → Option ℕ
  | .tickMs ms => some ms
  | _ => none

/-- The options of a line, each of which is what the last setting of it says. -/
def optionsOf (settings : List Setting) : CliOptions where
  stateRoot := lastSet (fun | .stateRoot path => some path | _ => none) settings
  commandDeck := lastSet (fun | .commandDeck path => some path | _ => none) settings
  launchRoot := lastSet (fun | .launchRoot path => some path | _ => none) settings
  launchRuntime := lastSet (fun | .launchRuntime runtime => some runtime | _ => none) settings
  terminalBinary := lastSet (fun | .terminalBinary path => some path | _ => none) settings
  tickMs := (lastSet Setting.tick settings).getD 250
  noVerifyGate := (lastSet (fun | .noVerifyGate => some true | _ => none) settings).getD false

theorem foldl_set_default (settings : List Setting) :
    settings.foldl CliOptions.set .default = optionsOf settings := by
  ext1
  · exact (get_foldl_eq_lastSet_or CliOptions.stateRoot _
      (by intro s call; cases call <;> rfl) settings _).trans Option.or_none
  · exact (get_foldl_eq_lastSet_or CliOptions.commandDeck _
      (by intro s call; cases call <;> rfl) settings _).trans Option.or_none
  · exact (get_foldl_eq_lastSet_or CliOptions.launchRoot _
      (by intro s call; cases call <;> rfl) settings _).trans Option.or_none
  · exact (get_foldl_eq_lastSet_or CliOptions.launchRuntime _
      (by intro s call; cases call <;> rfl) settings _).trans Option.or_none
  · exact (get_foldl_eq_lastSet_or CliOptions.terminalBinary _
      (by intro s call; cases call <;> rfl) settings _).trans Option.or_none
  · exact get_foldl_eq_lastSet CliOptions.tickMs _ (by intro s call; cases call <;> rfl) settings _
  · exact get_foldl_eq_lastSet CliOptions.noVerifyGate _ (by intro s call; cases call <;> rfl)
      settings _

/-- `u64::from_str` gives what 64 bits hold. -/
theorem parseDigits_lt {digits : List Char} {result n : ℕ} (hresult : result < 2 ^ 64)
    (h : parseDigits result digits = .ok n) : n < 2 ^ 64 := by
  induction digits generalizing result with
  | nil =>
    obtain rfl := Except.ok.inj h
    exact hresult
  | cons c digits ih =>
    rw [parseDigits] at h
    split_ifs at h with hdigit hlarge
    exact ih (Nat.lt_of_not_le hlarge) h

theorem parseU64_lt {raw : String} {n : ℕ} (h : parseU64 raw = .ok n) : n < 2 ^ 64 := by
  have hzero : 0 < 2 ^ 64 := Nat.two_pow_pos 64
  rw [parseU64] at h
  split at h
  · cases h
  · cases h
  · exact parseDigits_lt hzero h
  · exact parseDigits_lt hzero h

/-- A tick that is set fits into 64 bits. -/
theorem Spelled.tickMs_lt {words : List String} {setting : Setting} (h : Spelled words setting)
    {ms : ℕ} (hsetting : setting = .tickMs ms) : ms < 2 ^ 64 := by
  have hread : ∀ {key : Key} {value : String}, key.read value = .ok (.tickMs ms) → ms < 2 ^ 64 := by
    intro key value hread
    cases key with
    | tickMs =>
      rw [Key.read, readTickMs] at hread
      cases hparse : parseU64 value with
      | error e =>
        rw [hparse] at hread
        cases hread
      | ok n =>
        rw [hparse] at hread
        obtain rfl := Setting.tickMs.inj (Except.ok.inj hread)
        exact parseU64_lt hparse
    | launchRuntime =>
      rw [Key.read, readRuntime] at hread
      cases hparse : runtimeFromStr value with
      | error e =>
        rw [hparse] at hread
        cases hread
      | ok runtime =>
        rw [hparse] at hread
        cases hread
    | stateRoot => cases hread
    | commandDeck => cases hread
    | launchRoot => cases hread
    | terminalBinary => cases hread
  subst hsetting
  cases h with
  | next _ hvalue => exact hread hvalue
  | joined _ hvalue => exact hread hvalue

/-- **The tick rate** is between fifty milliseconds and what 64 bits hold. -/
theorem tickRate_bounds {args : List String} {settings : List Setting}
    (h : Reads Spelled args settings []) (defaults : Defaults) :
    50 ≤ (buildConfig defaults (optionsOf settings)).2 ∧
      (buildConfig defaults (optionsOf settings)).2 < 2 ^ 64 := by
  have hall : ∀ setting ∈ settings, ∀ ms, setting = .tickMs ms → ms < 2 ^ 64 :=
    h.forall_mem fun _ _ hspelled _ => hspelled.tickMs_lt
  have hset : (optionsOf settings).tickMs < 2 ^ 64 := by
    show (lastSet Setting.tick settings).getD 250 < 2 ^ 64
    cases hlast : lastSet Setting.tick settings with
    | none => decide
    | some ms =>
      obtain ⟨setting, hmem, hsetting⟩ := exists_mem_of_lastSet_eq_some hlast
      cases setting with
      | tickMs ms' =>
        obtain rfl := Option.some.inj hsetting
        exact hall _ hmem _ rfl
      | _ => cases hsetting
  exact ⟨le_max_right _ _, max_lt hset (by decide)⟩

/-- **The command line of the console**: it is the words of settings in a row, and an option is
what the last of them says; or it stops at the first fault. -/
theorem parseArgs_exact (args : List String) :
    (∀ options, parseArgs args = .ok options ↔
      ∃ settings, Reads Spelled args settings [] ∧ options = optionsOf settings) ∧
    (∀ stop, parseArgs args = .error stop ↔
      ∃ settings rest, Reads Spelled args settings rest ∧ Faulty rest stop) ∧
    ∀ defaults options, parseArgs args = .ok options →
      50 ≤ (buildConfig defaults options).2 ∧ (buildConfig defaults options).2 < 2 ^ 64 := by
  have hspells : Spells arms = Spelled := by
    ext words setting
    exact spells_arms_iff
  have hok : ∀ options, parseArgs args = .ok options ↔
      ∃ settings, Reads Spelled args settings [] ∧ options = optionsOf settings := by
    intro options
    rw [parseArgs, CommandLine.parse_eq_ok_iff, hspells]
    simp only [foldl_set_default]
  refine ⟨hok, fun stop => ?_, fun defaults options hparse => ?_⟩
  · rw [parseArgs, CommandLine.parse_eq_error_iff, hspells]
    simp only [fails_arms_iff]
  · obtain ⟨settings, hreads, rfl⟩ := (hok options).1 hparse
    exact tickRate_bounds hreads defaults

end Console

end VcOperator
