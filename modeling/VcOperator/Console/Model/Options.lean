import VcOperator.Common.Options
import VcOperator.Common.Text
import VcOperator.Console.Model.App
/-!
# The command line of the console

`parse_args` and `build_config`. The arms of the `match` are the rules of a
command line, in their order, and an error is its text. The defaults that depend on the
environment and on which files there are come from outside.
-/

namespace VcOperator

namespace Console

open CommandLine (Arm Pattern Rule)
open Launch (LaunchRuntime)

/-! ## The values -/

/-- `str::trim_start_matches`: the lead is taken away as often as it is there. -/
def trimStartMatches (lead : List Char) : ℕ → List Char → List Char
  | 0, text => text
  | fuel + 1, text =>
    if lead ≠ [] ∧ lead.isPrefixOf text then trimStartMatches lead fuel (text.drop lead.length)
    else text

/-- `str::split_once` at an equals sign, and what comes after it. -/
def afterEquals (arg : String) : String :=
  String.ofList ((arg.toList.dropWhile (· ≠ '=')).drop 1)

/-- `LaunchRuntime::from_str`. -/
def runtimeFromStr (raw : String) : Except String LaunchRuntime :=
  let other := toAsciiLowercase (String.ofList (trim raw.toList))
  if other = "headless" then .ok .headless
  else if other = "terminal" then .ok .terminal
  else if other = "visible" then .ok .visible
  else .error ("unsupported runtime: " ++ other ++ " (expected headless|terminal|visible)")

/-- The loop of `u64::from_str` over the digits. -/
def parseDigits (result : ℕ) : List Char → Except String ℕ
  | [] => .ok result
  | c :: cs =>
    if ¬ c.isDigit then .error "invalid digit found in string"
    else if 2 ^ 64 ≤ result * 10 + (c.toNat - '0'.toNat) then
      .error "number too large to fit in target type"
    else parseDigits (result * 10 + (c.toNat - '0'.toNat)) cs

/-- `u64::from_str`. -/
def parseU64 (raw : String) : Except String ℕ :=
  match raw.toList with
  | [] => .error "cannot parse integer from empty string"
  | ['+'] => .error "invalid digit found in string"
  | '+' :: digits => parseDigits 0 digits
  | digits => parseDigits 0 digits

/-! ## The options -/

/-- `CliOptions`. -/
@[ext]
structure CliOptions where
  stateRoot : Option OsString
  commandDeck : Option OsString
  launchRoot : Option OsString
  launchRuntime : Option LaunchRuntime
  terminalBinary : Option OsString
  tickMs : ℕ
  noVerifyGate : Bool

/-- `CliOptions::default`. -/
def CliOptions.default : CliOptions where
  stateRoot := none
  commandDeck := none
  launchRoot := none
  launchRuntime := none
  terminalBinary := none
  tickMs := 250
  noVerifyGate := false

/-- What an arm sets. -/
inductive Setting where
  | stateRoot (path : OsString)
  | commandDeck (path : OsString)
  | launchRoot (path : OsString)
  | launchRuntime (runtime : LaunchRuntime)
  | terminalBinary (path : OsString)
  | tickMs (ms : ℕ)
  | noVerifyGate

/-- The options after an arm. -/
def CliOptions.set (options : CliOptions) : Setting → CliOptions
  | .stateRoot path => { options with stateRoot := some path }
  | .commandDeck path => { options with commandDeck := some path }
  | .launchRoot path => { options with launchRoot := some path }
  | .launchRuntime runtime => { options with launchRuntime := some runtime }
  | .terminalBinary path => { options with terminalBinary := some path }
  | .tickMs ms => { options with tickMs := ms }
  | .noVerifyGate => { options with noVerifyGate := true }

/-- Why there are no options. -/
inductive Stop where
  /-- The help is printed, and the process exits. -/
  | help
  | error (message : String)
  deriving DecidableEq

/-- A rule that takes the next word. -/
def takesNext (names : List String) (option : String) (read : String → Except Stop Setting) :
    Rule Setting Stop :=
  ⟨names.map .word, .value (.error (option ++ " requires a value")) read⟩

/-- A rule for words that begin so. -/
def takesRest (leads : List String) (read : String → Except Stop Setting) : Rule Setting Stop :=
  ⟨leads.map .starting, .alone read⟩

/-- A path is taken as it is. -/
def readPath (setting : OsString → Setting) (value : String) : Except Stop Setting :=
  .ok (setting (.ofString value))

/-- A path after a lead that is taken away as often as it is there. -/
def readTrimmed (setting : OsString → Setting) (lead : String) (arg : String) :
    Except Stop Setting :=
  readPath setting (String.ofList (trimStartMatches lead.toList arg.toList.length arg.toList))

/-- `value.parse::<LaunchRuntime>()`. -/
def readRuntime (value : String) : Except Stop Setting :=
  (runtimeFromStr value).mapError .error |>.map .launchRuntime

/-- `value.parse::<u64>()`. -/
def readTickMs (value : String) : Except Stop Setting :=
  (parseU64 value).mapError .error |>.map .tickMs

/-- The arms of the `match`. -/
def arms : List (Rule Setting Stop) :=
  [⟨[.word "--help", .word "-h"], .alone fun _ => .error .help⟩,
    takesNext ["--state-root"] "--state-root" (readPath .stateRoot),
    takesRest ["--state-root="] (readTrimmed .stateRoot "--state-root="),
    takesNext ["--deck", "--command-deck"] "--deck" (readPath .commandDeck),
    takesRest ["--deck=", "--command-deck="] (readPath .commandDeck ∘ afterEquals),
    takesNext ["--root"] "--root" (readPath .launchRoot),
    takesRest ["--root="] (readTrimmed .launchRoot "--root="),
    takesNext ["--runtime"] "--runtime" readRuntime,
    takesRest ["--runtime="] (readRuntime ∘ afterEquals),
    takesNext ["--terminal-binary", "--zellij"] "--terminal-binary" (readPath .terminalBinary),
    takesRest ["--terminal-binary=", "--zellij="] (readPath .terminalBinary ∘ afterEquals),
    takesNext ["--tick-ms"] "--tick-ms" readTickMs,
    ⟨[.word "--no-verify-gate"], .alone fun _ => .ok .noVerifyGate⟩]

/-- `parse_args`, of the arguments after the program's name. -/
def parseArgs (args : List String) : Except Stop CliOptions :=
  CommandLine.parse arms (fun arg => .error ("unknown argument: " ++ arg)) CliOptions.set .default
    args

/-! ## The config -/

/-- The defaults, as they are found outside. -/
structure Defaults where
  stateRoot : OsString
  commandDeck : OsString
  /-- `default_launch_root` of a command deck. -/
  launchRoot : OsString → OsString
  terminalBinary : OsString

/-- `build_config`, and `tick_rate` in milliseconds. -/
def buildConfig (defaults : Defaults) (options : CliOptions) : AppConfig × ℕ :=
  let commandDeck := options.commandDeck.getD defaults.commandDeck
  ({ stateRoot := options.stateRoot.getD defaults.stateRoot
     launchRoot := options.launchRoot.getD (defaults.launchRoot commandDeck)
     launchRuntime := options.launchRuntime.getD .terminal
     terminalBinary := options.terminalBinary.getD defaults.terminalBinary
     commandDeck := commandDeck
     noVerifyGate := options.noVerifyGate }, max options.tickMs 50)

end Console

end VcOperator
