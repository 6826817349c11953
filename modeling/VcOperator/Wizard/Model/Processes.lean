import VcOperator.Common.Text
import VcOperator.Config.Model.Wizard
/-!
# The process scan of the wizard

`list_running_mcp_processes`: what it makes of the output of `ps -eo
pid,args`. Lines are taken up to the first that is no text. Which characters
are alphanumeric is a parameter.
-/

namespace VcOperator

namespace Wizard

open Config (RunningMcpProcess containsText ensureUnique)

/-- `MCP_PATTERNS`. -/
def mcpPatterns : List String := [
  "@modelcontextprotocol/", "mcp-server-", "-mcp-server", "mcp_server", "/mcp-", "-mcp/",
  "/loctree-mcp", "/aicx-mcp", "claude-mcp"]

/-! ## Lines -/

/-- `BufRead::lines`, before the bytes are decoded: a line that ends may end with a carriage
return too, and nothing is no last line. -/
def byteLines (bytes : List UInt8) : List (List UInt8) :=
  let pieces := bytes.splitOn 10
  (pieces.dropLast.map fun line => if line.getLast? = some 13 then line.dropLast else line) ++
    pieces.getLast?.toList.filter (· ≠ [])

/-- `lines().map_while(Result::ok)`. -/
def textLinesOf (bytes : List UInt8) : List String :=
  (((byteLines bytes).map fun line => String.fromUTF8? ⟨line.toArray⟩).takeWhile
    Option.isSome).reduceOption

/-- `str::split_whitespace`. -/
def splitWhitespace (text : List Char) : List (List Char) :=
  (text.splitOnP isWhitespace).filter (· ≠ [])

/-! ## One line -/

/-- `str::parse::<u32>`. -/
def parseU32 (text : List Char) : Option ℕ :=
  let digits := if text.head? = some '+' then text.tail else text
  if digits ≠ [] ∧ digits.all Char.isDigit then
    (some (digits.foldl (fun n c => 10 * n + (c.toNat - '0'.toNat)) 0)).filter (· < 2 ^ 32)
  else none

/-- The pid and the arguments of a line. -/
def parseLine (line : String) : Option (ℕ × String) :=
  let line := trim line.toList
  if "PID".toList <+: line then none
  else
    match line.dropWhile (!isWhitespace ·) with
    | [] => none
    | _ :: args =>
      (parseU32 (line.takeWhile (!isWhitespace ·))).map fun pid =>
        (pid, String.ofList (trim args))

/-- The arguments are those of an MCP server, and not of the mux itself. -/
def isMcp (args : String) : Bool :=
  mcpPatterns.any (containsText args) && !(containsText args "rust-mux" ||
    containsText args "rmcp_mux")

/-- What follows a part of a text, where it first occurs. -/
def afterFirst (part : List Char) : List Char → Option (List Char)
  | [] => if part = [] then some [] else none
  | c :: text =>
    if part <+: c :: text then some ((c :: text).drop part.length) else afterFirst part text

section

variable (isAlphanumeric : Char → Bool)

/-- The name that follows a part of the arguments, if there is one. -/
def nameAfter (part args : String) : Option String :=
  ((afterFirst part.toList args.toList).map fun rest =>
    rest.takeWhile fun c => isAlphanumeric c || c = '-' || c = '_').bind fun name =>
      if name = [] then none else some (String.ofList name)

/-- `extract_service_name`. -/
def extractServiceName (args : String) : String :=
  ((nameAfter isAlphanumeric "@modelcontextprotocol/" args).or
    (((nameAfter isAlphanumeric "mcp-server-" args).map ("mcp-" ++ ·)).or
      (nameAfter isAlphanumeric "server-" args))).getD "detected-mcp"

/-- `extract_cmd_and_args`. -/
def extractCmdAndArgs (args : String) : String × List String :=
  match splitWhitespace args.toList with
  | [] => ("unknown", [])
  | cmd :: rest =>
    (String.ofList (if '/' ∈ cmd then (cmd.reverse.takeWhile (· ≠ '/')).reverse else cmd),
      rest.map String.ofList)

/-- `ensure_unique_name`. -/
def ensureUniqueName (used : List String) (candidate : String) : String :=
  ensureUnique used candidate

/-- A process is listed, under a name that none before it has. -/
def listProcess (out : List RunningMcpProcess) (found : ℕ × String) : List RunningMcpProcess :=
  let (cmd, args) := extractCmdAndArgs found.2
  out ++ [{
    pid := found.1
    cmd := cmd
    args := args
    syntheticName := ensureUniqueName (out.map RunningMcpProcess.syntheticName)
      (extractServiceName isAlphanumeric found.2) }]

/-- `list_running_mcp_processes`, of what `ps` has put out, if it went through. -/
def listRunningMcpProcesses (stdout : Option (List UInt8)) : List RunningMcpProcess :=
  match stdout with
  | none => []
  | some bytes =>
    (((textLinesOf bytes).filterMap parseLine).filter fun found => isMcp found.2).foldl
      (listProcess isAlphanumeric) []

end

end Wizard

end VcOperator
