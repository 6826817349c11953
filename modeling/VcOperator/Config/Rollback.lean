import VcOperator.Common.Correspond
import VcOperator.Config.Model.Backup
import VcOperator.Shell.Expand
/-!
# The commands that undo a rewrite

A path stands in a rollback command as it is, where all its characters are letters,
digits or one of `/.-_~`, and in single quotes otherwise. Quotes keep every
text. Without them the empty text is no word at all, and a tilde that the path begins with
stands for a home directory.
-/

namespace VcOperator

namespace Config

open Shell

/-! ## Words -/

variable {homes : Homes} {text : String}

/-- The pieces of the word that a path is. -/
def piecesOf (text : String) : List Piece := if isBare text then plain text else quoted text

/-- The words that a path is. -/
def wordsOf (text : String) : List (List Piece) := if text = "" then [] else [piecesOf text]

/-- A character that `shell_quote` leaves alone, and one that begins a pattern. -/
theorem isPlainChar_of_isBare (h : isBare text = true) : ∀ c ∈ text.toList,
    isPlainChar c = true ∧ c ∉ patternChars := by
  have hspecial : (specialChars ++ patternChars).all (fun c => !(c.isAlphanum || c = '/' ||
      c = '.' || c = '-' || c = '_' || c = '~')) = true := by decide
  simp only [List.all_eq_true, Bool.not_eq_true'] at hspecial
  intro c hc
  have hbare := List.all_eq_true.1 h c hc
  refine ⟨decide_eq_true fun hmem => ?_, fun hmem => ?_⟩
  · rw [hspecial c (List.mem_append_left _ hmem)] at hbare
    cases hbare
  · rw [hspecial c (List.mem_append_right _ hmem)] at hbare
    cases hbare

/-- A quote within single quotes: they end, it follows, and they begin again. -/
theorem read_quoteEscape (pieces : List Piece) (c : Char) :
    scanner.read (.single pieces) (if c = '\'' then "'\\''".toList else [c]) =
      some ([], .single (pieces ++ [.quoted c])) := by
  split_ifs with hquote
  · subst hquote; rfl
  · simp [Scanner.read, scanner, next, hquote]

/-- **A path that is not empty is one word.** -/
theorem read_shellQuote (hne : text ≠ "") : scanner.read .blank (shellQuote text).toList =
    some ([], .word (piecesOf text)) := by
  rw [shellQuote, piecesOf]
  split_ifs with hbare
  · refine read_blank_plain ?_ fun c hc => (isPlainChar_of_isBare hbare c hc).1
    exact fun hnil => hne (String.toList_injective hnil)
  · rw [String.toList_append, String.toList_append, toList_replace, List.append_assoc]
    exact read_blank_singleQuoted read_quoteEscape text.toList

/-- What its field is. -/
theorem field_piecesOf_iff : field homes (piecesOf text) = some text ↔
    (isBare text = true → ∀ name, tildeName text = some name → ∀ dir, homes name = some dir →
      dir = "~" ++ name) := by
  rw [piecesOf]
  split_ifs with hbare
  · rw [field_plain_iff fun c hc => (isPlainChar_of_isBare hbare c hc).2]
    exact ⟨fun h _ => h, fun h => h hbare⟩
  · exact ⟨fun _ h => absurd h hbare, fun _ => field_quoted homes text⟩

/-! ## Lines -/

variable {backup target : String}

/-- The line that restores a file. -/
def rollbackLine (backup target : String) : String :=
  "cp -p " ++ shellQuote backup ++ " " ++ shellQuote target

/-- The first path and the blank after it. -/
theorem read_first (text : String) :
    scanner.read .blank ((shellQuote text).toList ++ [' ']) =
      some ((wordsOf text).map .word, .blank) := by
  by_cases hempty : text = ""
  · subst hempty
    rfl
  · have hend : scanner.read (.word (piecesOf text)) [' '] =
        some ([.word (piecesOf text)], .blank) := rfl
    rw [wordsOf, if_neg hempty]
    exact Scanner.read_append (read_shellQuote hempty) hend

/-- The last path. -/
theorem read_last (text : String) : ∃ ts s ts', scanner.read .blank (shellQuote text).toList =
    some (ts, s) ∧ scanner.finish s = some ts' ∧ ts ++ ts' = (wordsOf text).map .word := by
  by_cases hempty : text = ""
  · subst hempty
    exact ⟨[], .blank, [], rfl, rfl, rfl⟩
  · rw [wordsOf, if_neg hempty]
    exact ⟨[], .word (piecesOf text), _, read_shellQuote hempty, rfl, rfl⟩

/-- **The words of a line**: `cp`, `-p`, and those paths that are words. -/
theorem tokens_rollbackLine (backup target : String) : tokens (rollbackLine backup target) =
    some ((plain "cp" :: plain "-p" :: (wordsOf backup ++ wordsOf target)).map .word) := by
  have hcp : scanner.read .blank "cp -p ".toList =
      some ([.word (plain "cp"), .word (plain "-p")], .blank) := by decide +kernel
  obtain ⟨ts, s, ts', hlast, hfinish, hwords⟩ := read_last target
  have hread := Scanner.read_append hcp (Scanner.read_append (read_first backup) hlast)
  have htext : (rollbackLine backup target).toList =
      "cp -p ".toList ++ ((shellQuote backup).toList ++ [' '] ++ (shellQuote target).toList) := by
    simp [rollbackLine, String.toList_append]
  rw [tokens, htext, Scanner.scan_of_read hread hfinish, List.append_assoc, List.append_assoc,
    hwords]
  simp

/-- The shell takes a path for what it is: the path is not empty, and it is in quotes or begins
with no home directory that the shell knows. -/
def TakenAsIs (homes : Homes) (text : String) : Prop :=
  text ≠ "" ∧ (isBare text = true → ∀ name, tildeName text = some name → ∀ dir,
    homes name = some dir → dir = "~" ++ name)

/-- **What a line runs.** -/
theorem argv_rollbackLine_iff : argv homes (rollbackLine backup target) =
    some ["cp", "-p", backup, target] ↔ TakenAsIs homes backup ∧ TakenAsIs homes target := by
  have hcp : field homes (plain "cp") = some "cp" := rfl
  have hp : field homes (plain "-p") = some "-p" := rfl
  rw [argv_words (tokens_rollbackLine backup target) (by decide +kernel), mapM_eq_some_iff,
    List.forall₂_cons, List.forall₂_cons, TakenAsIs, TakenAsIs, ← field_piecesOf_iff,
    ← field_piecesOf_iff]
  simp only [hcp, hp, true_and]
  constructor
  · intro h
    have hlen := h.length_eq
    have hne : backup ≠ "" ∧ target ≠ "" := by
      constructor <;> rintro rfl <;> simp [wordsOf] at hlen <;> split_ifs at hlen <;> simp at hlen
    rw [wordsOf, wordsOf, if_neg hne.1, if_neg hne.2] at h
    simpa [hne] using h
  · rintro ⟨⟨hb, hbackup⟩, ht, htarget⟩
    rw [wordsOf, wordsOf, if_neg hb, if_neg ht]
    exact .cons hbackup (.cons htarget .nil)

/-! ## The outcomes -/

/-- The files that were backed up: the backup, and the target. -/
def backups (outcomes : List DangerExecutionOutcome) : List (Path × Path) :=
  outcomes.filterMap fun o => o.backup.map fun b => (b, o.path)

/-- **The rollback commands restore the right files**: each line runs `cp` with `-p`, the backup
and the target. -/
def Restores (homes : Homes) (display : Path → String)
    (outcomes : List DangerExecutionOutcome) : Prop :=
  List.Forall₂ (fun files line =>
    argv homes line = some ["cp", "-p", display files.1, display files.2])
    (backups outcomes) (rollbackCommands display outcomes)

theorem rollbackCommands_eq (display : Path → String) (outcomes : List DangerExecutionOutcome) :
    rollbackCommands display outcomes =
      (backups outcomes).map fun files => rollbackLine (display files.1) (display files.2) := by
  rw [rollbackCommands, backups, List.map_filterMap]
  refine congrArg (List.filterMap · outcomes) (funext fun o => ?_)
  rw [Option.map_map]
  rfl

/-- **They do exactly where the shell takes each path for what it is**, for all outcomes, whatever
the paths say and whichever home directories the shell knows. -/
theorem restores_iff (homes : Homes) (display : Path → String)
    (outcomes : List DangerExecutionOutcome) :
    Restores homes display outcomes ↔ ∀ files ∈ backups outcomes,
      TakenAsIs homes (display files.1) ∧ TakenAsIs homes (display files.2) := by
  rw [Restores, rollbackCommands_eq, List.forall₂_map_right_iff, List.forall₂_same]
  exact forall₂_congr fun files _ => argv_rollbackLine_iff

/-- A file of a directory that is called `~alice`, rewritten. -/
def tildeOutcome : DangerExecutionOutcome where
  path := ⟨"~alice", some "mcp.json"⟩
  backup := some ⟨"~alice", some "mcp.json.7.bak"⟩
  written := true
  status := .planned
  error := none

/-- **The shell restores a file of the user `alice`** instead. -/
theorem not_restores_tilde : ¬ ∀ homes display outcomes, Restores homes display outcomes := by
  intro h
  let homes : Homes := fun name => if name = "alice" then some "/home/alice" else none
  let display : Path → String := fun path => path.parent ++ "/" ++ path.fileName.getD ""
  have hline := h homes display [tildeOutcome]
  have hlines : rollbackCommands display [tildeOutcome] =
      ["cp -p ~alice/mcp.json.7.bak ~alice/mcp.json"] := by decide +kernel
  rw [Restores, hlines] at hline
  obtain ⟨hargv, -⟩ := List.forall₂_cons.1 hline
  exact absurd hargv (by decide +kernel)

end Config

end VcOperator
