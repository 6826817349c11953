import Mathlib.Logic.Function.Basic
import VcOperator.Common.Text
import VcOperator.Config.Model.Danger
/-!
# Backup and write

The part of `danger.rs` that touches the disk, over any type of file
contents. What the system does to an action is an input of the model
(`Weather`): the clock reading, and what becomes of the directory, the
copy and the write. A copy or a write can be cut short, which leaves
anything in the file it was creating.

A disk says what is at a path; no two paths are one place. The directory
of a target that exists is there already, so that `create_dir_all` can
fail and has no effect.
-/

namespace VcOperator

namespace Config

/-- What is at a path. -/
inductive Entry (τ : Type) where
  | file (contents : τ)
  | directory
  deriving DecidableEq

/-- A disk: `none` where nothing exists. -/
abbrev Disk (τ : Type) := Path → Option (Entry τ)

/-- What becomes of creating a file and writing its contents. -/
inductive Fate (τ : Type) where
  | done
  /-- The file could not be opened. -/
  | refused
  /-- The file was created or truncated, and holds what was written so far. -/
  | cutShort (left : τ)

/-- What the system does to one action. -/
structure Weather (τ : Type) where
  /-- Seconds since the epoch, as the clock reads them. -/
  secs : ℕ
  /-- `create_dir_all` succeeds. -/
  dirOk : Bool
  copy : Fate τ
  write : Fate τ

variable {τ : Type}

/-- `fs::write`, and what `safe_copy_file` does to the copy: a path without a file
name and a directory are refused. -/
def writeFile (disk : Disk τ) (path : Path) (contents : τ) (fate : Fate τ) : Disk τ × Bool :=
  match path.fileName, disk path with
  | none, _ => (disk, false)
  | some _, some .directory => (disk, false)
  | some _, _ =>
    match fate with
    | .done => (Function.update disk path (some (.file contents)), true)
    | .refused => (disk, false)
    | .cutShort left => (Function.update disk path (some (.file left)), false)

/-- `safe_copy_file`: the source has to be a regular file. -/
def safeCopyFile (disk : Disk τ) (src dst : Path) (fate : Fate τ) : Disk τ × Bool :=
  match src.fileName, disk src with
  | some _, some (.file contents) => writeFile disk dst contents fate
  | _, _ => (disk, false)

/-- `backup_path`. Where there is no file name to replace, the name is appended. -/
def backupPath (path : Path) (secs : ℕ) (suffix : Option ℕ) : Path :=
  let name := path.fileName.getD "danger"
  { parent := path.parent
    fileName :=
      match suffix with
      | some n => some (name ++ ("." ++ toString secs ++ "-" ++ toString n ++ ".bak"))
      | none => some (name ++ ("." ++ toString secs ++ ".bak")) }

/-- The search for a backup path that is not in use, with the rounds left before the
counter passes 1000. -/
def freeBackup (disk : Disk τ) (path : Path) (secs : ℕ) : ℕ → ℕ → Path → Option Path
  | 0, _, backup => if (disk backup).isSome then none else some backup
  | rounds + 1, counter, backup =>
    if (disk backup).isSome then
      freeBackup disk path secs rounds (counter + 1) (backupPath path secs (some counter))
    else some backup

/-- Why an action was not carried out. -/
inductive WriteError where
  | failedToCreateDir
  | noUniqueBackupPath
  | failedToCreateBackup
  | failedToWrite
  deriving DecidableEq

/-- `write_with_timestamped_backup`. -/
def writeWithTimestampedBackup (disk : Disk τ) (path : Path) (contents : τ) (w : Weather τ) :
    Disk τ × Except WriteError Path :=
  if w.dirOk = false then (disk, .error .failedToCreateDir)
  else
    match freeBackup disk path w.secs 999 1 (backupPath path w.secs none) with
    | none => (disk, .error .noUniqueBackupPath)
    | some backup =>
      let copied :=
        if (disk path).isSome then safeCopyFile disk path backup w.copy else (disk, true)
      if copied.2 = false then (copied.1, .error .failedToCreateBackup)
      else
        let written := writeFile copied.1 path contents w.write
        if written.2 then (written.1, .ok backup) else (written.1, .error .failedToWrite)

/-- What an outcome reports as its error. -/
inductive OutcomeError where
  | notWritten (err : WriteError)
  | skipped (reason : SkipReason)
  deriving DecidableEq

/-- `DangerExecutionOutcome`. -/
structure DangerExecutionOutcome where
  path : Path
  backup : Option Path
  written : Bool
  status : DangerStatus
  error : Option OutcomeError

/-- One round of the loop of `execute_plan`. -/
def executeAction (disk : Disk τ) (action : DangerAction τ) (w : Weather τ) :
    Disk τ × DangerExecutionOutcome :=
  match action.status, action.newContents with
  | .planned, some newContents =>
    match writeWithTimestampedBackup disk action.source.path newContents w with
    | (disk', .ok backup) =>
      (disk',
        { path := action.source.path
          backup := some backup
          written := true
          status := .planned
          error := none })
    | (disk', .error err) =>
      (disk',
        { path := action.source.path
          backup := none
          written := false
          status := .skippedInvalid
          error := some (.notWritten err) })
  | status, _ =>
    (disk,
      { path := action.source.path
        backup := none
        written := false
        status := status
        error := action.skipReason.map .skipped })

/-- The loop of `execute_plan`; the weather of each action by its place. -/
def executeActions (disk : Disk τ) :
    List (DangerAction τ) → (ℕ → Weather τ) → Disk τ × List DangerExecutionOutcome
  | [], _ => (disk, [])
  | action :: actions, w =>
    let done := executeAction disk action (w 0)
    let rest := executeActions done.1 actions fun i => w (i + 1)
    (rest.1, done.2 :: rest.2)

/-- `danger plan execution refused: explicit confirmation required`. -/
inductive Refused where
  | confirmationRequired
  deriving DecidableEq

/-- `execute_plan`. -/
def executePlan (disk : Disk τ) (plan : DangerPlan τ) (confirmed : Bool) (w : ℕ → Weather τ) :
    Disk τ × Except Refused (List DangerExecutionOutcome) :=
  if confirmed = false then (disk, .error .confirmationRequired)
  else
    let done := executeActions disk plan.actions w
    (done.1, .ok done.2)

/-! ## The way back -/

/-- The text needs no quotes, says `shell_quote`. -/
def isBare (text : String) : Bool :=
  text.toList.all fun c => c.isAlphanum || c = '/' || c = '.' || c = '-' || c = '_' || c = '~'

/-- `shell_quote`, of what `Path::display` writes. -/
def shellQuote (text : String) : String :=
  if isBare text then text else "'" ++ replace '\'' "'\\''" text ++ "'"

/-- `rollback_commands`; the text of a path is a parameter. -/
def rollbackCommands (display : Path → String) (outcomes : List DangerExecutionOutcome) :
    List String :=
  outcomes.filterMap fun o => o.backup.map fun b =>
    "cp -p " ++ shellQuote (display b) ++ " " ++ shellQuote (display o.path)

/-- What `safe_read_to_string` reads from a disk of texts. -/
def Disk.files (disk : Disk Text) : Files := fun path =>
  match path.fileName, disk path with
  | some _, some (.file data) => some data
  | _, _ => none

end Config

end VcOperator
