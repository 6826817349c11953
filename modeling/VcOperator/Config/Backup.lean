import Mathlib.Data.List.Basic
import VcOperator.Config.Model.Backup
/-!
# Backups are never lost

An action writes to two places only: to a backup path at which nothing was,
and then to its target. A target that is not some other target's backup
path is therefore the only existing file an action changes, and what a
successful write replaced stays where it was copied to.

`history` lists the actions of a sequence of `execute_plan` runs with the
disk before and after each.
-/

namespace VcOperator

namespace Config

variable {τ : Type}

/-- A path that `backup_path` makes of a target. -/
def BackupOf (target backup : Path) : Prop :=
  target.fileName.isSome ∧ ∃ secs suffix, backup = backupPath target secs suffix

/-! ## One action -/

theorem backupPath_ne (path : Path) (secs : ℕ) (suffix : Option ℕ)
    (h : path.fileName.isSome) : backupPath path secs suffix ≠ path := by
  obtain ⟨name, hname⟩ := Option.isSome_iff_exists.1 h
  intro heq
  have hfile := congrArg Path.fileName heq
  rw [hname] at hfile
  have hlonger : ∀ s : String, 0 < s.length → some (name ++ s) ≠ some name := by
    intro s hs heq
    have := congrArg String.length (Option.some.inj heq)
    rw [String.length_append] at this
    omega
  have hpos : ∀ a b : String, 0 < a.length → 0 < (a ++ b).length := by
    intro a b ha
    rw [String.length_append]
    omega
  cases suffix with
  | none =>
    rw [backupPath, hname, String.append_assoc] at hfile
    exact hlonger _ (hpos _ _ (by decide)) hfile
  | some n =>
    simp only [backupPath, hname, Option.getD_some, String.append_assoc] at hfile
    exact hlonger _ (hpos _ _ (by decide)) hfile

/-- **The search finds a backup path that is not in use**, if it finds any. -/
theorem freeBackup_spec {disk : Disk τ} {path backup₀ backup : Path} {secs rounds counter : ℕ}
    (h₀ : ∃ suffix, backup₀ = backupPath path secs suffix)
    (h : freeBackup disk path secs rounds counter backup₀ = some backup) :
    disk backup = none ∧ ∃ suffix, backup = backupPath path secs suffix := by
  induction rounds generalizing counter backup₀ with
  | zero =>
    rw [freeBackup] at h
    split_ifs at h with hsome
    obtain rfl := Option.some.inj h
    exact ⟨Option.not_isSome_iff_eq_none.1 hsome, h₀⟩
  | succ rounds ih =>
    rw [freeBackup] at h
    split_ifs at h with hsome
    · exact ih ⟨some counter, rfl⟩ h
    · obtain rfl := Option.some.inj h
      exact ⟨Option.not_isSome_iff_eq_none.1 hsome, h₀⟩

/-- **What a step changes**: at the paths of a set it may leave a file, and every
other path is as it was. -/
def Changes (before after : Disk τ) (places : Path → Prop) : Prop :=
  ∀ p, after p = before p ∨ (places p ∧ ∃ left, after p = some (.file left))

theorem Changes.refl (disk : Disk τ) (places : Path → Prop) : Changes disk disk places :=
  fun _ => .inl rfl

theorem Changes.trans {first second third : Disk τ} {places places' : Path → Prop}
    (h : Changes first second places) (h' : Changes second third places') :
    Changes first third fun p => places p ∨ places' p := by
  intro p
  rcases h' p with heq | ⟨hp, hleft⟩
  · rw [heq]
    exact (h p).imp_right fun ⟨hp, hleft⟩ => ⟨.inl hp, hleft⟩
  · exact .inr ⟨.inr hp, hleft⟩

theorem Changes.mono {before after : Disk τ} {places places' : Path → Prop}
    (h : Changes before after places) (hsub : ∀ p, places p → places' p) :
    Changes before after places' :=
  fun p => (h p).imp_right fun ⟨hp, hleft⟩ => ⟨hsub p hp, hleft⟩

/-- Nothing is ever removed. -/
theorem Changes.isSome {before after : Disk τ} {places : Path → Prop}
    (h : Changes before after places) {p : Path} (hp : (before p).isSome) : (after p).isSome := by
  rcases h p with heq | ⟨-, left, heq⟩
  · rw [heq]
    exact hp
  · rw [heq]
    rfl

theorem changes_update (disk : Disk τ) (path : Path) (left : τ) :
    Changes disk (Function.update disk path (some (.file left))) (· = path) := by
  intro p
  rcases eq_or_ne p path with rfl | hp
  · exact .inr ⟨rfl, left, Function.update_self ..⟩
  · exact .inl (Function.update_of_ne hp ..)

theorem changes_writeFile (disk : Disk τ) (path : Path) (contents : τ) (fate : Fate τ) :
    Changes disk (writeFile disk path contents fate).1 (· = path) := by
  unfold writeFile
  split
  · exact .refl _ _
  · exact .refl _ _
  · cases fate with
    | done => exact changes_update _ _ _
    | refused => exact .refl _ _
    | cutShort left => exact changes_update _ _ _

theorem writeFile_of_true {disk : Disk τ} {path : Path} {contents : τ} {fate : Fate τ}
    (h : (writeFile disk path contents fate).2 = true) :
    (writeFile disk path contents fate).1 =
      Function.update disk path (some (.file contents)) := by
  unfold writeFile at h ⊢
  split
  · rename_i hname
    rw [hname] at h
    cases h
  · rename_i hname hdir
    rw [hname, hdir] at h
    cases h
  · cases fate <;> first | rfl | (split at h <;> cases h)

/-- A copy touches the disk only where its source has a file name. -/
theorem changes_safeCopyFile (disk : Disk τ) (src dst : Path) (fate : Fate τ) :
    Changes disk (safeCopyFile disk src dst fate).1 fun p => p = dst ∧ src.fileName.isSome := by
  unfold safeCopyFile
  split
  · rename_i hname _
    exact (changes_writeFile _ _ _ _).mono fun p hp => ⟨hp, by rw [hname]; rfl⟩
  · exact .refl _ _

theorem safeCopyFile_of_true {disk : Disk τ} {src dst : Path} {fate : Fate τ}
    (h : (safeCopyFile disk src dst fate).2 = true) :
    src.fileName.isSome ∧ ∃ contents, disk src = some (.file contents) ∧
      (safeCopyFile disk src dst fate).1 =
        Function.update disk dst (some (.file contents)) := by
  unfold safeCopyFile at h ⊢
  split
  · rename_i hname hfile
    rw [hname, hfile] at h
    exact ⟨by rw [hname]; rfl, _, hfile, writeFile_of_true h⟩
  · rename_i hnot
    split at h
    · rename_i hname hfile
      exact absurd hfile (hnot _ _ hname)
    · cases h

/-- **What one backup-and-write does** to a disk that has the target: it changes
the target, and a backup path of the target at which nothing was. -/
structure Guarded (before : Disk τ) (path : Path) (contents : τ) (after : Disk τ)
    (result : Except WriteError Path) : Prop where
  changes : Changes before after fun p => p = path ∨ (before p = none ∧ BackupOf path p)
  /-- Before the write, the target is as it was. -/
  early : ∀ err, result = .error err → err ≠ .failedToWrite → after path = before path
  /-- A successful write has put the new contents in place of those it backed up. -/
  success : ∀ backup, result = .ok backup → BackupOf path backup ∧
    after path = some (.file contents) ∧
      ∃ replaced, before path = some (.file replaced) ∧ after backup = some (.file replaced)

theorem guarded_refl {before : Disk τ} {path : Path} {contents : τ} (err : WriteError) :
    Guarded before path contents before (.error err) where
  changes := .refl _ _
  early _ _ _ := rfl
  success _ h := nomatch h

theorem guarded_writeWithTimestampedBackup {disk : Disk τ} {path : Path} (contents : τ)
    (w : Weather τ) (hpath : (disk path).isSome) :
    Guarded disk path contents (writeWithTimestampedBackup disk path contents w).1
      (writeWithTimestampedBackup disk path contents w).2 := by
  unfold writeWithTimestampedBackup
  by_cases hdir : w.dirOk = false
  · rw [if_pos hdir]
    exact guarded_refl _
  rw [if_neg hdir]
  cases hfree : freeBackup disk path w.secs 999 1 (backupPath path w.secs none) with
  | none => exact guarded_refl _
  | some backup =>
    obtain ⟨hnone, suffix, hbackup⟩ := freeBackup_spec ⟨none, rfl⟩ hfree
    have hne : path ≠ backup := by
      rintro rfl
      rw [hnone] at hpath
      cases hpath
    simp only [if_pos hpath]
    have hcopied : Changes disk (safeCopyFile disk path backup w.copy).1
        fun p => disk p = none ∧ BackupOf path p :=
      (changes_safeCopyFile _ _ _ _).mono fun p ⟨hp, hname⟩ =>
        ⟨hp ▸ hnone, hname, w.secs, suffix, hp ▸ hbackup⟩
    -- a copy to a free path is not a copy to the target, which is there
    have hkept : (safeCopyFile disk path backup w.copy).1 path = disk path := by
      rcases changes_safeCopyFile disk path backup w.copy path with heq | ⟨⟨heq, -⟩, -⟩
      · exact heq
      · exact absurd heq hne
    have hboth := hcopied.trans
      (changes_writeFile (safeCopyFile disk path backup w.copy).1 path contents w.write)
    -- the copy fails, both succeed, or the write fails
    split_ifs with hcopy hwrite
    · exact ⟨hcopied.mono fun _ hp => .inr hp, fun _ _ _ => hkept, nofun⟩
    · obtain ⟨hname, replaced, hfile, hdisk⟩ := safeCopyFile_of_true (by simpa using hcopy)
      refine ⟨hboth.mono fun _ hp => hp.symm, nofun, fun b hb => ?_⟩
      obtain rfl := Except.ok.inj hb
      rw [writeFile_of_true hwrite, hdisk]
      refine ⟨⟨hname, w.secs, suffix, hbackup⟩, Function.update_self .., replaced, hfile, ?_⟩
      rw [Function.update_of_ne hne.symm, Function.update_self]
    · refine ⟨hboth.mono fun _ hp => hp.symm, fun err herr hnot => ?_, nofun⟩
      exact absurd (Except.error.inj herr).symm hnot

/-! ## The actions of a sequence of runs -/

/-- One action, with the disk before and after it and what is reported of it. -/
structure Moment (τ : Type) where
  before : Disk τ
  action : DangerAction τ
  after : Disk τ
  outcome : DangerExecutionOutcome

/-- A call of `execute_plan`, with the weather of each action. -/
structure PlanRun (τ : Type) where
  plan : DangerPlan τ
  confirmed : Bool
  weather : ℕ → Weather τ

/-- The actions of a plan, one after the other. -/
def moments (disk : Disk τ) : List (DangerAction τ) → (ℕ → Weather τ) → List (Moment τ)
  | [], _ => []
  | action :: actions, w =>
    let done := executeAction disk action (w 0)
    ⟨disk, action, done.1, done.2⟩ :: moments done.1 actions fun i => w (i + 1)

/-- The disk a run leaves. -/
def PlanRun.leaves (disk : Disk τ) (run : PlanRun τ) : Disk τ :=
  (executePlan disk run.plan run.confirmed run.weather).1

/-- **The actions of a sequence of runs**: those of each confirmed one, from the disk
the runs before it left. -/
def history (disk : Disk τ) : List (PlanRun τ) → List (Moment τ)
  | [] => []
  | run :: runs =>
    (if run.confirmed then moments disk run.plan.actions run.weather else []) ++
      history (run.leaves disk) runs

/-- The planned targets of a sequence of runs. -/
def targets (runs : List (PlanRun τ)) : List Path :=
  runs.flatMap fun run =>
    (run.plan.actions.filter fun a => a.status = .planned).map (·.source.path)

/-- Every planned target exists when its run starts. -/
def TargetsExist (disk : Disk τ) : List (PlanRun τ) → Prop
  | [] => True
  | run :: runs =>
    (∀ a ∈ run.plan.actions, a.status = .planned → (disk a.source.path).isSome) ∧
      TargetsExist (run.leaves disk) runs

/-- No target has the form of a backup of another one. -/
def NoneIsBackup (paths : List Path) : Prop :=
  ∀ t ∈ paths, ∀ t' ∈ paths, t ≠ t' → ¬ BackupOf t t'

/-- The disk after a list of moments. -/
def diskAfter (disk : Disk τ) (ms : List (Moment τ)) : Disk τ :=
  ms.foldl (fun _ m => m.after) disk

/-- Each moment starts from the disk the one before it left. -/
def Chained : Disk τ → List (Moment τ) → Prop
  | _, [] => True
  | disk, m :: ms => m.before = disk ∧ Chained m.after ms

theorem chained_append {disk : Disk τ} {ms ms' : List (Moment τ)} :
    Chained disk (ms ++ ms') ↔ Chained disk ms ∧ Chained (diskAfter disk ms) ms' := by
  induction ms generalizing disk with
  | nil => exact ⟨fun h => ⟨trivial, h⟩, And.right⟩
  | cons m ms ih =>
    rw [List.cons_append, Chained, Chained, ih, and_assoc]
    rfl

theorem chained_moments (disk : Disk τ) (actions : List (DangerAction τ)) (w : ℕ → Weather τ) :
    Chained disk (moments disk actions w) := by
  induction actions generalizing disk w with
  | nil => trivial
  | cons action actions ih => exact ⟨rfl, ih _ _⟩

/-- The moments of a plan are what `execute_plan` does and reports. -/
theorem executeActions_eq (disk : Disk τ) (actions : List (DangerAction τ)) (w : ℕ → Weather τ) :
    executeActions disk actions w =
      (diskAfter disk (moments disk actions w), (moments disk actions w).map (·.outcome)) := by
  induction actions generalizing disk w with
  | nil => rfl
  | cons action actions ih =>
    rw [executeActions, ih]
    rfl

theorem leaves_eq (disk : Disk τ) (run : PlanRun τ) : run.leaves disk = diskAfter disk
    (if run.confirmed then moments disk run.plan.actions run.weather else []) := by
  cases hc : run.confirmed with
  | false => simp [PlanRun.leaves, executePlan, hc, diskAfter]
  | true => simp [PlanRun.leaves, executePlan, hc, executeActions_eq]

theorem chained_history (disk : Disk τ) (runs : List (PlanRun τ)) :
    Chained disk (history disk runs) := by
  induction runs generalizing disk with
  | nil => trivial
  | cons run runs ih =>
    rw [history, chained_append, ← leaves_eq]
    refine ⟨?_, ih _⟩
    split_ifs
    · exact chained_moments _ _ _
    · trivial

/-- **What one action does**, where its target exists if it is planned. -/
structure Recorded (m : Moment τ) : Prop where
  changes : Changes m.before m.after fun p => m.action.status = .planned ∧
    (p = m.action.source.path ∨ (m.before p = none ∧ BackupOf m.action.source.path p))
  early : m.outcome.written = false → m.outcome.error ≠ some (.notWritten .failedToWrite) →
    m.after m.action.source.path = m.before m.action.source.path
  success : m.outcome.written = true → m.action.status = .planned ∧
    ∃ backup contents replaced, m.outcome.backup = some backup ∧
      BackupOf m.action.source.path backup ∧ m.action.newContents = some contents ∧
      m.after m.action.source.path = some (.file contents) ∧
      m.before m.action.source.path = some (.file replaced) ∧
      m.after backup = some (.file replaced)
  skipped : m.action.status ≠ .planned → m.after = m.before ∧ m.outcome.written = false

theorem recorded_executeAction (disk : Disk τ) (action : DangerAction τ) (w : Weather τ)
    (h : action.status = .planned → (disk action.source.path).isSome) :
    Recorded ⟨disk, action, (executeAction disk action w).1, (executeAction disk action w).2⟩ := by
  unfold executeAction
  -- only a planned action with new contents writes
  split
  · rename_i newContents hstatus hnew
    have hguarded := guarded_writeWithTimestampedBackup newContents w (h hstatus)
    split
    · rename_i disk' backup heq
      rw [heq] at hguarded
      obtain ⟨hof, hafter, replaced, hbefore, hbackup⟩ := hguarded.success backup rfl
      refine ⟨hguarded.changes.mono fun p hp => ⟨hstatus, hp⟩, nofun, fun _ => ?_,
        fun hnot => absurd hstatus hnot⟩
      exact ⟨hstatus, backup, newContents, replaced, rfl, hof, hnew, hafter, hbefore, hbackup⟩
    · rename_i disk' err heq
      rw [heq] at hguarded
      refine ⟨hguarded.changes.mono fun p hp => ⟨hstatus, hp⟩, fun _ herr => ?_, nofun,
        fun hnot => absurd hstatus hnot⟩
      exact hguarded.early err rfl fun he => herr (he ▸ rfl)
  · exact ⟨.refl _ _, fun _ _ => rfl, nofun, fun _ => ⟨rfl, rfl⟩⟩

theorem recorded_moments {disk : Disk τ} {actions : List (DangerAction τ)} {w : ℕ → Weather τ}
    (h : ∀ a ∈ actions, a.status = .planned → (disk a.source.path).isSome) {m : Moment τ}
    (hm : m ∈ moments disk actions w) : Recorded m ∧ m.action ∈ actions := by
  induction actions generalizing disk w with
  | nil => cases hm
  | cons action actions ih =>
    have hfirst := recorded_executeAction disk action (w 0) (h action List.mem_cons_self)
    rcases List.mem_cons.1 hm with rfl | hm
    · exact ⟨hfirst, List.mem_cons_self⟩
    · have hrest : ∀ a ∈ actions, a.status = .planned →
          ((executeAction disk action (w 0)).1 a.source.path).isSome :=
        fun a ha hs => hfirst.changes.isSome (h a (List.mem_cons_of_mem _ ha) hs)
      exact (ih hrest hm).imp_right (List.mem_cons_of_mem _)

theorem recorded_history {disk : Disk τ} {runs : List (PlanRun τ)} (h : TargetsExist disk runs)
    {m : Moment τ} (hm : m ∈ history disk runs) :
    Recorded m ∧ (m.action.status = .planned → m.action.source.path ∈ targets runs) := by
  induction runs generalizing disk with
  | nil => cases hm
  | cons run runs ih =>
    obtain ⟨hexist, hrest⟩ := h
    rw [history, List.mem_append] at hm
    rcases hm with hm | hm
    · split_ifs at hm
      · obtain ⟨hrecorded, hmem⟩ := recorded_moments hexist hm
        refine ⟨hrecorded, fun hs => List.mem_append_left _ (List.mem_map.2 ⟨m.action, ?_, rfl⟩)⟩
        exact List.mem_filter.2 ⟨hmem, by simpa using hs⟩
      · cases hm
    · exact (ih hrest hm).imp_right fun hmem hs => List.mem_append_right _ (hmem hs)

/-! ## Nothing is lost -/

/-- **Backups are never lost**, over a sequence of runs. -/
structure Recoverable (disk : Disk τ) (runs : List (PlanRun τ)) : Prop where
  /-- No backup file is overwritten. -/
  kept : ∀ m ∈ history disk runs, ∀ t ∈ targets runs, ∀ backup, BackupOf t backup →
    (m.before backup).isSome → m.after backup = m.before backup
  /-- What a successful write replaced is at the backup path it reports, to the end. -/
  replaced : ∀ pre m post, history disk runs = pre ++ m :: post → m.outcome.written = true →
    ∃ backup contents replaced, m.outcome.backup = some backup ∧
      m.action.newContents = some contents ∧
      m.after m.action.source.path = some (.file contents) ∧
      m.before m.action.source.path = some (.file replaced) ∧
      ∀ m' ∈ m :: post, m'.after backup = some (.file replaced)
  /-- An action that fails before its write leaves the target unchanged. -/
  early : ∀ m ∈ history disk runs, m.outcome.written = false →
    m.outcome.error ≠ some (.notWritten .failedToWrite) →
    m.after m.action.source.path = m.before m.action.source.path
  /-- Only planned actions write. -/
  skipped : ∀ m ∈ history disk runs, m.action.status ≠ .planned →
    m.after = m.before ∧ m.outcome.written = false
  /-- A run without confirmation writes nothing. -/
  unconfirmed : ∀ run ∈ runs, run.confirmed = false → ∀ disk : Disk τ,
    executePlan disk run.plan run.confirmed run.weather = (disk, .error .confirmationRequired)

/-- An action leaves every existing file alone but its own target. -/
theorem Recorded.keeps {m : Moment τ} (h : Recorded m) {p : Path} (hp : (m.before p).isSome)
    (hne : m.action.status = .planned → p ≠ m.action.source.path) : m.after p = m.before p := by
  rcases h.changes p with heq | ⟨⟨hs, rfl | ⟨hnone, -⟩⟩, -⟩
  · exact heq
  · exact absurd rfl (hne hs)
  · rw [hnone] at hp
    cases hp

/-- And what every action leaves alone is there to the end. -/
theorem after_eq_of_chained {disk : Disk τ} {ms : List (Moment τ)} (hchain : Chained disk ms)
    {p : Path} (hkeep : ∀ m ∈ ms, (m.before p).isSome → m.after p = m.before p)
    (hp : (disk p).isSome) {m : Moment τ} (hm : m ∈ ms) : m.after p = disk p := by
  induction ms generalizing disk with
  | nil => cases hm
  | cons m' ms ih =>
    obtain ⟨rfl, hrest⟩ := hchain
    have hfirst := hkeep m' List.mem_cons_self hp
    rcases List.mem_cons.1 hm with rfl | hm
    · exact hfirst
    · rw [← hfirst] at hp ⊢
      exact ih hrest (fun n hn => hkeep n (List.mem_cons_of_mem _ hn)) hp hm

/-- **Backups are never lost**, for every sequence of runs in which every planned
target exists when its run starts and none has the form of a backup of
another one, whatever the clock reads and whatever fails. -/
theorem recoverable (disk : Disk τ) (runs : List (PlanRun τ)) (hexist : TargetsExist disk runs)
    (hnone : NoneIsBackup (targets runs)) : Recoverable disk runs := by
  have hrecorded : ∀ m ∈ history disk runs, Recorded m := fun m hm =>
    (recorded_history hexist hm).1
  have hkept : ∀ m ∈ history disk runs, ∀ t ∈ targets runs, ∀ backup, BackupOf t backup →
      (m.before backup).isSome → m.after backup = m.before backup := by
    intro m hm t ht backup hof hp
    obtain ⟨hm, htarget⟩ := recorded_history hexist hm
    refine hm.keeps hp fun hs heq => ?_
    -- the target of the action is not this backup: it is no backup of itself, nor of another
    rcases eq_or_ne t backup with rfl | hne
    · obtain ⟨hname, secs, suffix, hself⟩ := hof
      exact backupPath_ne t secs suffix hname hself.symm
    · exact hnone t ht backup (heq ▸ htarget hs) hne hof
  refine ⟨hkept, fun pre m post hsplit hwritten => ?_, fun m hm => (hrecorded m hm).early,
    fun m hm => (hrecorded m hm).skipped, fun run _ hc disk => by rw [executePlan, if_pos hc]⟩
  have hmem : ∀ m' ∈ m :: post, m' ∈ history disk runs := fun m' hm' =>
    hsplit ▸ List.mem_append_right _ hm'
  have hm := hmem m List.mem_cons_self
  obtain ⟨hs, backup, contents, replaced, hbackup, hof, hnew, hafter, hbefore, hcopy⟩ :=
    (hrecorded m hm).success hwritten
  refine ⟨backup, contents, replaced, hbackup, hnew, hafter, hbefore, fun m' hm' => ?_⟩
  -- what the write copied is there for the rest of the history to leave alone
  have hchain := chained_history disk runs
  rw [hsplit, chained_append, Chained] at hchain
  rcases List.mem_cons.1 hm' with rfl | hm'
  · exact hcopy
  · have hkeep : ∀ n ∈ post, (n.before backup).isSome → n.after backup = n.before backup :=
      fun n hn => hkept n (hmem n (List.mem_cons_of_mem _ hn)) _
        ((recorded_history hexist hm).2 hs) backup hof
    rw [after_eq_of_chained hchain.2.2 hkeep (by rw [hcopy]; rfl) hm', hcopy]

/-- A plan that names one target twice, run with the clock standing still. -/
def twiceRun : PlanRun String :=
  let action (contents : String) : DangerAction String :=
    { source := ⟨.claude, ⟨"/home/u", some ".claude.json"⟩, .json, .mcpServersJson, true⟩
      status := .planned
      newContents := some contents
      changeLines := []
      skipReason := none
      existingServices := [] }
  { plan := ⟨[action "first", action "second"], "rust-mux-proxy", [], "/mux/sockets"⟩
    confirmed := true
    weather := fun _ => ⟨5, true, .done, .done⟩ }

/-- A disk with its target. -/
def twiceDisk : Disk String := fun p =>
  if p = ⟨"/home/u", some ".claude.json"⟩ then some (.file "old") else none

/-- The plan run two times: four writes in one second. -/
theorem recoverable_twice : Recoverable twiceDisk [twiceRun, twiceRun] := by
  refine recoverable twiceDisk [twiceRun, twiceRun] ⟨?_, ?_, trivial⟩ ?_
  · decide
  · decide +kernel
  · intro t ht t' ht' hne
    have hone : ∀ p ∈ targets [twiceRun, twiceRun], p = ⟨"/home/u", some ".claude.json"⟩ := by
      decide
    exact absurd ((hone t ht).trans (hone t' ht').symm) hne

example : (history twiceDisk [twiceRun, twiceRun]).map (·.outcome.backup) =
    [some ⟨"/home/u", some ".claude.json.5.bak"⟩, some ⟨"/home/u", some ".claude.json.5-1.bak"⟩,
      some ⟨"/home/u", some ".claude.json.5-2.bak"⟩,
      some ⟨"/home/u", some ".claude.json.5-3.bak"⟩] := by
  decide +kernel

end Config

end VcOperator
