import VcOperator.Config.Backup
import VcOperator.Config.Model.Rewire
/-!
# What is in a `.bak` file

`write_with_backup` names a backup after its target with the extension replaced, so
that a target with the extension `bak` is its own backup, and two targets can have one
backup. A sequence of calls keeps what each of them replaced where neither happens.
-/

namespace VcOperator

namespace Config

variable {τ : Type} {nothing : τ} {disk : Disk τ}

/-- The path `write_with_backup` copies a target to. -/
def bakPath (path : Path) : Path := withExtension path "bak"

/-! ## One call -/

theorem changes_safeCopyOnto (nothing : τ) (disk : Disk τ) (src dst : Path) (fate : Fate τ) :
    Changes disk (safeCopyOnto nothing disk src dst fate).1 (· = dst) := by
  unfold safeCopyOnto
  split_ifs
  · split
    · exact changes_writeFile _ _ _ _
    · exact .refl _ _
  · exact (changes_safeCopyFile _ _ _ _).mono fun p hp => hp.1

/-- The disk with the backup of a target that is there, and whether it was made. -/
def backedUp (nothing : τ) (disk : Disk τ) (path : Path) (w : Weather τ) : Disk τ × Bool :=
  if (disk path).isSome then safeCopyOnto nothing disk path (bakPath path) w.copy else (disk, true)

theorem writeWithBackup_eq (path : Path) (contents : τ) (w : Weather τ) :
    writeWithBackup nothing disk path contents false w =
      if w.dirOk = false then (disk, .error .failedToCreateDir)
      else if (backedUp nothing disk path w).2 = false then
        ((backedUp nothing disk path w).1, .error .failedToCreateBackup)
      else
        if (writeFile (backedUp nothing disk path w).1 path contents w.write).2 then
          ((writeFile (backedUp nothing disk path w).1 path contents w.write).1,
            .ok (some (bakPath path)))
        else
          ((writeFile (backedUp nothing disk path w).1 path contents w.write).1,
            .error .failedToWrite) := rfl

theorem changes_backedUp (nothing : τ) (disk : Disk τ) (path : Path) (w : Weather τ) :
    Changes disk (backedUp nothing disk path w).1
      fun p => (disk path).isSome ∧ p = bakPath path := by
  unfold backedUp
  split_ifs with hpath
  · exact (changes_safeCopyOnto _ _ _ _ _).mono fun p hp => ⟨hpath, hp⟩
  · exact .refl _ _

/-- **What a call changes**: the target, and the backup if the target is there. -/
theorem changes_writeWithBackup (nothing : τ) (disk : Disk τ) (path : Path) (contents : τ)
    (dryRun : Bool) (w : Weather τ) :
    Changes disk (writeWithBackup nothing disk path contents dryRun w).1
      fun p => dryRun = false ∧ (p = path ∨ (disk path).isSome ∧ p = bakPath path) := by
  cases dryRun with
  | true => exact .refl _ _
  | false =>
    have hcopied := changes_backedUp nothing disk path w
    have hboth := hcopied.trans
      (changes_writeFile (backedUp nothing disk path w).1 path contents w.write)
    rw [writeWithBackup_eq]
    generalize backedUp nothing disk path w = copied at hcopied hboth
    split_ifs with hdir hcopy hwrite
    · exact .refl _ _
    · exact hcopied.mono fun p hp => ⟨rfl, .inr hp⟩
    · exact hboth.mono fun p hp => ⟨rfl, hp.symm⟩
    · exact hboth.mono fun p hp => ⟨rfl, hp.symm⟩

/-- **A successful call** has written the target and, if that was there and is not its own
backup, has made the backup before. -/
theorem writeWithBackup_of_ok {disk' : Disk τ} {path : Path} {contents : τ} {w : Weather τ}
    {result : Option Path}
    (h : writeWithBackup nothing disk path contents false w = (disk', .ok result)) :
    result = some (bakPath path) ∧ disk' path = some (.file contents) ∧
      ((disk path).isSome → bakPath path ≠ path → disk' (bakPath path) = disk path) := by
  rw [writeWithBackup_eq] at h
  have hbacked : (backedUp nothing disk path w).2 = true → (disk path).isSome →
      bakPath path ≠ path → (backedUp nothing disk path w).1 (bakPath path) = disk path := by
    intro hcopy hpath hne
    rw [backedUp, if_pos hpath, safeCopyOnto, if_neg hne] at hcopy ⊢
    obtain ⟨-, replaced, hfile, hcopied⟩ := safeCopyFile_of_true hcopy
    rw [hcopied, Function.update_self, hfile]
  generalize backedUp nothing disk path w = copied at h hbacked
  split_ifs at h with hdir hcopy hwrite
  · cases (Prod.mk.inj h).2
  · cases (Prod.mk.inj h).2
  · obtain ⟨rfl, hresult⟩ := Prod.mk.inj h
    rw [writeFile_of_true hwrite]
    refine ⟨(Except.ok.inj hresult).symm, Function.update_self .., fun hpath hne => ?_⟩
    rw [Function.update_of_ne hne]
    exact hbacked (by simpa using hcopy) hpath hne
  · cases (Prod.mk.inj h).2

/-! ## A sequence of calls -/

/-- A call of `write_with_backup`. -/
structure BakCall (τ : Type) where
  path : Path
  contents : τ
  dryRun : Bool
  weather : Weather τ

/-- A call with the disk before and after it, and what it returns. -/
structure BakStep (τ : Type) where
  before : Disk τ
  call : BakCall τ
  after : Disk τ
  result : Except WriteError (Option Path)

/-- The calls of a sequence, one after the other. -/
def bakSteps (nothing : τ) (disk : Disk τ) : List (BakCall τ) → List (BakStep τ)
  | [] => []
  | call :: calls =>
    let done := writeWithBackup nothing disk call.path call.contents call.dryRun call.weather
    ⟨disk, call, done.1, done.2⟩ :: bakSteps nothing done.1 calls

namespace BakStep

variable {s t : BakStep τ}

/-- The step is that of its call. -/
def Done (nothing : τ) (s : BakStep τ) : Prop :=
  writeWithBackup nothing s.before s.call.path s.call.contents s.call.dryRun s.call.weather =
    (s.after, s.result)

/-- The call writes over a target that is there. -/
def Overwrites (s : BakStep τ) : Prop := s.call.dryRun = false ∧ (s.before s.call.path).isSome

/-- **The call keeps what it replaces** in a file that is not the target. -/
def Keeps (s : BakStep τ) : Prop :=
  s.Overwrites → ∀ backup, s.result = .ok backup → ∃ b, backup = some b ∧ b ≠ s.call.path ∧
    s.after b = s.before s.call.path

/-- **A call on another target leaves the backup alone.** -/
def LeavesBackup (s t : BakStep τ) : Prop :=
  s.Overwrites → t.call.path ≠ s.call.path → ∀ b, s.result = .ok (some b) → t.after b = t.before b

/-- The target of a call is not its own backup. -/
def NotOwnBackup (s : BakStep τ) : Prop := s.Overwrites → bakPath s.call.path ≠ s.call.path

/-- A call on another target does not write to the backup, neither as its target nor as the
backup of that. -/
def SparesBackup (s t : BakStep τ) : Prop :=
  s.Overwrites → t.call.path ≠ s.call.path → t.call.dryRun = false →
    t.call.path ≠ bakPath s.call.path ∧
      ((t.before t.call.path).isSome → bakPath t.call.path ≠ bakPath s.call.path)

theorem Done.keeps (hs : s.Done nothing) (h : s.NotOwnBackup) : s.Keeps := by
  intro hover backup hresult
  rw [Done, hresult, hover.1] at hs
  obtain ⟨rfl, -, hkept⟩ := writeWithBackup_of_ok hs
  exact ⟨_, rfl, h hover, hkept hover.2 (h hover)⟩

theorem Done.leavesBackup (hs : s.Done nothing) (ht : t.Done nothing) (h : s.SparesBackup t) :
    s.LeavesBackup t := by
  intro hover hne b hresult
  rw [Done, hresult, hover.1] at hs
  obtain rfl := Option.some.inj (writeWithBackup_of_ok hs).1
  have hchanges := changes_writeWithBackup nothing t.before t.call.path t.call.contents
    t.call.dryRun t.call.weather (bakPath s.call.path)
  rw [ht] at hchanges
  rcases hchanges with heq | ⟨⟨hdry, hplace⟩, -⟩
  · exact heq
  · obtain ⟨htarget, hbackup⟩ := h hover hne hdry
    rcases hplace with heq | ⟨hthere, heq⟩
    · exact absurd heq.symm htarget
    · exact absurd heq.symm (hbackup hthere)

end BakStep

/-- **A sequence of calls keeps what it replaces**: each of them does, and none on another
target changes the backup of an earlier one. -/
structure KeepsPrevious (steps : List (BakStep τ)) : Prop where
  each : ∀ s ∈ steps, s.Keeps
  later : steps.Pairwise BakStep.LeavesBackup

/-- **The backups of a sequence are apart** from its targets and from each other. -/
structure BackupsApart (steps : List (BakStep τ)) : Prop where
  each : ∀ s ∈ steps, s.NotOwnBackup
  later : steps.Pairwise BakStep.SparesBackup

theorem done_of_mem {calls : List (BakCall τ)} {s : BakStep τ}
    (h : s ∈ bakSteps nothing disk calls) : s.Done nothing := by
  induction calls generalizing disk with
  | nil => cases h
  | cons call calls ih =>
    rcases List.mem_cons.1 h with rfl | h
    · rfl
    · exact ih h

/-- **Every run whose backups are apart keeps what it replaces**, from any disk, with any
contents and whatever fails. -/
theorem keepsPrevious_of_backupsApart (nothing : τ) (disk : Disk τ) (calls : List (BakCall τ))
    (h : BackupsApart (bakSteps nothing disk calls)) :
    KeepsPrevious (bakSteps nothing disk calls) where
  each s hs := (done_of_mem hs).keeps (h.each s hs)
  later := h.later.imp_of_mem fun hs ht hspares =>
    (done_of_mem hs).leavesBackup (done_of_mem ht) hspares

/-- A call for which nothing fails, for the examples. -/
def fineCall (name contents : String) : BakCall String where
  path := ⟨"/home/u", some name⟩
  contents := contents
  dryRun := false
  weather := { secs := 0, dirOk := true, copy := .done, write := .done }

/-- Of a manifest and a snippet. -/
theorem keepsPrevious_manifest : KeepsPrevious (bakSteps ""
    (fun path => if path.fileName = some "mux.toml" then some (.file "old") else none)
    [fineCall "mux.toml" "new", fineCall "snippet-claude.json" "new",
      fineCall "snippet-claude.json" "newer"]) := by
  refine keepsPrevious_of_backupsApart _ _ _ ⟨?_, ?_⟩
  · have hown : ∀ name ∈ ["mux.toml", "snippet-claude.json"],
        bakPath ⟨"/home/u", some name⟩ ≠ ⟨"/home/u", some name⟩ := by decide +kernel
    intro s hs _
    simp only [bakSteps, List.mem_cons, List.not_mem_nil, or_false] at hs
    rcases hs with rfl | rfl | rfl
    · exact hown _ (by decide)
    · exact hown _ (by decide)
    · exact hown _ (by decide)
  · have hapart : (⟨"/home/u", some "snippet-claude.json"⟩ : Path) ≠
        bakPath ⟨"/home/u", some "mux.toml"⟩ := by decide +kernel
    have hbaks : bakPath ⟨"/home/u", some "snippet-claude.json"⟩ ≠
        bakPath ⟨"/home/u", some "mux.toml"⟩ := by decide +kernel
    rw [bakSteps, bakSteps, bakSteps, bakSteps]
    rw [List.pairwise_cons, List.pairwise_cons]
    refine ⟨fun t ht => ?_, fun t ht => ?_, List.pairwise_singleton _ _⟩
    · intro _ _ _
      simp only [List.mem_cons, List.not_mem_nil, or_false] at ht
      rcases ht with rfl | rfl
      · exact ⟨hapart, fun _ => hbaks⟩
      · exact ⟨hapart, fun _ => hbaks⟩
    · intro _ hne _
      simp only [List.mem_cons, List.not_mem_nil, or_false] at ht
      exact absurd (ht ▸ rfl) hne

/-- **A `.bak` file is its own backup.** -/
theorem not_keepsPrevious_bak : ¬ ∀ (disk : Disk String) (calls : List (BakCall String)),
    KeepsPrevious (bakSteps "" disk calls) := by
  intro h
  have hkeeps := (h (fun _ => some (.file "old")) [fineCall "servers.bak" "new"]).each _
    List.mem_cons_self
  obtain ⟨b, hb, hne, -⟩ := hkeeps ⟨rfl, rfl⟩ (some ⟨"/home/u", some "servers.bak"⟩) rfl
  exact hne (Option.some.inj hb).symm

end Config

end VcOperator
