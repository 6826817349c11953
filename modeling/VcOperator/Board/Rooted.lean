import VcOperator.Board.Model.Load
/-!
# The loader stays under its root

Every file the loader reads has passed `safe_file`: it is read under its
canonical path, which is under the canonical path of the root, and neither
the name it was found under nor the directory of that name is a symbolic
link.
-/

namespace VcOperator

namespace Board

variable {ρ ε α β : Type} {fs : Node} {root : List String}

/-- **A file is read safely**, from a canonical root. -/
structure Guarded (fs : Node) (root : List String) (file : Read) : Prop where
  inside : root <+: file.path
  /-- No component of the path is a link. -/
  real : fs.Real file.path
  canonical : fs.canonicalize (Node.names file.found) = some file.path
  found : ∃ n, fs.symlinkMetadata file.found = some n ∧ n.isLink = false
  parent : ∃ n, fs.symlinkMetadata file.found.dropLast = some n ∧ n.isLink = false

/-- **The loader stays under its root**, whatever root it is given. -/
def StaysUnder (formats : Formats ρ ε) (fs : Node) (requestedRoot : List Component) : Prop :=
  ∀ file ∈ (load formats fs requestedRoot).reads,
    ∃ root, fs.canonicalize requestedRoot = some root ∧ Guarded fs root file

/-! ## What a computation of the loader reads -/

namespace Loading

theorem mem_reads_bind {x : Loading α} {f : α → Loading β} {file : Read}
    (h : file ∈ (x >>= f).reads) :
    file ∈ x.reads ∨ ∃ a, x.result = some a ∧ file ∈ (f a).reads := by
  simp only [bind] at h
  split at h
  · exact .inl h
  · rename_i a ha
    rcases List.mem_append.1 h with h | h
    · exact .inl h
    · exact .inr ⟨a, ha, h⟩

theorem result_bind_eq_some {x : Loading α} {f : α → Loading β} {b : β}
    (h : (x >>= f).result = some b) : ∃ a, x.result = some a ∧ (f a).result = some b := by
  simp only [bind] at h
  split at h
  · cases h
  · rename_i a ha
    exact ⟨a, ha, h⟩

end Loading

/-! ## The guard -/

/-- **What `safe_file` lets through.** -/
theorem guarded_of_safeFile (hroot : fs.isLink = false) {found path : List String}
    (h : (safeFile fs root found).result = some (some path)) : Guarded fs root ⟨found, path⟩ := by
  rw [safeFile] at h
  cases hnode : fs.symlinkMetadata found with
  | none => rw [hnode] at h; cases h
  | some node =>
    rw [hnode] at h
    dsimp only at h
    split_ifs at h with hlink hnil
    · cases h
    · cases h
    cases hparent : fs.symlinkMetadata found.dropLast with
    | none => rw [hparent] at h; cases h
    | some parent =>
      rw [hparent] at h
      dsimp only at h
      split_ifs at h with hplink
      · cases h
      cases hcanonical : fs.canonicalize (Node.names found) with
      | none => rw [hcanonical] at h; cases h
      | some canonical =>
        rw [hcanonical] at h
        dsimp only at h
        split_ifs at h with hinside
        · obtain rfl : canonical = path := Option.some.inj (Option.some.inj h)
          exact
            { inside := hinside
              real := Node.canonicalize_real hroot hcanonical
              canonical := hcanonical
              found := ⟨node, hnode, by simpa using hlink⟩
              parent := ⟨parent, hparent, by simpa using hplink⟩ }
        · cases h

/-- The guard reads no contents. -/
theorem reads_safeFile (fs : Node) (root found : List String) :
    (safeFile fs root found).reads = [] := by
  rw [safeFile]
  split
  · rfl
  · split_ifs
    · rfl
    · rfl
    split
    · rfl
    · split_ifs
      · rfl
      split
      · rfl
      · split_ifs <;> rfl

/-- Nor does the loop over a directory. -/
theorem reads_safeJsonFiles (fs : Node) (root dir names : List String) :
    (safeJsonFiles fs root dir names).reads = [] := by
  induction names with
  | nil => rfl
  | cons name names ih =>
    rw [List.eq_nil_iff_forall_not_mem]
    intro file hfile
    rw [safeJsonFiles] at hfile
    split_ifs at hfile
    · rcases Loading.mem_reads_bind hfile with hfile | ⟨found, -, hfile⟩
      · rw [reads_safeFile] at hfile
        cases hfile
      · cases found with
        | none => rw [ih] at hfile; cases hfile
        | some path =>
          rcases Loading.mem_reads_bind hfile with hfile | ⟨files, -, hfile⟩
          · rw [ih] at hfile
            cases hfile
          · cases hfile
    · rw [ih] at hfile
      cases hfile

/-- What the loop lets through has passed the guard. -/
theorem guarded_of_mem_safeJsonFiles (hroot : fs.isLink = false) {dir names : List String}
    {files : List Read} (h : (safeJsonFiles fs root dir names).result = some files) {file : Read}
    (hfile : file ∈ files) : Guarded fs root file := by
  induction names generalizing files with
  | nil =>
    obtain rfl : [] = files := Option.some.inj h
    cases hfile
  | cons name names ih =>
    rw [safeJsonFiles] at h
    split_ifs at h
    · obtain ⟨found, hfound, h⟩ := Loading.result_bind_eq_some h
      cases found with
      | none => exact ih h hfile
      | some path =>
        obtain ⟨rest, hrest, h⟩ := Loading.result_bind_eq_some h
        obtain rfl : ⟨dir ++ [name], path⟩ :: rest = files := Option.some.inj h
        rcases List.mem_cons.1 hfile with rfl | hfile
        · exact guarded_of_safeFile hroot hfound
        · exact ih hrest hfile
    · exact ih h hfile

theorem reads_jsonFiles (fs : Node) (root dir : List String) :
    (jsonFiles fs root dir).reads = [] := by
  rw [jsonFiles]
  split_ifs
  · split
    · rfl
    · exact reads_safeJsonFiles fs root dir _
  · rfl

theorem guarded_of_mem_jsonFiles (hroot : fs.isLink = false) {dir : List String}
    {files : List Read} (h : (jsonFiles fs root dir).result = some files) {file : Read}
    (hfile : file ∈ files) : Guarded fs root file := by
  rw [jsonFiles] at h
  split_ifs at h
  · split at h
    · cases h
    · exact guarded_of_mem_safeJsonFiles hroot h hfile
  · obtain rfl : [] = files := Option.some.inj h
    cases hfile

/-! ## The three loaders -/

/-- The loop of `load_runs` reads the files it is given. -/
theorem mem_of_mem_reads_insertRuns {formats : Formats ρ ε} {files : List Read}
    {snapshots : HashMap String ρ} {file : Read}
    (h : file ∈ (insertRuns formats fs files snapshots).reads) : file ∈ files := by
  induction files generalizing snapshots with
  | nil => cases h
  | cons next files ih =>
    rw [insertRuns] at h
    rcases Loading.mem_reads_bind h with h | ⟨text, -, h⟩
    · rw [readToString, List.mem_singleton] at h
      exact h ▸ List.mem_cons_self ..
    · split at h <;> exact List.mem_cons_of_mem _ (ih h)

/-- So does the loop of `load_archived_run_ids`. -/
theorem mem_of_mem_reads_insertMarkers {floats : Json.Floats} {files : List Read}
    {archived : List String} {file : Read}
    (h : file ∈ (insertMarkers floats fs files archived).reads) : file ∈ files := by
  induction files generalizing archived with
  | nil => cases h
  | cons next files ih =>
    rw [insertMarkers] at h
    rcases Loading.mem_reads_bind h with h | ⟨text, -, h⟩
    · rw [readToString, List.mem_singleton] at h
      exact h ▸ List.mem_cons_self ..
    · split at h <;> exact List.mem_cons_of_mem _ (ih h)

theorem guarded_of_mem_loadRuns (hroot : fs.isLink = false) {formats : Formats ρ ε} {file : Read}
    (h : file ∈ (loadRuns formats fs root).reads) : Guarded fs root file := by
  rw [loadRuns] at h
  rcases Loading.mem_reads_bind h with h | ⟨files, hfiles, h⟩
  · rw [runSnapshotFiles, reads_jsonFiles] at h
    cases h
  · rcases Loading.mem_reads_bind h with h | ⟨snapshots, -, h⟩
    · exact guarded_of_mem_jsonFiles hroot hfiles (mem_of_mem_reads_insertRuns h)
    · cases h

theorem guarded_of_mem_loadArchivedRunIds (hroot : fs.isLink = false) {floats : Json.Floats}
    {file : Read} (h : file ∈ (loadArchivedRunIds floats fs root).reads) :
    Guarded fs root file := by
  rw [loadArchivedRunIds] at h
  rcases Loading.mem_reads_bind h with h | ⟨files, hfiles, h⟩
  · rw [archivedMarkerFiles, reads_jsonFiles] at h
    cases h
  · exact guarded_of_mem_jsonFiles hroot hfiles (mem_of_mem_reads_insertMarkers h)

theorem guarded_of_mem_loadEvents (hroot : fs.isLink = false) {formats : Formats ρ ε}
    {file : Read} (h : file ∈ (loadEvents formats fs root).reads) : Guarded fs root file := by
  rw [loadEvents] at h
  rcases Loading.mem_reads_bind h with h | ⟨found, hfound, h⟩
  · rw [reads_safeFile] at h
    cases h
  · cases found with
    | none => cases h
    | some path =>
      rcases Loading.mem_reads_bind h with h | ⟨text, -, h⟩
      · rw [readToString, List.mem_singleton] at h
        exact h ▸ guarded_of_safeFile hroot hfound
      · split at h <;> cases h

/-- **The loader stays under its root**, in every file tree. -/
theorem staysUnder (formats : Formats ρ ε) (fs : Node) (requestedRoot : List Component) :
    StaysUnder formats fs requestedRoot := by
  intro file h
  rw [load] at h
  cases hsafe : safeRoot fs requestedRoot with
  | none => rw [hsafe] at h; cases h
  | some root =>
    rw [hsafe] at h
    obtain ⟨hcanonical, hroot⟩ :
        fs.canonicalize requestedRoot = some root ∧ fs.isLink = false := by
      rw [safeRoot] at hsafe
      split at hsafe
      · cases hsafe
      · rename_i canonical hcanonical
        split at hsafe
        · rename_i entries hdir
          obtain rfl := Option.some.inj hsafe
          exact ⟨hcanonical, Node.isLink_of_lookup hdir rfl⟩
        · cases hsafe
    refine ⟨root, hcanonical, ?_⟩
    rcases Loading.mem_reads_bind h with h | ⟨archivedRunIds, -, h⟩
    · exact guarded_of_mem_loadArchivedRunIds hroot h
    rcases Loading.mem_reads_bind h with h | ⟨runs, -, h⟩
    · exact guarded_of_mem_loadRuns hroot h
    rcases Loading.mem_reads_bind h with h | ⟨events, -, h⟩
    · exact guarded_of_mem_loadEvents hroot h
    · cases h

-- a run, a run that is a link out of the root, and a marker behind a link inside of it
example :
    ((load (ρ := String) (ε := String) ⟨some, id, some, ⟨fun _ => [], fun _ => none⟩⟩
      (.dir [
        ("state", .dir [
          ("runs", .dir [
            ("a.json", .file (some "")), ("b.json", .link true [.name "outside.json"]),
            (".archived", .link false [.parent, .name "old"])]),
          ("old", .dir [("c.json", .file (some ""))])]),
        ("outside.json", .file (some "")),
        ("link", .link false [.name "state"])])
      [.name "link"]).reads.map Read.path) = [["state", "runs", "a.json"]] := by
  decide +kernel

end Board

end VcOperator
