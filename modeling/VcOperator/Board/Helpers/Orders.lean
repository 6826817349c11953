import VcOperator.Board.Helpers.Contents
import VcOperator.Common.SameTree
/-!
# Loading from trees of the same files

What is loaded from two trees of the same files differs only by the order of
the run files. Of two run files with one id the last counts.
-/

namespace VcOperator

namespace Board

variable {ρ ε : Type} {fs fs' : Node} {root dir : List String}

/-! ## The guard -/

section Same

variable (h : Node.Same fs fs')

include h

theorem safeRoot_congr (requestedRoot : List Component) :
    safeRoot fs requestedRoot = safeRoot fs' requestedRoot := by
  rw [safeRoot, safeRoot, Node.canonicalize_congr h]
  cases fs'.canonicalize requestedRoot with
  | none => rfl
  | some canonical =>
    have hrel := h canonical
    dsimp only
    generalize fs.lookup canonical = found at hrel ⊢
    generalize fs'.lookup canonical = found' at hrel ⊢
    cases hrel with
    | none => rfl
    | some halike => cases halike <;> rfl

/-- **The guard** lets the same files through. -/
theorem safeFile_congr (path : List String) : safeFile fs root path = safeFile fs' root path := by
  have hnode := Node.symlinkMetadata_rel h path
  have hparent := Node.symlinkMetadata_rel h path.dropLast
  rw [safeFile, safeFile, Node.canonicalize_congr h]
  generalize fs.symlinkMetadata path = node at hnode ⊢
  generalize fs'.symlinkMetadata path = node' at hnode ⊢
  generalize fs.symlinkMetadata path.dropLast = parent at hparent ⊢
  generalize fs'.symlinkMetadata path.dropLast = parent' at hparent ⊢
  cases hnode with
  | none => rfl
  | some hnode =>
    dsimp only
    rw [hnode.isLink_eq]
    cases hparent with
    | none => rfl
    | some hparent =>
      dsimp only
      rw [hparent.isLink_eq]

theorem safeJsonFiles_congr (names : List String) :
    safeJsonFiles fs root dir names = safeJsonFiles fs' root dir names := by
  induction names with
  | nil => rfl
  | cons name names ih => rw [safeJsonFiles, safeJsonFiles, safeFile_congr h, ih]

theorem loadEvents_congr (formats : Formats ρ ε) :
    loadEvents formats fs root = loadEvents formats fs' root := by
  rw [loadEvents, loadEvents, safeFile_congr h]
  simp only [readToString, Node.readToString_congr h]

end Same

/-! ## The order of a listing -/

/-- What one name contributes: nothing where an error is returned. -/
def jsonFile (fs : Node) (root dir : List String) (name : String) : Option (Option Read) :=
  if isJsonFile name then
    (safeFile fs root (dir ++ [name])).result.map (·.map (⟨dir ++ [name], ·⟩))
  else some none

theorem result_safeJsonFiles_cons (name : String) (names : List String) :
    (safeJsonFiles fs root dir (name :: names)).result =
      (jsonFile fs root dir name).bind fun file =>
        (safeJsonFiles fs root dir names).result.map (file.toList ++ ·) := by
  rw [safeJsonFiles, jsonFile]
  split_ifs with hjson
  · rw [Loading.result_bind]
    cases (safeFile fs root (dir ++ [name])).result with
    | none => rfl
    | some found =>
      cases found with
      | none => simp
      | some path =>
        rw [Option.bind_some, Loading.result_bind]
        cases (safeJsonFiles fs root dir names).result <;> rfl
  · simp

/-- **A listing in another order** has the same files, in another order. -/
theorem safeJsonFiles_perm {names names' : List String} (h : names.Perm names') {files : List Read}
    (hfiles : (safeJsonFiles fs root dir names).result = some files) :
    ∃ files', (safeJsonFiles fs root dir names').result = some files' ∧ files.Perm files' := by
  induction h generalizing files with
  | nil => exact ⟨files, hfiles, .refl _⟩
  | cons name h ih =>
    rw [result_safeJsonFiles_cons] at hfiles
    obtain ⟨file, hfile, hmap⟩ := Option.bind_eq_some_iff.1 hfiles
    obtain ⟨rest, hrest, rfl⟩ := Option.map_eq_some_iff.1 hmap
    obtain ⟨rest', hrest', hperm⟩ := ih hrest
    refine ⟨file.toList ++ rest', ?_, hperm.append_left _⟩
    rw [result_safeJsonFiles_cons, hfile, Option.bind_some, hrest', Option.map_some]
  | swap second first names =>
    simp only [result_safeJsonFiles_cons] at hfiles ⊢
    obtain ⟨file, hfile, hmap⟩ := Option.bind_eq_some_iff.1 hfiles
    obtain ⟨both, hboth, rfl⟩ := Option.map_eq_some_iff.1 hmap
    obtain ⟨file', hfile', hmap'⟩ := Option.bind_eq_some_iff.1 hboth
    obtain ⟨rest, hrest, rfl⟩ := Option.map_eq_some_iff.1 hmap'
    refine ⟨file'.toList ++ (file.toList ++ rest), ?_, ?_⟩
    · rw [hfile', Option.bind_some, hfile, Option.bind_some, hrest]
      rfl
    · rw [← List.append_assoc, ← List.append_assoc]
      exact List.perm_append_comm.append_right _
  | trans _ _ ih ih' =>
    obtain ⟨files', hfiles', hperm⟩ := ih hfiles
    obtain ⟨files'', hfiles'', hperm'⟩ := ih' hfiles'
    exact ⟨files'', hfiles'', hperm.trans hperm'⟩

/-- **The JSON files of a directory**, listed in another order. -/
theorem jsonFiles_perm (h : Node.Same fs fs') {files : List Read}
    (hfiles : (jsonFiles fs root dir).result = some files) :
    ∃ files', (jsonFiles fs' root dir).result = some files' ∧ files.Perm files' := by
  have hnames := Node.readDir_rel h (Node.names dir)
  rw [jsonFiles] at hfiles ⊢
  rw [← Node.pathExists_congr h]
  split_ifs at hfiles ⊢
  · generalize fs.readDir (Node.names dir) = names at hnames hfiles
    generalize fs'.readDir (Node.names dir) = names' at hnames ⊢
    cases hnames with
    | none => cases hfiles
    | some hperm =>
      dsimp only at hfiles ⊢
      rw [safeJsonFiles_congr h] at hfiles
      exact safeJsonFiles_perm hperm hfiles
  · exact ⟨files, hfiles, .refl _⟩

/-! ## The run files -/

/-- The snapshots of files. -/
def snapshotsOf (formats : Formats ρ ε) (fs : Node) (files : List Read) : List ρ :=
  files.filterMap fun file => (fs.readToString (Node.names file.path)).bind formats.run

theorem snapshotsOf_congr (h : Node.Same fs fs') (formats : Formats ρ ε) (files : List Read) :
    snapshotsOf formats fs files = snapshotsOf formats fs' files := by
  simp only [snapshotsOf, Node.readToString_congr h]

/-- The runs that are loaded: of those with one id the last. -/
theorem result_loadRuns (formats : Formats ρ ε) (fs : Node) (root : List String) :
    (loadRuns formats fs root).result = (runSnapshotFiles fs root).result.map fun files =>
      (HashMap.fill formats.runId id (snapshotsOf formats fs files)).values := by
  rw [loadRuns, Loading.result_bind]
  cases (runSnapshotFiles fs root).result with
  | none => rfl
  | some files =>
    rw [Option.bind_some, Loading.result_bind, result_insertRuns]
    rfl

/-- The archived ids of a root. -/
theorem result_loadArchivedRunIds (floats : Json.Floats) (fs : Node) (root : List String) :
    (loadArchivedRunIds floats fs root).result =
      (archivedMarkerFiles fs root).result.map fun files =>
        insertIds (files.filterMap fun file => archivedIdFromMarker floats (file.path.getLastD "")
          (fs.readToString (Node.names file.path))) [] := by
  rw [loadArchivedRunIds, Loading.result_bind]
  cases (archivedMarkerFiles fs root).result with
  | none => rfl
  | some files =>
    rw [Option.bind_some, result_insertMarkers]
    rfl

/-- **The archived ids** do not depend on the order of the markers. -/
theorem loadArchivedRunIds_same (h : Node.Same fs fs') {floats : Json.Floats}
    {archived : List String}
    (harchived : (loadArchivedRunIds floats fs root).result = some archived) :
    ∃ archived', (loadArchivedRunIds floats fs' root).result = some archived' ∧
      ∀ id, id ∈ archived ↔ id ∈ archived' := by
  rw [result_loadArchivedRunIds] at harchived ⊢
  obtain ⟨files, hfiles, rfl⟩ := Option.map_eq_some_iff.1 harchived
  obtain ⟨files', hfiles', hperm⟩ := jsonFiles_perm h hfiles
  refine ⟨_, Option.map_eq_some_iff.2 ⟨files', hfiles', rfl⟩, fun id => ?_⟩
  simp only [mem_insertIds, Node.readToString_congr h]
  exact or_congr_right (hperm.filterMap _).mem_iff

/-! ## What is loaded -/

/-- **What is loaded** from a root, where nothing fails. -/
theorem result_load_eq_some_iff {formats : Formats ρ ε} {requestedRoot : List Component}
    (hroot : safeRoot fs requestedRoot = some root) {state : ControlPlaneState ρ ε} :
    (load formats fs requestedRoot).result = some state ↔
      ∃ archived files events,
        (loadArchivedRunIds formats.floats fs root).result = some archived ∧
        (runSnapshotFiles fs root).result = some files ∧
        (loadEvents formats fs root).result = some events ∧
        state = {
          root := Node.names root
          runs := (HashMap.fill formats.runId id (snapshotsOf formats fs files)).values.filter
            fun snapshot => formats.runId snapshot ∉ archived
          events := events
          archivedRunIds := archived } := by
  rw [load, hroot]
  simp only [Loading.result_bind, result_loadRuns, Loading.result_pure, Option.bind_eq_some_iff,
    Option.map_eq_some_iff]
  constructor
  · rintro ⟨archived, harchived, _, ⟨files, hfiles, rfl⟩, events, hevents, heq⟩
    exact ⟨archived, files, events, harchived, hfiles, hevents, (Option.some.inj heq).symm⟩
  · rintro ⟨archived, files, events, harchived, hfiles, hevents, rfl⟩
    exact ⟨archived, harchived, _, ⟨files, hfiles, rfl⟩, events, hevents, rfl⟩

end Board

end VcOperator
