import VcOperator.Board.Helpers.Orders
import VcOperator.Board.NewestFirst
import VcOperator.Board.Rooted
/-!
# The board and the order of the files

Of two run files with one id the board shows the one that is listed later.
Apart from this it depends only on the files.
-/

namespace VcOperator

namespace Board

variable {τ : Type} [LinearOrder τ] (out : Outside τ)

/-- The formats of the console. -/
def snapshotFormats (run : String → Option RunSnapshot) (event : String → Option RunEvent)
    (floats : Json.Floats) : Formats RunSnapshot RunEvent where
  run := run
  runId := RunSnapshot.runId
  event := event
  floats := floats

/-- **A board** of a state root: none where the load fails, and else the runs in the order in
which some iteration over the hash map gives them, rendered. -/
def IsBoard (formats : Formats RunSnapshot RunEvent) (fs : Node) (requestedRoot : List Component)
    (now : τ) (board : Option (List RenderedRun)) : Prop :=
  match (load formats fs requestedRoot).result with
  | none => board = none
  | some state => ∃ runs, runs.Perm state.runs ∧
      board = some (renderRuns out { state with runs := runs } now)

/-- **The board depends only on the files**, of this tree. -/
def FilesOnly (formats : Formats RunSnapshot RunEvent) (fs : Node)
    (requestedRoot : List Component) (now : τ) : Prop :=
  ∀ fs', Node.Same fs fs' → ∀ board board', IsBoard out formats fs requestedRoot now board →
    IsBoard out formats fs' requestedRoot now board' → board = board'

section Formats

variable {ρ ε : Type}

/-- The snapshots in the run files of a root, one for each file. -/
def snapshotsRead (formats : Formats ρ ε) (fs : Node) (requestedRoot : List Component) : List ρ :=
  match safeRoot fs requestedRoot with
  | none => []
  | some root =>
    match (runSnapshotFiles fs root).result with
    | none => []
    | some files => snapshotsOf formats fs files

/-- **Of each run that is shown there is one snapshot**: run files with one id that is not
archived have the same snapshot. -/
def OneSnapshotEach (formats : Formats ρ ε) (fs : Node) (requestedRoot : List Component) : Prop :=
  ∀ state, (load formats fs requestedRoot).result = some state →
    ∀ snapshot ∈ snapshotsRead formats fs requestedRoot,
      ∀ other ∈ snapshotsRead formats fs requestedRoot,
        formats.runId snapshot = formats.runId other →
          formats.runId snapshot ∉ state.archivedRunIds → snapshot = other

/-! ## What is loaded -/

variable {formats : Formats ρ ε} {fs fs' : Node} {requestedRoot : List Component}
variable {state : ControlPlaneState ρ ε}

/-- The runs of a load: the last of each id, if it is not archived. -/
theorem runs_of_load (h : (load formats fs requestedRoot).result = some state) :
    state.runs = (HashMap.fill formats.runId id
      (snapshotsRead formats fs requestedRoot)).values.filter
        fun snapshot => formats.runId snapshot ∉ state.archivedRunIds := by
  rw [snapshotsRead]
  cases hroot : safeRoot fs requestedRoot with
  | none =>
    rw [load, hroot] at h
    obtain rfl := Option.some.inj h
    rfl
  | some root =>
    obtain ⟨archived, files, events, -, hfiles, -, rfl⟩ := (result_load_eq_some_iff hroot).1 h
    dsimp only
    rw [hfiles]

/-- **Loads from trees of the same files.** -/
theorem load_same (hsame : Node.Same fs fs')
    (h : (load formats fs requestedRoot).result = some state) :
    ∃ state', (load formats fs' requestedRoot).result = some state' ∧
      state'.events = state.events ∧
      (∀ id, id ∈ state.archivedRunIds ↔ id ∈ state'.archivedRunIds) ∧
      (snapshotsRead formats fs requestedRoot).Perm (snapshotsRead formats fs' requestedRoot) := by
  have hroots := safeRoot_congr hsame requestedRoot
  cases hroot : safeRoot fs requestedRoot with
  | none =>
    rw [hroot] at hroots
    rw [load, hroot] at h
    obtain rfl := Option.some.inj h
    refine ⟨.empty requestedRoot, ?_, rfl, fun _ => Iff.rfl, ?_⟩
    · rw [load, ← hroots]
      rfl
    · rw [snapshotsRead, snapshotsRead, ← hroots, hroot]
  | some root =>
    have hroot' : safeRoot fs' requestedRoot = some root := hroots ▸ hroot
    obtain ⟨archived, files, events, harchived, hfiles, hevents, rfl⟩ :=
      (result_load_eq_some_iff hroot).1 h
    obtain ⟨archived', harchived', hids⟩ := loadArchivedRunIds_same hsame harchived
    obtain ⟨files', hfiles', hperm⟩ := jsonFiles_perm hsame hfiles
    rw [loadEvents_congr hsame] at hevents
    refine ⟨_, (result_load_eq_some_iff hroot').2
      ⟨archived', files', events, harchived', hfiles', hevents, rfl⟩, rfl, hids, ?_⟩
    rw [snapshotsRead, snapshotsRead, hroot, hroot']
    dsimp only
    rw [hfiles, runSnapshotFiles, hfiles']
    dsimp only
    rw [snapshotsOf_congr hsame]
    exact hperm.filterMap _

/-- A snapshot that is loaded is in a file. -/
theorem mem_read_of_mem_runs (h : (load formats fs requestedRoot).result = some state)
    {snapshot : ρ} (hmem : snapshot ∈ state.runs) :
    snapshot ∈ snapshotsRead formats fs requestedRoot ∧
      formats.runId snapshot ∉ state.archivedRunIds := by
  rw [runs_of_load h, List.mem_filter, decide_eq_true_eq] at hmem
  obtain ⟨k, hk⟩ := HashMap.mem_values_iff.1 hmem.1
  obtain ⟨found, hfound, -, rfl⟩ := HashMap.exists_of_get_fill hk
  exact ⟨hfound, hmem.2⟩

/-- **The last snapshot of an id** is loaded, if the id is not archived. -/
theorem mem_runs_of_getLast? (h : (load formats fs requestedRoot).result = some state)
    {snapshot : ρ} (hlast : ((snapshotsRead formats fs requestedRoot).filter
      (formats.runId · = formats.runId snapshot)).getLast? = some snapshot)
    (hid : formats.runId snapshot ∉ state.archivedRunIds) : snapshot ∈ state.runs := by
  rw [runs_of_load h, List.mem_filter, decide_eq_true_eq]
  refine ⟨HashMap.mem_values_of_get (k := formats.runId snapshot) ?_, hid⟩
  rw [HashMap.get_fill, hlast]
  rfl

/-- **No two runs that are loaded have one id.** -/
theorem nodup_runs (h : (load formats fs requestedRoot).result = some state) :
    (state.runs.map formats.runId).Nodup := by
  have hkeys :
      (HashMap.fill formats.runId id (snapshotsRead formats fs requestedRoot)).keys.Nodup :=
    (HashMap.fill formats.runId id (snapshotsRead formats fs requestedRoot)).nodupKeys
  rw [← HashMap.map_values_fill] at hkeys
  rw [runs_of_load h]
  exact hkeys.sublist (List.filter_sublist.map _)

/-- **Where each id has one snapshot**, the runs are those of the files. -/
theorem mem_runs_iff (hone : OneSnapshotEach formats fs requestedRoot)
    (h : (load formats fs requestedRoot).result = some state) {snapshot : ρ} :
    snapshot ∈ state.runs ↔ snapshot ∈ snapshotsRead formats fs requestedRoot ∧
      formats.runId snapshot ∉ state.archivedRunIds := by
  refine ⟨mem_read_of_mem_runs h, fun ⟨hread, hid⟩ => ?_⟩
  have hmem : snapshot ∈ (snapshotsRead formats fs requestedRoot).filter
      (formats.runId · = formats.runId snapshot) := List.mem_filter.2 ⟨hread, by simp⟩
  obtain ⟨last, hlast⟩ := Option.isSome_iff_exists.1
    (List.getLast?_isSome.2 (List.ne_nil_of_mem hmem))
  obtain ⟨hlastRead, hlastId⟩ := List.mem_filter.1 (List.mem_of_getLast? hlast)
  obtain rfl : snapshot = last :=
    hone state h snapshot hread last hlastRead (of_decide_eq_true hlastId).symm hid
  exact mem_runs_of_getLast? h hlast hid

/-- **Then two loads have the same runs**, in some order. -/
theorem perm_runs (hone : OneSnapshotEach formats fs requestedRoot) (hsame : Node.Same fs fs')
    (h : (load formats fs requestedRoot).result = some state)
    {state' : ControlPlaneState ρ ε} (h' : (load formats fs' requestedRoot).result = some state') :
    state.runs.Perm state'.runs := by
  obtain ⟨_, hload, -, hids, hperm⟩ := load_same hsame h
  obtain rfl : _ = state' := Option.some.inj (hload.symm.trans h')
  have hone' : OneSnapshotEach formats fs' requestedRoot := by
    intro t ht snapshot hread other hother hid hnot
    obtain rfl := Option.some.inj (ht.symm.trans h')
    exact hone state h snapshot (hperm.mem_iff.2 hread) other (hperm.mem_iff.2 hother) hid
      (mt (hids _).1 hnot)
  refine (List.perm_ext_iff_of_nodup (nodup_runs h).of_map (nodup_runs h').of_map).2
    fun snapshot => ?_
  rw [mem_runs_iff hone h, mem_runs_iff hone' h', hperm.mem_iff, hids]

/-! ## The last file -/

/-- A file of a listing has been let through under its name. -/
theorem mem_safeJsonFiles {root dir names : List String} {files : List Read}
    (h : (safeJsonFiles fs root dir names).result = some files) {file : Read}
    (hfile : file ∈ files) :
    ∃ name, (safeFile fs root (dir ++ [name])).result = some (some file.path) := by
  induction names generalizing files with
  | nil =>
    obtain rfl : [] = files := Option.some.inj h
    cases hfile
  | cons name names ih =>
    rw [result_safeJsonFiles_cons] at h
    obtain ⟨found, hfound, hmap⟩ := Option.bind_eq_some_iff.1 h
    obtain ⟨rest, hrest, rfl⟩ := Option.map_eq_some_iff.1 hmap
    rcases List.mem_append.1 hfile with hmem | hmem
    · rw [Option.mem_toList] at hmem
      obtain rfl : found = some file := hmem
      rw [jsonFile] at hfound
      split_ifs at hfound
      · obtain ⟨path, hpath, hread⟩ := Option.map_eq_some_iff.1 hfound
        obtain ⟨path, rfl, rfl⟩ := Option.map_eq_some_iff.1 hread
        exact ⟨name, hpath⟩
      · cases hfound
    · exact ih hrest hmem

/-- **Where there is a run file**, `runs` is a directory. -/
theorem real_runsDir {root : List String} (hreal : fs.Real root) {files : List Read}
    (h : (runSnapshotFiles fs root).result = some files) {file : Read} (hfile : file ∈ files) :
    fs.Real (runsDir root) ∧ ∃ entries, fs.lookup (runsDir root) = some (.dir entries) := by
  have hlink : fs.isLink = false := by
    obtain ⟨n, hn, hnlink⟩ := hreal [] List.nil_prefix
    exact Node.isLink_of_lookup hn hnlink
  obtain ⟨name, hname⟩ : ∃ name,
      (safeFile fs root (runsDir root ++ [name])).result = some (some file.path) := by
    rw [runSnapshotFiles, jsonFiles] at h
    split_ifs at h
    · split at h
      · cases h
      · exact mem_safeJsonFiles h hfile
    · obtain rfl : [] = files := Option.some.inj h
      cases hfile
  have hguarded := guarded_of_safeFile hlink hname
  obtain ⟨runs, hruns, hrunsLink⟩ := hguarded.parent
  rw [List.dropLast_concat, runsDir, Node.symlinkMetadata_entry hreal] at hruns
  have hrealRuns : fs.Real (runsDir root) := hreal.append hruns hrunsLink
  obtain ⟨node, hnode, -⟩ := hguarded.found
  rw [Node.symlinkMetadata_entry hrealRuns] at hnode
  obtain ⟨entries, hdir, -⟩ := Node.lookup_append_singleton hnode
  exact ⟨hrealRuns, entries, hdir⟩

/-- What the name of a run file contributes. -/
def snapshotOf (formats : Formats ρ ε) (fs : Node) (dir : List String)
    (entries : List (String × Node)) (name : String) : Option ρ :=
  (jsonEntry dir entries name).bind fun file =>
    (fs.readToString (Node.names file.path)).bind formats.run

/-- The snapshots of a directory. -/
theorem snapshotsRead_eq {root : List String} (hroot : safeRoot fs requestedRoot = some root)
    (hreal : fs.Real (runsDir root)) {entries : List (String × Node)}
    (hdir : fs.lookup (runsDir root) = some (.dir entries)) :
    snapshotsRead formats fs requestedRoot =
      (entries.map Prod.fst).filterMap (snapshotOf formats fs (runsDir root) entries) := by
  have hfiles : (runSnapshotFiles fs root).result = _ :=
    result_jsonFiles hreal (List.prefix_append _ _) hdir
  rw [snapshotsRead, hroot]
  dsimp only
  rw [hfiles]
  exact List.filterMap_filterMap

/-- It is the same where the names stand for the same. -/
theorem snapshotOf_congr (hsame : Node.Same fs fs') {dir : List String}
    {entries entries' : List (String × Node)} (h : ∀ s, entries'.lookup s = entries.lookup s) :
    snapshotOf formats fs' dir entries' = snapshotOf formats fs dir entries := by
  funext name
  simp only [snapshotOf, jsonEntry, h, Node.readToString_congr hsame]

/-- The root is a directory without links above it. -/
theorem real_of_safeRoot {root : List String} (h : safeRoot fs requestedRoot = some root) :
    fs.Real root := by
  rw [safeRoot] at h
  split at h
  · cases h
  · rename_i canonical hcanonical
    split at h
    · rename_i entries hdir
      obtain rfl := Option.some.inj h
      exact Node.canonicalize_real (Node.isLink_of_lookup hdir rfl) hcanonical
    · cases h

/-- **Any snapshot can be the last** of its id: the directory is listed so in a tree of the same
files. -/
theorem exists_last {snapshot : ρ} (h : snapshot ∈ snapshotsRead formats fs requestedRoot) :
    ∃ fs', Node.Same fs fs' ∧ ((snapshotsRead formats fs' requestedRoot).filter
      (formats.runId · = formats.runId snapshot)).getLast? = some snapshot := by
  have hread := h
  rw [snapshotsRead] at hread
  cases hroot : safeRoot fs requestedRoot with
  | none =>
    rw [hroot] at hread
    cases hread
  | some root =>
    rw [hroot] at hread
    dsimp only at hread
    split at hread
    · cases hread
    rename_i files hfiles
    obtain ⟨file, hfile, -⟩ := List.mem_filterMap.1 hread
    obtain ⟨hreal, entries, hdir⟩ := real_runsDir (real_of_safeRoot hroot) hfiles hfile
    rw [snapshotsRead_eq hroot hreal hdir] at h
    obtain ⟨name, hname, hsnapshot⟩ := List.mem_filterMap.1 h
    -- its file is listed last
    have horder := Node.reorders_moveLast name
    have hsame := horder.same (runsDir root) fs
    refine ⟨_, hsame, ?_⟩
    rw [snapshotsRead_eq ((safeRoot_congr hsame _).symm.trans hroot) (hsame.real hreal)
      (Node.lookup_reorder hdir), snapshotOf_congr hsame (horder.lookup entries), Node.moveLast,
      List.map_append, List.filterMap_append, List.filter_append]
    have hlast : ∀ found, found ∈ (((entries.filter (·.1 = name)).map Prod.fst).filterMap
        (snapshotOf formats fs (runsDir root) entries)).filter
          (formats.runId · = formats.runId snapshot) ↔ found = snapshot := by
      intro found
      rw [List.mem_filter, List.mem_filterMap]
      constructor
      · rintro ⟨⟨other, hother, hfound⟩, -⟩
        obtain ⟨entry, hentry, rfl⟩ := List.mem_map.1 hother
        rw [of_decide_eq_true (List.mem_filter.1 hentry).2, hsnapshot] at hfound
        exact (Option.some.inj hfound).symm
      · rintro rfl
        obtain ⟨entry, hentry, rfl⟩ := List.mem_map.1 hname
        exact ⟨⟨entry.1, List.mem_map_of_mem (List.mem_filter.2 ⟨hentry, by simp⟩), hsnapshot⟩,
          by simp⟩
    obtain ⟨found, hfound⟩ := Option.isSome_iff_exists.1
      (List.getLast?_isSome.2 (List.ne_nil_of_mem ((hlast snapshot).2 rfl)))
    rw [List.getLast?_append, hfound, Option.some_or,
      (hlast found).1 (List.mem_of_getLast? hfound)]

end Formats

/-! ## The result -/

variable {out} {formats : Formats RunSnapshot RunEvent} {fs : Node}
variable {requestedRoot : List Component} {now : τ}

/-- The board of a load, in the order in which the values are held. -/
theorem isBoard_of_load {state : ControlPlaneState RunSnapshot RunEvent}
    (h : (load formats fs requestedRoot).result = some state) :
    IsBoard out formats fs requestedRoot now (some (renderRuns out state now)) := by
  rw [IsBoard, h]
  exact ⟨state.runs, .refl _, rfl⟩

/-- **A board that depends only on the files** has one snapshot for each run. -/
theorem oneSnapshotEach_of_filesOnly (h : FilesOnly out formats fs requestedRoot now) :
    OneSnapshotEach formats fs requestedRoot := by
  -- whichever is loaded, a tree of the same files loads the other
  have hloaded : ∀ state, (load formats fs requestedRoot).result = some state →
      ∀ snapshot ∈ snapshotsRead formats fs requestedRoot,
        formats.runId snapshot ∉ state.archivedRunIds → snapshot ∈ state.runs := by
    intro state hstate snapshot hread hid
    obtain ⟨fs', hsame, hlast⟩ := exists_last hread
    obtain ⟨state', hstate', -, harchived, -⟩ := load_same hsame hstate
    have hmem : snapshot ∈ state'.runs :=
      mem_runs_of_getLast? hstate' hlast (mt (harchived _).2 hid)
    have hboards : renderRuns out state now = renderRuns out state' now :=
      Option.some.inj (h fs' hsame _ _ (isBoard_of_load hstate) (isBoard_of_load hstate'))
    have hrendered : renderRun out state'.events now snapshot ∈ renderRuns out state now :=
      hboards ▸ perm_renderRuns.mem_iff.2 (List.mem_map_of_mem hmem)
    obtain ⟨other, hother, heq⟩ := List.mem_map.1 (perm_renderRuns.mem_iff.1 hrendered)
    obtain rfl : other = snapshot := congrArg RenderedRun.snapshot heq
    exact hother
  intro state hstate snapshot hread other hother hsameId hid
  exact List.inj_on_of_nodup_map (nodup_runs hstate) (hloaded state hstate snapshot hread hid)
    (hloaded state hstate other hother (hsameId ▸ hid)) hsameId

/-- **When the board depends only on the files**: exactly when each run that is shown has one
snapshot, whatever number of files. -/
theorem filesOnly_iff_oneSnapshotEach (out : Outside τ) (run : String → Option RunSnapshot)
    (event : String → Option RunEvent) (floats : Json.Floats) (fs : Node)
    (requestedRoot : List Component) (now : τ) :
    FilesOnly out (snapshotFormats run event floats) fs requestedRoot now ↔
      OneSnapshotEach (snapshotFormats run event floats) fs requestedRoot := by
  refine ⟨oneSnapshotEach_of_filesOnly, fun hone fs' hsame board board' hboard hboard' => ?_⟩
  rw [IsBoard] at hboard hboard'
  split at hboard
  · rename_i hfail
    split at hboard'
    · rw [hboard, hboard']
    · -- a load that fails does so from either tree
      rename_i state' hstate'
      obtain ⟨state, hstate, -⟩ := load_same hsame.symm hstate'
      rw [hfail] at hstate
      cases hstate
  · rename_i state hstate
    obtain ⟨runs, hruns, rfl⟩ := hboard
    obtain ⟨state', hstate', hevents, -, -⟩ := load_same hsame hstate
    rw [hstate'] at hboard'
    obtain ⟨runs', hruns', rfl⟩ := hboard'
    have hperm : runs'.Perm runs :=
      hruns'.trans ((perm_runs hone hsame hstate hstate').symm.trans hruns.symm)
    have hnodup : (runs.map RunSnapshot.runId).Nodup :=
      (hruns.map _).nodup_iff.2 (nodup_runs hstate)
    have hsorted :=
      @renderRuns_eq_of_perm _ _ out { state with runs := runs } now runs' hnodup hperm
    rw [renderRuns, renderRuns] at hsorted ⊢
    rw [hevents, hsorted]

/-- Snapshots of an id and a state. -/
def stateOnly : Formats RunSnapshot RunEvent :=
  snapshotFormats (fun text => do
    let value ← Json.fromStr ⟨fun _ => [], fun _ => none⟩ text
    let runId ← (textGet "run_id" value).bind Value.asStr
    return { beating with
      runId := runId
      state := (textGet "state" value).bind Value.asStr
      lastHeartbeat := none }) (fun _ => none) ⟨fun _ => [], fun _ => none⟩

/-- Two files of one run. -/
def twice : Node :=
  .dir [("runs", .dir [
    ("a.json", .file (some "\x7b\"run_id\":\"r\",\"state\":\"running\"\x7d")),
    ("b.json", .file (some "\x7b\"run_id\":\"r\",\"state\":\"done\"\x7d"))])]

/-- A run is shown as running or as done, by the order of its two files. -/
theorem not_filesOnly_twice : ¬ ∀ (τ : Type) (_ : LinearOrder τ) (out : Outside τ)
    (run : String → Option RunSnapshot) (event : String → Option RunEvent) (floats : Json.Floats)
    (fs : Node) (requestedRoot : List Component) (now : τ),
    FilesOnly out (snapshotFormats run event floats) fs requestedRoot now := by
  intro h
  have hone : OneSnapshotEach stateOnly twice [] :=
    oneSnapshotEach_of_filesOnly (h ℤ inferInstance epoch _ _ _ twice [] 0)
  have hload : (load stateOnly twice []).result.map ControlPlaneState.archivedRunIds = some [] := by
    decide +kernel
  obtain ⟨state, hstate, harchived⟩ := Option.map_eq_some_iff.1 hload
  have hread : (snapshotsRead stateOnly twice []).map
      (fun snapshot => (snapshot.runId, snapshot.state)) =
      [("r", some "running"), ("r", some "done")] := by decide +kernel
  obtain ⟨first, rest, hsnapshots, hfirst, hrest⟩ := List.map_eq_cons_iff.1 hread
  obtain ⟨second, _, rfl, hsecond, -⟩ := List.map_eq_cons_iff.1 hrest
  have hids : first.runId = second.runId :=
    (congrArg Prod.fst hfirst).trans (congrArg Prod.fst hsecond).symm
  have heq : first = second := hone state hstate first (by simp [hsnapshots]) second
    (by simp [hsnapshots]) hids (by simp [harchived])
  rw [heq, hsecond] at hfirst
  exact absurd hfirst (by decide)

end Board

end VcOperator
