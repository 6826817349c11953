import VcOperator.Board.Model.Archive
/-!
# What is loaded from a state root

On a state root that is a directory of its own the guard lets every file
through, and no load fails: the runs are those of the run files, and the
archived ids those of the markers.
-/

namespace VcOperator

namespace Board

variable {ρ ε α β : Type} {fs : Node} {root dir : List String}

@[simp] theorem Loading.result_pure (a : α) : (pure a : Loading α).result = some a := rfl

@[simp] theorem Loading.result_bind (x : Loading α) (f : α → Loading β) :
    (x >>= f).result = x.result.bind fun a => (f a).result := by
  simp only [bind]
  cases x.result <;> rfl

/-! ## Directories without links above them -/

/-- The guard lets an entry through that is no link. -/
theorem safeFile_entry (h : fs.Real dir) (hroot : root <+: dir) (name : String) :
    safeFile fs root (dir ++ [name]) =
      pure (match fs.lookup (dir ++ [name]) with
        | some n => if n.isLink then none else some (dir ++ [name])
        | none => none) := by
  obtain ⟨parent, hparent, hplink⟩ := h dir (List.prefix_refl _)
  rw [safeFile, Node.symlinkMetadata_entry h]
  cases hn : fs.lookup (dir ++ [name]) with
  | none => rfl
  | some n =>
    dsimp only
    cases hlink : n.isLink with
    | true => rfl
    | false =>
      have hreal : fs.Real (dir ++ [name]) := h.append hn hlink
      rw [if_neg Bool.false_ne_true, if_neg (List.append_ne_nil_of_right_ne_nil _ (by simp)),
        List.dropLast_concat, Node.symlinkMetadata_of_real h, hparent]
      dsimp only
      rw [hplink, if_neg Bool.false_ne_true, Node.canonicalize_of_real hreal]
      dsimp only
      rw [if_pos (hroot.trans (List.prefix_append _ _)), if_neg Bool.false_ne_true]

/-- What the loop over a directory does with a name. -/
def jsonEntry (dir : List String) (entries : List (String × Node)) (name : String) : Option Read :=
  if isJsonFile name then
    match entries.lookup name with
    | some n => if n.isLink then none else some ⟨dir ++ [name], dir ++ [name]⟩
    | none => none
  else none

theorem result_safeJsonFiles (h : fs.Real dir) (hroot : root <+: dir)
    {entries : List (String × Node)} (hdir : fs.lookup dir = some (.dir entries))
    (names : List String) :
    (safeJsonFiles fs root dir names).result =
      some (names.filterMap (jsonEntry dir entries)) := by
  induction names with
  | nil => rfl
  | cons name names ih =>
    rw [safeJsonFiles, List.filterMap_cons, jsonEntry]
    split_ifs with hjson
    · rw [safeFile_entry h hroot, Node.lookup_entry hdir]
      cases entries.lookup name with
      | none => exact ih
      | some n =>
        cases hlink : n.isLink with
        | true => simpa [hlink] using ih
        | false => simp [hlink, ih]
    · exact ih

/-- **The JSON files of a directory.** -/
theorem result_jsonFiles (h : fs.Real dir) (hroot : root <+: dir)
    {entries : List (String × Node)} (hdir : fs.lookup dir = some (.dir entries)) :
    (jsonFiles fs root dir).result =
      some ((entries.map Prod.fst).filterMap (jsonEntry dir entries)) := by
  rw [jsonFiles, Node.pathExists, Node.canonicalize_of_real h, if_pos Option.isSome_some,
    Node.readDir, Node.metadata_of_real h, hdir]
  exact result_safeJsonFiles h hroot hdir _

/-- The text of an entry. -/
def entryText (entries : List (String × Node)) (name : String) : Option String :=
  match entries.lookup name with
  | some (.file text) => text
  | _ => none

/-- A file that the loop lets through has the text of its entry. -/
theorem readToString_entry (h : fs.Real dir) {entries : List (String × Node)}
    (hdir : fs.lookup dir = some (.dir entries)) {name : String} {file : Read}
    (hfile : jsonEntry dir entries name = some file) :
    fs.readToString (Node.names file.path) = entryText entries name ∧
      file.path.getLastD "" = name := by
  rw [jsonEntry] at hfile
  split_ifs at hfile
  cases hn : entries.lookup name with
  | none => rw [hn] at hfile; cases hfile
  | some n =>
    rw [hn] at hfile
    dsimp only at hfile
    split_ifs at hfile with hlink
    obtain rfl := Option.some.inj hfile
    have hlookup : fs.lookup (dir ++ [name]) = some n := (Node.lookup_entry hdir name).trans hn
    have hreal : fs.Real (dir ++ [name]) := h.append hlookup (by simpa using hlink)
    refine ⟨?_, by simp [List.getLastD_eq_getLast?]⟩
    cases n <;>
      simp only [Node.readToString, Node.metadata_of_real hreal, hlookup, entryText, hn]

/-- What becomes of a name: of a file that is JSON by its name, something of its text. -/
theorem jsonEntry_bind (h : fs.Real dir) {entries : List (String × Node)}
    (hdir : fs.lookup dir = some (.dir entries)) {f : String → Option String → Option β}
    (hf : ∀ name, f name none = none) (name : String) :
    ((jsonEntry dir entries name).bind fun file =>
        f (file.path.getLastD "") (fs.readToString (Node.names file.path))) =
      if isJsonFile name then f name (entryText entries name) else none := by
  cases hentry : jsonEntry dir entries name with
  | some file =>
    obtain ⟨htext, hname⟩ := readToString_entry h hdir hentry
    have hjson : isJsonFile name = true := by
      by_contra hnot
      rw [jsonEntry, if_neg hnot] at hentry
      cases hentry
    rw [Option.bind_some, htext, hname, if_pos hjson]
  | none =>
    split_ifs with hjson
    · have htext : entryText entries name = none := by
        rw [jsonEntry, if_pos hjson] at hentry
        rw [entryText]
        cases hn : entries.lookup name with
        | none => rfl
        | some n =>
          rw [hn] at hentry
          cases n with
          | file text => cases hentry
          | link absolute target => rfl
          | dir entries => rfl
      rw [htext, hf]
      rfl
    · rfl

/-! ## The state root -/

/-- The root and its `runs` are directories. -/
theorem Disk.real_root (d : Disk) : d.tree.Real [] := Node.real_nil rfl

theorem Disk.lookup_runs (d : Disk) : d.tree.lookup ["runs"] = some (.dir d.runEntries) := by
  simp [Disk.tree, Node.lookup]

theorem Disk.real_runs (d : Disk) : d.tree.Real ["runs"] := d.real_root.append d.lookup_runs rfl

/-- The runs of a list of files: of two with one id the later counts. -/
def runMap (formats : Formats ρ ε) (runs : List ρ) (snapshots : HashMap String ρ) :
    HashMap String ρ :=
  runs.foldl (fun snapshots run => snapshots.insert (formats.runId run) run) snapshots

theorem result_insertRuns (formats : Formats ρ ε) (fs : Node) (files : List Read)
    (snapshots : HashMap String ρ) :
    (insertRuns formats fs files snapshots).result =
      some (runMap formats (files.filterMap fun file =>
        (fs.readToString (Node.names file.path)).bind formats.run) snapshots) := by
  induction files generalizing snapshots with
  | nil => rfl
  | cons file files ih =>
    rw [insertRuns, Loading.result_bind, readToString, Option.bind_some, List.filterMap_cons]
    cases (fs.readToString (Node.names file.path)).bind formats.run with
    | none => exact ih snapshots
    | some run => exact ih _

/-- The runs of the entries of `runs`. -/
def runsOf (formats : Formats ρ ε) (runs : List (String × Node)) : List ρ :=
  (runs.map Prod.fst).filterMap fun name =>
    if isJsonFile name then (entryText runs name).bind formats.run else none

theorem Disk.entryText_runEntries (d : Disk) {name : String} (h : isJsonFile name = true) :
    entryText d.runEntries name = entryText d.runs name := by
  rw [entryText, entryText, Disk.runEntries]
  cases d.markers with
  | none => rfl
  | some markers =>
    have hne : (name == ".archived") = false := by
      rw [beq_eq_false_iff_ne]
      rintro rfl
      revert h
      decide
    rw [List.lookup_cons, hne]

/-- **The runs of the run files**, whatever markers there are. -/
theorem Disk.result_loadRuns (formats : Formats ρ ε) (d : Disk) :
    (loadRuns formats d.tree []).result =
      some (runMap formats (runsOf formats d.runs) ∅).values := by
  have hruns : ((d.runEntries.map Prod.fst).filterMap (jsonEntry ["runs"] d.runEntries)).filterMap
      (fun file => (d.tree.readToString (Node.names file.path)).bind formats.run) =
      runsOf formats d.runs := by
    have hname : ∀ name, ((jsonEntry ["runs"] d.runEntries name).bind fun file =>
        (d.tree.readToString (Node.names file.path)).bind formats.run) =
        if isJsonFile name then (entryText d.runs name).bind formats.run else none := by
      intro name
      rw [jsonEntry_bind (f := fun _ text => text.bind formats.run) d.real_runs d.lookup_runs
        fun _ => rfl]
      split_ifs with hjson
      · rw [d.entryText_runEntries hjson]
      · rfl
    rw [List.filterMap_filterMap, funext hname, runsOf, Disk.runEntries]
    cases d.markers with
    | none => rfl
    | some markers =>
      exact List.filterMap_cons_none (if_neg (by decide : ¬ isJsonFile ".archived" = true))
  have hfiles : (runSnapshotFiles d.tree []).result =
      some ((d.runEntries.map Prod.fst).filterMap (jsonEntry ["runs"] d.runEntries)) :=
    result_jsonFiles d.real_runs List.nil_prefix d.lookup_runs
  rw [loadRuns, Loading.result_bind, hfiles, Option.bind_some, Loading.result_bind,
    result_insertRuns, hruns]
  rfl

/-! ## The markers -/

/-- The ids of a list of markers. -/
def insertIds (ids archived : List String) : List String :=
  ids.foldl (fun archived id => archived.insert id) archived

theorem mem_insertIds {ids archived : List String} {id : String} :
    id ∈ insertIds ids archived ↔ id ∈ archived ∨ id ∈ ids := by
  induction ids generalizing archived with
  | nil => simp [insertIds]
  | cons next ids ih =>
    have hstep : insertIds (next :: ids) archived = insertIds ids (archived.insert next) := rfl
    rw [hstep, ih, List.mem_insert_iff, List.mem_cons]
    tauto

theorem result_insertMarkers (floats : Json.Floats) (fs : Node) (files : List Read)
    (archived : List String) :
    (insertMarkers floats fs files archived).result =
      some (insertIds (files.filterMap fun file =>
        archivedIdFromMarker floats (file.path.getLastD "")
          (fs.readToString (Node.names file.path))) archived) := by
  induction files generalizing archived with
  | nil => rfl
  | cons file files ih =>
    rw [insertMarkers, Loading.result_bind, readToString, Option.bind_some, List.filterMap_cons]
    cases archivedIdFromMarker floats (file.path.getLastD "")
        (fs.readToString (Node.names file.path)) with
    | none => exact ih archived
    | some id => exact ih _

/-- The markers of a state root. -/
def Disk.markerFiles (d : Disk) : List (String × String) := d.markers.getD []

/-- The archived ids of the markers. -/
def markerIds (floats : Json.Floats) (markers : List (String × String)) : List String :=
  (markers.map Prod.fst).filterMap fun name =>
    if isJsonFile name then archivedIdFromMarker floats name (markers.lookup name) else none

/-- The entries of a directory of texts. -/
def textEntries (files : List (String × String)) : List (String × Node) :=
  files.map fun file => (file.1, .file (some file.2))

theorem entryText_textEntries (files : List (String × String)) (name : String) :
    entryText (textEntries files) name = files.lookup name := by
  induction files with
  | nil => rfl
  | cons file files ih =>
    obtain ⟨next, text⟩ := file
    rw [entryText, textEntries, List.map_cons, List.lookup_cons, List.lookup_cons]
    cases name == next with
    | true => rfl
    | false => exact ih

theorem keys_textEntries (files : List (String × String)) :
    (textEntries files).map Prod.fst = files.map Prod.fst := by
  rw [textEntries, List.map_map]
  rfl

/-- Without markers there is no `.archived`. -/
theorem Disk.pathExists_archived {d : Disk} (h : d.markers = none) :
    d.tree.pathExists (Node.names ["runs", ".archived"]) = false := by
  have hnone : d.tree.lookup ["runs", ".archived"] = none := by
    have hentry := Node.lookup_entry d.lookup_runs ".archived"
    rw [runEntries, h] at hentry
    exact hentry.trans d.no_archived
  simp [Node.pathExists, Node.canonicalize, Node.linkLimit, Node.resolve, Node.names, Node.walk,
    d.lookup_runs, hnone]

/-- With them it is a directory. -/
theorem Disk.lookup_archived {d : Disk} {markers : List (String × String)}
    (h : d.markers = some markers) :
    d.tree.lookup ["runs", ".archived"] = some (.dir (textEntries markers)) := by
  have hentry := Node.lookup_entry d.lookup_runs ".archived"
  rw [runEntries, h] at hentry
  exact hentry

/-- **The archived ids are those of the markers.** -/
theorem Disk.result_loadArchivedRunIds (floats : Json.Floats) (d : Disk) :
    (loadArchivedRunIds floats d.tree []).result =
      some (insertIds (markerIds floats d.markerFiles) []) := by
  rw [loadArchivedRunIds, Loading.result_bind, markerFiles]
  cases hmarkers : d.markers with
  | none =>
    have hfiles : archivedMarkerFiles d.tree [] = pure [] := by
      rw [archivedMarkerFiles, jsonFiles]
      exact if_neg (by rw [Bool.not_eq_true]; exact d.pathExists_archived hmarkers)
    rw [hfiles]
    rfl
  | some markers =>
    have hlookup := d.lookup_archived hmarkers
    have hreal : d.tree.Real ["runs", ".archived"] := d.real_runs.append hlookup rfl
    have hfiles : (archivedMarkerFiles d.tree []).result =
        some (((textEntries markers).map Prod.fst).filterMap
          (jsonEntry ["runs", ".archived"] (textEntries markers))) :=
      result_jsonFiles hreal List.nil_prefix hlookup
    rw [hfiles, Option.bind_some, result_insertMarkers, List.filterMap_filterMap,
      funext (jsonEntry_bind (f := archivedIdFromMarker floats) hreal hlookup fun _ => rfl),
      keys_textEntries]
    simp only [entryText_textEntries]
    rfl

/-! ## What is shown -/

/-- The events never keep a state root from being loaded. -/
theorem Disk.exists_result_loadEvents (formats : Formats ρ ε) (d : Disk) :
    ∃ events, (loadEvents formats d.tree []).result = some events := by
  have hfile : safeFile d.tree [] (eventStreamPath []) = _ :=
    safeFile_entry d.real_root List.nil_prefix "events.jsonl"
  rw [loadEvents, Loading.result_bind, hfile, Loading.result_pure, Option.bind_some]
  split
  · exact ⟨_, rfl⟩
  · rw [Loading.result_bind, readToString, Option.bind_some]
    split <;> exact ⟨_, rfl⟩

/-- **What is shown** of a state root: the runs whose ids no marker has. -/
theorem shown_eq (formats : Formats ρ ε) (d : Disk) :
    shown formats d =
      (allRuns formats d).filter (· ∉ insertIds (markerIds formats.floats d.markerFiles) []) := by
  have hroot : safeRoot d.tree [] = some [] := by
    have hcanonical : d.tree.canonicalize [] = some [] := Node.canonicalize_of_real d.real_root
    rw [safeRoot, hcanonical]
    rfl
  obtain ⟨events, hevents⟩ := d.exists_result_loadEvents formats
  rw [shown, allRuns, load, hroot]
  simp only [Loading.result_bind, d.result_loadArchivedRunIds, d.result_loadRuns, hevents,
    Option.bind_some, Loading.result_pure]
  rw [List.filter_map]
  rfl

theorem mem_shown_iff {formats : Formats ρ ε} {d : Disk} {id : String} :
    id ∈ shown formats d ↔
      id ∈ allRuns formats d ∧ id ∉ markerIds formats.floats d.markerFiles := by
  rw [shown_eq, List.mem_filter, decide_eq_true_eq, mem_insertIds]
  simp

/-- The run files decide which runs there are. -/
theorem allRuns_congr {formats : Formats ρ ε} {d d' : Disk} (h : d'.toRunFiles = d.toRunFiles) :
    allRuns formats d' = allRuns formats d := by
  rw [allRuns, allRuns, d.result_loadRuns, d'.result_loadRuns, h]

end Board

end VcOperator
