import VcOperator.Common.Run
import VcOperator.Json.RoundTrip
import VcOperator.Board.Helpers.Contents
/-!
# Which runs are hidden

The file name of a marker is an image of the run's id, and two ids may have
one image: then the second marker replaces the first, and the first run is
shown again. The id that is empty has a marker that is not read. Apart from
these, archiving is exact and permanent.
-/

namespace VcOperator

namespace Board

variable {ρ ε : Type} {formats : Formats ρ ε} {accepts : String → Bool} {s s' : App}
  {l : BoardStep}

/-- **The runs that are hidden are those that were archived.** -/
def Exact (formats : Formats ρ ε) (s : App) : Prop :=
  ∀ id, (id ∈ allRuns formats s.disk ∧ id ∉ shown formats s.disk) ↔ id ∈ s.archived

/-- **The id is not empty, and its marker has a name of its own** among the runs that were
archived, if the file system accepts the name. -/
def keepsExact (accepts : String → Bool) (s : App) : BoardStep → Bool
  | .refresh => true
  | .archive runId _ =>
    !accepts (markerName runId) ||
      runId ≠ "" && s.archived.all fun other =>
        other = runId || markerName other ≠ markerName runId

/-! ## One marker -/

/-- The name of a marker is that of a JSON file, but for the empty id. -/
theorem isJsonFile_markerName (runId : String) :
    isJsonFile (markerName runId) = true ↔ runId ≠ "" := by
  rcases eq_or_ne runId "" with rfl | hne
  · decide
  have hempty : safeMarkerName runId ≠ "" := by
    rw [safeMarkerName, ne_eq, ← String.toList_inj, String.toList_ofList]
    simpa using hne
  have hsplit : rsplitDot (markerName runId) = (some (safeMarkerName runId), "json") := by
    have hrev : (markerName runId).toList.reverse =
        'n' :: 'o' :: 's' :: 'j' :: '.' :: (safeMarkerName runId).toList.reverse := by
      simp [markerName, String.toList_append]
    rw [rsplitDot, hrev]
    simp [List.dropWhile, List.takeWhile]
  have hdots : markerName runId ≠ ".." := by
    intro h
    have hlen := congrArg (fun name => name.toList.length) h
    simp [markerName, String.toList_append] at hlen
  rw [isJsonFile, extension, if_neg hdots, hsplit]
  simp [hempty, hne]

/-- **A marker is read as the id it was written for**, whatever its name. -/
theorem archivedIdFromMarker_markerText (floats : Json.Floats) (name runId archivedAt : String) :
    archivedIdFromMarker floats name (some (markerText floats runId archivedAt)) = some runId := by
  have hread : Json.fromStr floats (markerText floats runId archivedAt) =
      some (marker runId archivedAt) := Json.fromStr_toVecPretty rfl
  rw [archivedIdFromMarker, hread]
  rfl

/-! ## The markers of a directory -/

/-- A file of a name of its own is the one that is looked up. -/
theorem lookup_of_mem {files : List (String × String)} (hkeys : (files.map Prod.fst).Nodup)
    {file : String × String} (h : file ∈ files) : files.lookup file.1 = some file.2 := by
  induction files with
  | nil => cases h
  | cons next files ih =>
    rw [List.map_cons, List.nodup_cons] at hkeys
    rw [List.lookup_cons]
    rcases List.mem_cons.1 h with rfl | h
    · simp
    · have hne : (file.1 == next.1) = false := by
        rw [beq_eq_false_iff_ne]
        intro heq
        exact hkeys.1 (List.mem_map.2 ⟨file, h, heq⟩)
      rw [hne]
      exact ih hkeys.2 h

theorem mem_markerIds_iff {floats : Json.Floats} {files : List (String × String)} {id : String}
    (hkeys : (files.map Prod.fst).Nodup) :
    id ∈ markerIds floats files ↔ ∃ file ∈ files, isJsonFile file.1 = true ∧
      archivedIdFromMarker floats file.1 (some file.2) = some id := by
  rw [markerIds, List.mem_filterMap]
  constructor
  · rintro ⟨name, hname, hid⟩
    obtain ⟨file, hfile, rfl⟩ := List.mem_map.1 hname
    rw [lookup_of_mem hkeys hfile] at hid
    split_ifs at hid with hjson
    exact ⟨file, hfile, hjson, hid⟩
  · rintro ⟨file, hfile, hjson, hid⟩
    refine ⟨file.1, List.mem_map.2 ⟨file, hfile, rfl⟩, ?_⟩
    rw [if_pos hjson, lookup_of_mem hkeys hfile, hid]

/-! ## One step -/

/-- **What is known while archiving is exact**: there is one marker for each run that was
archived. -/
structure Kept (formats : Formats ρ ε) (s : App) : Prop where
  runs : s.runs = shown formats s.disk
  keys : (s.disk.markerFiles.map Prod.fst).Nodup
  marks : ∀ file ∈ s.disk.markerFiles, ∃ id ∈ s.archived, ∃ archivedAt,
    file = (markerName id, markerText formats.floats id archivedAt)
  marked : ∀ id ∈ s.archived, ∃ archivedAt,
    (markerName id, markerText formats.floats id archivedAt) ∈ s.disk.markerFiles
  proper : ∀ id ∈ s.archived, id ≠ "" ∧ id ∈ allRuns formats s.disk

theorem kept_start (formats : Formats ρ ε) (files : RunFiles) (archivedDir : Bool) :
    Kept formats (.start formats files archivedDir) := by
  have hnil : (App.start formats files archivedDir).disk.markerFiles = [] := by
    cases archivedDir <;> rfl
  exact
    { runs := rfl
      keys := by rw [hnil]; exact List.nodup_nil
      marks := by rw [hnil]; nofun
      marked := nofun
      proper := nofun }

/-- An id that was archived is that of a marker, and no other is. -/
theorem Kept.mem_markerIds_iff (h : Kept formats s) {id : String} :
    id ∈ markerIds formats.floats s.disk.markerFiles ↔ id ∈ s.archived := by
  rw [Board.mem_markerIds_iff h.keys]
  constructor
  · rintro ⟨file, hfile, -, hid⟩
    obtain ⟨other, hother, archivedAt, rfl⟩ := h.marks file hfile
    rw [archivedIdFromMarker_markerText, Option.some.injEq] at hid
    exact hid ▸ hother
  · intro hid
    obtain ⟨archivedAt, hfile⟩ := h.marked id hid
    exact ⟨_, hfile, (isJsonFile_markerName id).2 (h.proper id hid).1,
      archivedIdFromMarker_markerText ..⟩

theorem Kept.exact (h : Kept formats s) : Exact formats s := by
  intro id
  rw [mem_shown_iff, h.mem_markerIds_iff]
  constructor
  · rintro ⟨hall, hnot⟩
    by_contra hid
    exact hnot ⟨hall, hid⟩
  · intro hid
    exact ⟨(h.proper id hid).2, fun hshown => hshown.2 hid⟩

/-- The state after a marker was written. -/
def App.archivedAs (formats : Formats ρ ε) (runId archivedAt : String) (s : App) : App :=
  App.refresh formats
    { s with
      disk := s.disk.createArchivedDir.writeMarker (markerName runId)
        (markerText formats.floats runId archivedAt)
      archived := s.archived ++ [runId] }

theorem markerFiles_archivedAs (formats : Formats ρ ε) (runId archivedAt : String) (s : App) :
    (s.archivedAs formats runId archivedAt).disk.markerFiles =
      s.disk.markerFiles.filter (fun file => file.1 ≠ markerName runId) ++
        [(markerName runId, markerText formats.floats runId archivedAt)] := rfl

theorem allRuns_archivedAs (formats : Formats ρ ε) (runId archivedAt : String) (s : App) :
    allRuns formats (s.archivedAs formats runId archivedAt).disk = allRuns formats s.disk :=
  allRuns_congr rfl

theorem keys_archivedAs (formats : Formats ρ ε) (runId archivedAt : String)
    (h : (s.disk.markerFiles.map Prod.fst).Nodup) :
    ((s.archivedAs formats runId archivedAt).disk.markerFiles.map Prod.fst).Nodup := by
  rw [markerFiles_archivedAs, List.map_append, List.nodup_append]
  refine ⟨h.sublist (List.filter_sublist.map _), List.nodup_singleton _, ?_⟩
  rintro name hname _ hlast rfl
  obtain ⟨file, hfile, rfl⟩ := List.mem_map.1 hname
  exact of_decide_eq_true (List.mem_filter.1 hfile).2 (List.mem_singleton.1 hlast)

/-- **A marker with a name of its own is one more.** -/
theorem Kept.archivedAs (h : Kept formats s) {runId : String} (hrun : runId ∈ s.runs)
    (hne : runId ≠ "")
    (hown : ∀ other ∈ s.archived, other = runId ∨ markerName other ≠ markerName runId)
    (archivedAt : String) : Kept formats (s.archivedAs formats runId archivedAt) where
  runs := rfl
  keys := keys_archivedAs formats runId archivedAt h.keys
  marks file hfile := by
    rw [markerFiles_archivedAs, List.mem_append] at hfile
    rcases hfile with hfile | hfile
    · obtain ⟨id, hid, at', rfl⟩ := h.marks file (List.mem_filter.1 hfile).1
      exact ⟨id, List.mem_append_left _ hid, at', rfl⟩
    · exact ⟨runId, List.mem_append_right _ (List.mem_singleton_self _), archivedAt,
        List.mem_singleton.1 hfile⟩
  marked id hid := by
    rw [markerFiles_archivedAs]
    by_cases heq : id = runId
    · exact ⟨archivedAt, List.mem_append_right _ (heq ▸ List.mem_singleton_self _)⟩
    · rcases List.mem_append.1 hid with hid | hid
      · obtain ⟨at', hfile⟩ := h.marked id hid
        refine ⟨at', List.mem_append_left _ (List.mem_filter.2 ⟨hfile, ?_⟩)⟩
        exact decide_eq_true ((hown id hid).resolve_left heq)
      · exact absurd (List.mem_singleton.1 hid) heq
  proper id hid := by
    rw [allRuns_archivedAs]
    rcases List.mem_append.1 hid with hid | hid
    · exact h.proper id hid
    · obtain rfl := List.mem_singleton.1 hid
      rw [h.runs, mem_shown_iff] at hrun
      exact ⟨hne, hrun.1⟩

/-- **A run that keeps its marker stays hidden**: the marker of another name is not
replaced. -/
theorem Kept.of_exact_archivedAs (h : Kept formats s) {runId archivedAt : String}
    (hexact : Exact formats (s.archivedAs formats runId archivedAt)) :
    runId ≠ "" ∧ ∀ other ∈ s.archived, other = runId ∨ markerName other ≠ markerName runId := by
  -- an id that was archived is read from a marker that is there
  have hmarker : ∀ id ∈ s.archived ++ [runId],
      ∃ file ∈ (s.archivedAs formats runId archivedAt).disk.markerFiles,
        isJsonFile file.1 = true ∧
          archivedIdFromMarker formats.floats file.1 (some file.2) = some id := by
    intro id hid
    obtain ⟨hall, hshown⟩ := (hexact id).2 hid
    rw [← Board.mem_markerIds_iff (keys_archivedAs formats runId archivedAt h.keys)]
    by_contra hnot
    exact hshown (mem_shown_iff.2 ⟨hall, hnot⟩)
  constructor
  · rintro rfl
    obtain ⟨file, hfile, hjson, hid⟩ := hmarker "" (by simp)
    rw [markerFiles_archivedAs, List.mem_append] at hfile
    rcases hfile with hfile | hfile
    · obtain ⟨id, hid', at', rfl⟩ := h.marks file (List.mem_filter.1 hfile).1
      rw [archivedIdFromMarker_markerText, Option.some.injEq] at hid
      exact (h.proper id hid').1 hid
    · obtain rfl := List.mem_singleton.1 hfile
      exact (isJsonFile_markerName "").1 hjson rfl
  · intro other hother
    obtain ⟨file, hfile, -, hid⟩ := hmarker other (List.mem_append_left _ hother)
    rw [markerFiles_archivedAs, List.mem_append] at hfile
    rcases hfile with hfile | hfile
    · obtain ⟨hfile, hname⟩ := List.mem_filter.1 hfile
      obtain ⟨id, -, at', rfl⟩ := h.marks file hfile
      rw [archivedIdFromMarker_markerText, Option.some.injEq] at hid
      exact .inr (hid ▸ of_decide_eq_true hname)
    · obtain rfl := List.mem_singleton.1 hfile
      rw [archivedIdFromMarker_markerText, Option.some.injEq] at hid
      exact .inl hid.symm

/-- Neither a refresh nor a marker that is refused changes what is hidden. -/
theorem Kept.of_markerFiles {t : App} (h : Kept formats s)
    (hfiles : t.disk.toRunFiles = s.disk.toRunFiles)
    (hmarkers : t.disk.markerFiles = s.disk.markerFiles) (harchived : t.archived = s.archived)
    (hruns : t.runs = shown formats t.disk) : Kept formats t where
  runs := hruns
  keys := hmarkers ▸ h.keys
  marks := by rw [hmarkers, harchived]; exact h.marks
  marked := by rw [hmarkers, harchived]; exact h.marked
  proper := by rw [harchived, allRuns_congr hfiles]; exact h.proper

theorem Kept.step (hok : keepsExact accepts s l = true) (h : Kept formats s)
    (hs : boardStep formats accepts s l = some s') : Kept formats s' := by
  cases l with
  | refresh =>
    obtain rfl := Option.some.inj hs
    exact h.of_markerFiles rfl rfl rfl rfl
  | archive runId archivedAt =>
    rw [boardStep] at hs
    split_ifs at hs with hrun
    obtain rfl := Option.some.inj hs
    rw [App.archiveSelectedRun]
    cases hacc : accepts (markerName runId) with
    | true =>
      simp only [keepsExact, hacc, Bool.not_true, Bool.false_or, Bool.and_eq_true,
        decide_eq_true_eq, List.all_eq_true, Bool.or_eq_true] at hok
      exact h.archivedAs hrun hok.1 hok.2 archivedAt
    | false =>
      have hmarkers : s.disk.createArchivedDir.markerFiles = s.disk.markerFiles := by
        rw [Disk.createArchivedDir, Disk.markerFiles, Disk.markerFiles]
        cases s.disk.markers <;> rfl
      have hshown : shown formats s.disk.createArchivedDir = shown formats s.disk := by
        rw [shown_eq, shown_eq, hmarkers,
          allRuns_congr (show s.disk.createArchivedDir.toRunFiles = s.disk.toRunFiles from rfl)]
      exact h.of_markerFiles rfl hmarkers rfl (h.runs.trans hshown.symm)

theorem Kept.keepsExact (h : Kept formats s) (hs : boardStep formats accepts s l = some s')
    (hexact : Exact formats s') : keepsExact accepts s l = true := by
  cases l with
  | refresh => rfl
  | archive runId archivedAt =>
    rw [boardStep] at hs
    split_ifs at hs with hrun
    obtain rfl := Option.some.inj hs
    rw [App.archiveSelectedRun] at hexact
    cases hacc : accepts (markerName runId) with
    | true =>
      rw [if_pos hacc] at hexact
      obtain ⟨hne, hown⟩ := h.of_exact_archivedAs hexact
      simpa [Board.keepsExact, hacc, hne] using hown
    | false => simp [Board.keepsExact, hacc]

/-! ## Whole runs -/

/-- **When archiving is exact and permanent**: the runs that are hidden are those that were
archived, all along a run of the operator's view, exactly as long as each
marker that is written is that of an id that is not empty and whose marker
name no other archived run has. -/
theorem exact_iff_keepsExact (formats : Formats ρ ε) (accepts : String → Bool)
    (files : RunFiles) (archivedDir : Bool) {ls : List BoardStep} {s : App}
    (hexec : Run.exec (boardStep formats accepts) (.start formats files archivedDir) ls = some s) :
    Run.Always (boardStep formats accepts) (Exact formats) (.start formats files archivedDir) ls ↔
      Run.meets (boardStep formats accepts) (keepsExact accepts)
        (.start formats files archivedDir) ls = true :=
  Run.always_iff_meets_of (fun _ h => h.exact) (fun _ _ _ hok h hs => h.step hok hs)
    (fun _ _ _ h hs hexact => h.keepsExact hs hexact) (kept_start formats files archivedDir) hexec

/-- Run files that hold nothing but the ids of their runs. -/
def idsOnly : Formats String Empty where
  run text := ((Json.fromStr ⟨fun _ => [], fun _ => none⟩ text).bind (textGet "run_id")).bind
    Value.asStr
  runId := id
  event _ := none
  floats := ⟨fun _ => [], fun _ => none⟩

/-- Two runs whose markers have one name. -/
def slashed : RunFiles where
  entries := []
  runs := [
    ("1.json", .file (some "\x7b\"run_id\":\"a/b\"\x7d")),
    ("2.json", .file (some "\x7b\"run_id\":\"a_b\"\x7d"))]
  no_archived := by decide

theorem exact_iff_keepsExact_slashed :
    Run.Always (boardStep idsOnly fun _ => true) (Exact idsOnly) (.start idsOnly slashed false)
        [.archive "a/b" "1970-01-01T00:00:00+00:00", .refresh] ↔
      Run.meets (boardStep idsOnly fun _ => true) (keepsExact fun _ => true)
        (.start idsOnly slashed false)
        [.archive "a/b" "1970-01-01T00:00:00+00:00", .refresh] = true := by
  obtain ⟨s, hs⟩ : ∃ s, Run.exec (boardStep idsOnly fun _ => true) (.start idsOnly slashed false)
      [.archive "a/b" "1970-01-01T00:00:00+00:00", .refresh] = some s :=
    Option.isSome_iff_exists.1 (by decide +kernel)
  exact exact_iff_keepsExact idsOnly (fun _ => true) slashed false hs

/-- Archiving `a_b` shows the archived `a/b` again. -/
theorem not_exact_slashed :
    ¬ ∀ (files : RunFiles) (archivedDir : Bool) (ls : List BoardStep) (s : App),
      Run.exec (boardStep idsOnly fun _ => true) (.start idsOnly files archivedDir) ls = some s →
        Exact idsOnly s := by
  intro h
  have hrun : (Run.exec (boardStep idsOnly fun _ => true) (.start idsOnly slashed false)
      [.archive "a/b" "1970-01-01T00:00:00+00:00", .archive "a_b" "1970-01-01T00:00:01+00:00"]).map
      (fun s => decide ("a/b" ∈ s.archived ∧ "a/b" ∈ shown idsOnly s.disk)) = some true := by
    decide +kernel
  obtain ⟨s, hs, hback⟩ := Option.map_eq_some_iff.1 hrun
  obtain ⟨harchived, hshown⟩ := of_decide_eq_true hback
  exact ((h slashed false _ s hs "a/b").2 harchived).2 hshown

end Board

end VcOperator
