import Mathlib.Data.List.ReduceOption
import VcOperator.Console.Cursors
import VcOperator.Console.Model.Viewer
import VcOperator.Polarize.Prisms
/-!
# What the viewer shows

The viewer opens on Enter only, on an action of the selected run or on a
prism, and then shows what was read at that moment. Whatever the links of
the tree, that lies below the root of the run that was selected, or is the
payload of a prism.
-/

namespace VcOperator

namespace Console

open Board (Outside)
open Launch (DeepAction)
open Node (names)

/-! ## What is read -/

section Read

variable {fs : Node} {cwd : List String} {osError : OsString → String} {path : OsString}
  {runRoot : Option String} {lines : List String} {place : List String}

/-- The lines of a node. -/
def Content : Node → List String → Prop
  | .dir entries, lines => lines = directoryRows entries
  | .file (some text), lines => lines = firstLines text
  | _, _ => False

/-- **What `safe_artifact_path` lets through**: no link, and nothing outside the root of the
run. -/
theorem of_safeArtifactPath (h : safeArtifactPath fs cwd osError path runRoot = .ok place) :
    (∃ n, (RawPath.ofOs cwd path).bind (symlinkMetadata fs) = some n ∧ n.isLink = false) ∧
      (RawPath.ofOs cwd path).bind (canonicalize fs) = some place ∧
      ∃ text root, runRoot = some text ∧
        (RawPath.ofText cwd text).bind (canonicalize fs) = some root ∧ root <+: place := by
  unfold safeArtifactPath at h
  split at h
  · cases h
  · cases h
  · rename_i n hnolink hmeta
    split at h
    · cases h
    · rename_i canonical hcanonical
      split at h
      · cases h
      · rename_i text htext
        split at h
        · cases h
        · rename_i root hroot
          split_ifs at h with hprefix
          cases h
          refine ⟨⟨n, hmeta, ?_⟩, hcanonical, text, root, ?_, hroot,
            List.isPrefixOf_iff_prefix.1 hprefix⟩
          · cases n with
            | link absolute target => exact absurd rfl (hnolink absolute target)
            | file _ | dir _ => rfl
          · exact (Option.filter_eq_some_iff.1 htext).1

theorem real_of_canonicalize {raw : RawPath} (hfs : fs.isLink = false)
    (h : canonicalize fs raw = some place) : fs.Real place :=
  Node.canonicalize_real hfs (Option.filter_eq_some_iff.1 h).1

/-- What is read at a list of names is below a root that is no link. -/
theorem isLink_of_metadata {n : Node} (h : fs.metadata (names place) = some n)
    (hn : n.isLink = false) : fs.isLink = false := by
  obtain ⟨place', -, hlookup⟩ := Option.bind_eq_some_iff.1 h
  exact Node.isLink_of_lookup hlookup hn

/-- **What `artifact_lines` reads** is at a place below the root of the run, that no link leads
out of. -/
structure Artifact (fs : Node) (cwd : List String) (path : OsString) (runRoot : Option String)
    (lines : List String) (root place : List String) : Prop where
  isRoot : ∃ text, runRoot = some text ∧
    (RawPath.ofText cwd text).bind (canonicalize fs) = some root
  isPlace : (RawPath.ofOs cwd path).bind (canonicalize fs) = some place
  within : root <+: place
  real : fs.Real place
  content : ∃ n, fs.lookup place = some n ∧ Content n lines

theorem artifact_of_artifactLines
    (h : artifactLines fs cwd osError path runRoot = .ok lines) :
    ∃ root place, Artifact fs cwd path runRoot lines root place := by
  unfold artifactLines at h
  split at h
  · cases h
  · rename_i place hsafe
    obtain ⟨-, hplace, text, root, htext, hroot, hwithin⟩ := of_safeArtifactPath hsafe
    obtain ⟨raw, -, hcanonical⟩ := Option.bind_eq_some_iff.1 hplace
    have hartifact {n : Node} (hmeta : fs.metadata (names place) = some n)
        (hn : n.isLink = false) (hcontent : Content n lines) :
        Artifact fs cwd path runRoot lines root place := by
      have hreal := real_of_canonicalize (isLink_of_metadata hmeta hn) hcanonical
      rw [Node.metadata_of_real hreal] at hmeta
      exact ⟨⟨text, htext, hroot⟩, hplace, hwithin, hreal, n, hmeta, hcontent⟩
    split at h
    · rename_i entries hmeta
      cases h
      exact ⟨root, place, hartifact hmeta rfl rfl⟩
    · rename_i content hmeta
      cases h
      exact ⟨root, place, hartifact hmeta rfl rfl⟩
    · cases h

/-- **What is read as a prism** is the payload of one, that is no link. -/
structure Prism (fs : Node) (cwd : List String) (path : OsString) (lines : List String)
    (place : List String) : Prop where
  isPlace : (RawPath.ofOs cwd path).bind (canonicalize fs) = some place
  name : place.getLast? = some "prism.json"
  polarize : Polarize.isPolarizePrism place = true
  real : fs.Real place
  content : ∃ text, fs.lookup place = some (.file (some text)) ∧ lines = firstLines text

theorem prism_of_prismPreviewLines {raw : RawPath} (hraw : RawPath.ofOs cwd path = some raw)
    (hdir : raw.isDir = false) (h : Polarize.prismPreviewLines fs raw.components = some lines) :
    ∃ place, Prism fs cwd path lines place := by
  obtain ⟨place, hplace, hrest⟩ := Option.bind_eq_some_iff.1 h
  obtain ⟨text, htext, hlines⟩ := Option.bind_eq_some_iff.1 hrest
  rw [Option.pure_def, Option.some.injEq] at hlines
  -- the file is an entry of a directory without links
  have hopened := hplace
  unfold Polarize.safePrismFile at hopened
  split_ifs at hopened with hname
  obtain ⟨base, hbase⟩ : ∃ base, raw.components = base ++ [.name "prism.json"] := by
    unfold Node.fileName at hname
    split at hname
    · rename_i s hlast
      cases hname
      exact ⟨_, (List.dropLast_append_getLast? _ (Option.mem_def.2 hlast)).symm⟩
    · cases hname
  rw [hbase] at hplace hopened
  split at hopened
  · rename_i content hmeta
    rw [Node.linkMetadata_entry] at hmeta
    obtain ⟨root, hroot, hfile⟩ := Option.bind_eq_some_iff.1 hmeta
    have hreal : fs.Real root := Node.canonicalize_real (Node.isLink_of_lookup hfile rfl) hroot
    obtain ⟨-, rfl, -, hpolarize⟩ := (Polarize.safePrismFile_eq_some_iff hreal hroot).1 hplace
    have hentry := hreal.append hfile rfl
    rw [Node.readToString, Node.metadata_of_real hentry, hfile] at htext
    dsimp only at htext
    subst htext
    refine ⟨root ++ ["prism.json"], ?_, List.getLast?_concat, hpolarize, hentry, text, hfile,
      hlines.symm⟩
    rw [hraw, Option.bind_some, canonicalize, hbase,
      Polarize.canonicalize_entry hreal hroot hfile rfl, hdir]
    rfl
  · cases hopened

end Read

/-! ## The keys that leave the viewer closed -/

namespace App

variable {τ : Type} {world : World τ} {app : App}

theorem focus_moveSelection (delta : ℤ) : (app.moveSelection delta).focus = app.focus := by
  unfold moveSelection
  split_ifs <;> rfl

theorem focus_moveDeepSelection (delta : ℤ) :
    (app.moveDeepSelection delta).focus = app.focus := by
  unfold moveDeepSelection
  split_ifs <;> rfl

/-- What the viewer depends on. -/
def view (app : App) : LaunchFocus × List String := (app.focus, app.artifactLines)

theorem focus_of_view {app' : App} (h : app'.view = app.view) : app'.focus = app.focus :=
  congrArg Prod.fst h

theorem artifactLines_of_view {app' : App} (h : app'.view = app.view) :
    app'.artifactLines = app.artifactLines := congrArg Prod.snd h

theorem view_syncSelection : app.syncSelection.view = app.view := by
  unfold syncSelection
  dsimp only
  split_ifs <;> rfl

theorem focus_syncSelection : app.syncSelection.focus = app.focus :=
  focus_of_view view_syncSelection

theorem view_handleIpcEvents (events : List (World τ)) :
    (app.handleIpcEvents events).view = app.view := by
  induction events generalizing app with
  | nil => rfl
  | cons event events ih => exact @ih (app.handleIpcEvent event)

/-- The viewer is not open. -/
def Closed (app : App) : Prop := app.focus ≠ .artifact

theorem Closed.of_view {app' : App} (h : app.Closed) (hview : app'.view = app.view) :
    app'.Closed := fun heq => h ((focus_of_view hview).symm.trans heq)

theorem Closed.of_focus {app' : App} (h : app.Closed) (hfocus : app'.focus = app.focus) :
    app'.Closed := fun heq => h (hfocus.symm.trans heq)

theorem closed_appendStatus (h : app.Closed) (status : String) :
    (app.appendStatus status).Closed := h

theorem closed_adjustDispatchSelection (h : app.Closed) (delta : ℤ) :
    (app.adjustDispatchSelection delta).Closed := by
  unfold adjustDispatchSelection
  split
  · exact h.of_focus rfl
  · exact h.of_focus rfl
  · exact h.of_focus rfl
  · exact nofun

theorem closed_editPromptKey (h : app.Closed) (key : KeyEvent) :
    (app.editPromptKey key).Closed := by
  unfold editPromptKey
  split
  · exact nofun
  · exact nofun
  · exact h.of_focus rfl
  · exact h.of_focus rfl
  · split_ifs
    · exact nofun
    · exact h
    · exact h.of_focus rfl
  · exact h

theorem closed_helpKey (h : app.Closed) (key : KeyEvent) : (app.helpKey key).Closed := by
  unfold helpKey
  split
  · exact nofun
  · exact nofun
  · exact nofun
  · exact h

theorem closed_errorKey (h : app.Closed) (key : KeyEvent) : (app.errorKey key).app.Closed := by
  unfold errorKey
  split_ifs
  · exact nofun
  · exact nofun
  · exact h

theorem closed_copySelectedRunToClipboard (h : app.Closed) :
    (app.copySelectedRunToClipboard world).app.Closed := by
  unfold copySelectedRunToClipboard
  split
  · exact h.of_focus rfl
  · dsimp only
    split
    · exact h.of_focus rfl
    · exact nofun

variable [LinearOrder τ] {out : Outside τ}

theorem view_refresh : (app.refresh out world).view = app.view := by
  have hruns (runs : List Board.RenderedRun) :
      ({ app with runs := runs }.syncSelection).view = app.view := view_syncSelection
  rw [refresh]
  simp only [refreshPolarize, refreshMux, view] at hruns ⊢
  exact hruns _

theorem closed_new (config : AppConfig) : (App.new out world config).Closed := by
  unfold App.new Closed
  simp only [refreshPolarize, refreshMux, focus_syncSelection]
  exact nofun

theorem closed_refresh (h : app.Closed) : (app.refresh out world).Closed := h.of_view view_refresh

theorem closed_setSearchQuery (h : app.Closed) (query : String) :
    (app.setSearchQuery out world query).Closed := by
  have hquery : Closed { app with searchQuery := query } := h
  exact closed_refresh hquery

theorem closed_clearSearch (h : app.Closed) : (app.clearSearch out world).Closed := by
  unfold clearSearch
  split_ifs
  · exact h
  · exact closed_appendStatus (closed_setSearchQuery h "") _

theorem closed_toggleFilter (h : app.Closed) : (app.toggleFilter out world).Closed := by
  have hscope : Closed { app with queueScope := app.queueScope.next } := h
  unfold toggleFilter
  exact closed_appendStatus (closed_refresh hscope) _

theorem closed_searchKey (h : app.Closed) (key : KeyEvent) :
    (app.searchKey out world key).Closed := by
  unfold searchKey
  split
  · exact nofun
  · exact nofun
  · exact closed_setSearchQuery h _
  · split_ifs
    · exact h
    · exact closed_setSearchQuery h _
  · exact h

theorem closed_archiveSelectedRun (h : app.Closed) :
    (app.archiveSelectedRun out world).app.Closed := by
  unfold archiveSelectedRun
  split
  · exact closed_appendStatus h _
  · dsimp only
    split
    · exact h
    · split
      · exact h
      · exact closed_appendStatus (closed_refresh h) _

theorem closed_launchVerified (h : app.Closed) : (app.launchVerified out world).app.Closed := by
  unfold launchVerified
  dsimp only
  split_ifs
  · refine closed_refresh ?_
    split
    · exact h.of_focus rfl
    · exact nofun
  · refine closed_refresh ?_
    split
    · exact h.of_focus rfl
    · exact nofun

theorem closed_launchSelected (h : app.Closed) : (app.launchSelected out world).app.Closed := by
  unfold launchSelected
  dsimp only
  split
  · split
    · exact nofun
    · exact closed_launchVerified h
  · exact closed_launchVerified h

theorem closed_runCommand (command : Launch.LaunchCommand) :
    (app.runCommand out world command).app.Closed := by
  unfold runCommand
  dsimp only
  refine closed_refresh ?_
  split
  · exact nofun
  · exact nofun

/-! ## The key that opens it -/

/-- What a run names: its report, its transcript and its root. -/
def artifactsOf (snapshot : Board.RunSnapshot) : List String :=
  [snapshot.latestReport, snapshot.latestTranscript, snapshot.root].reduceOption

/-- What an action that opens the viewer is about. -/
def Offers (app : App) : DeepAction → Prop
  | .openReport path | .openTranscript path | .openRoot path => ∃ run text,
    app.selectedRun = some run ∧ text ∈ artifactsOf run.snapshot ∧ path = .ofString text
  | .polarizeIntent _ _ _ prismPath => ∃ intent ∈ app.polarizeIntents,
    intent.prismPath = prismPath
  | _ => True

theorem eq_some_of_mem_nonEmpty {value : Option String} {text : String}
    (h : text ∈ (nonEmpty value).toList) : value = some text :=
  (Option.filter_eq_some_iff.1 (Option.mem_toList.1 h)).1

/-- **Each action is about what the console holds.** -/
theorem offers_of_mem {action : DeepAction} (h : action ∈ app.deepActions) :
    app.Offers action := by
  rw [deepActions, List.mem_append, List.mem_append, List.mem_append] at h
  rcases h with ((hrun | hmux) | hprism) | hskill
  · cases hselected : app.selectedRun with
    | none =>
      rw [hselected] at hrun
      cases hrun
    | some run =>
      rw [hselected, Option.elim_some, runActions, List.mem_append, List.mem_append,
        List.mem_append, List.mem_append] at hrun
      rcases hrun with (((hattach | hresume) | hreport) | htranscript) | hroot
      · obtain ⟨session, -, rfl⟩ := List.mem_map.1 hattach
        trivial
      · split at hresume
        · rw [List.mem_singleton.1 hresume]
          trivial
        · cases hresume
      · obtain ⟨text, htext, rfl⟩ := List.mem_map.1 hreport
        refine ⟨run, text, hselected, List.reduceOption_mem_iff.2 ?_, rfl⟩
        simp [eq_some_of_mem_nonEmpty htext]
      · obtain ⟨text, htext, rfl⟩ := List.mem_map.1 htranscript
        refine ⟨run, text, hselected, List.reduceOption_mem_iff.2 ?_, rfl⟩
        simp [eq_some_of_mem_nonEmpty htext]
      · obtain ⟨text, htext, rfl⟩ := List.mem_map.1 hroot
        refine ⟨run, text, hselected, List.reduceOption_mem_iff.2 ?_, rfl⟩
        simp [eq_some_of_mem_nonEmpty htext]
  · obtain ⟨summary, -, rfl⟩ := List.mem_map.1 hmux
    trivial
  · obtain ⟨intent, hintent, rfl⟩ := List.mem_map.1 hprism
    exact ⟨intent, hintent, rfl⟩
  · obtain ⟨entry, -, rfl⟩ := List.mem_map.1 hskill
    trivial

/-- **What was read when the viewer was opened.** -/
def Reads (world : World τ) (app : App) (lines : List String) : Prop :=
  (∃ run text, app.selectedRun = some run ∧ text ∈ artifactsOf run.snapshot ∧
    world.artifactLines (.ofString text) run.snapshot.root = .ok lines) ∨
  ∃ intent ∈ app.polarizeIntents, world.prismPreviewLines intent.prismPath = .ok lines

omit [LinearOrder τ] in
theorem reads_openArtifact {title : String} {path : OsString}
    (hoffers : ∃ run text, app.selectedRun = some run ∧ text ∈ artifactsOf run.snapshot ∧
      path = .ofString text)
    (hopen : (app.openArtifact world title path).focus = .artifact) :
    app.Reads world (app.openArtifact world title path).artifactLines := by
  obtain ⟨run, text, hrun, htext, rfl⟩ := hoffers
  unfold openArtifact at hopen ⊢
  dsimp only at hopen ⊢
  split at hopen
  · cases hopen
  · rename_i lines hlines
    have hroot : (app.selectedRun.bind fun run => run.snapshot.root) = run.snapshot.root := by
      rw [hrun]
      rfl
    refine .inl ⟨run, text, hrun, htext, ?_⟩
    rw [← hroot]
    exact hlines

omit [LinearOrder τ] in
theorem reads_openPolarizeIntent {intent : PolarizeIntent}
    (hoffers : ∃ kept ∈ app.polarizeIntents, kept.prismPath = intent.prismPath)
    (hopen : (app.openPolarizeIntent world intent).focus = .artifact) :
    app.Reads world (app.openPolarizeIntent world intent).artifactLines := by
  obtain ⟨kept, hkept, hpath⟩ := hoffers
  unfold openPolarizeIntent at hopen ⊢
  dsimp only at hopen ⊢
  split at hopen
  · cases hopen
  · rename_i lines hlines
    exact .inr ⟨kept, hkept, hpath ▸ hlines⟩

/-- A command leaves the viewer closed. -/
theorem closed_command (h : app.Closed) (command : Option Launch.LaunchCommand) :
    App.Closed (Handled.app
      (match command with
      | some command => app.runCommand out world command
      | none => ⟨app, [], .error
          "artifact actions are handled by the native operator viewer"⟩)) := by
  cases command with
  | none => exact h
  | some command => exact closed_runCommand command

theorem reads_runSelectedDeepControl (h : app.Closed)
    (hopen : (app.runSelectedDeepControl out world).app.focus = .artifact) :
    app.Reads world (app.runSelectedDeepControl out world).app.artifactLines := by
  unfold runSelectedDeepControl at hopen ⊢
  split at hopen
  · cases hopen
  · rename_i path haction
    exact reads_openArtifact (offers_of_mem (List.mem_of_getElem? haction)) hopen
  · rename_i path haction
    exact reads_openArtifact (offers_of_mem (List.mem_of_getElem? haction)) hopen
  · rename_i path haction
    exact reads_openArtifact (offers_of_mem (List.mem_of_getElem? haction)) hopen
  · rename_i band score runId prismPath haction
    exact reads_openPolarizeIntent (offers_of_mem (List.mem_of_getElem? haction)) hopen
  · exact absurd hopen (closed_command h _)

/-- **While browsing** only Enter opens the viewer. -/
theorem reads_browse (h : app.Closed) (key : BrowseKey)
    (hopen : (app.browse out world key).app.focus = .artifact) :
    app.Reads world (app.browse out world key).app.artifactLines := by
  have hclosed {app' : App} (h' : app'.Closed) (hopen : (Handled.within app').app.focus = .artifact)
      {p : Prop} : p := absurd hopen h'
  cases key with
  | up | down =>
    refine hclosed ?_ hopen
    split
    · exact h.of_focus (focus_moveSelection _)
    · exact h.of_focus rfl
    · exact h.of_focus (focus_moveDeepSelection _)
  | left | right =>
    refine hclosed ?_ hopen
    split
    · exact h
    · exact closed_adjustDispatchSelection h _
    · exact h.of_focus (focus_moveSelection _)
  | clearSearch => exact absurd hopen (closed_clearSearch h)
  | filter => exact absurd hopen (closed_toggleFilter h)
  | archive => exact absurd hopen (closed_archiveSelectedRun h)
  | copy => exact absurd hopen (closed_copySelectedRunToClipboard h)
  | refresh => exact absurd hopen (closed_refresh h)
  | enter =>
    unfold browse at hopen ⊢
    dsimp only at hopen ⊢
    split at hopen
    · refine hclosed ?_ hopen
      split_ifs
      · exact nofun
      · exact h
    · split_ifs at hopen
      · cases hopen
      · exact absurd hopen (closed_launchSelected h)
    · exact reads_runSelectedDeepControl h hopen
  | quit | other => exact absurd hopen h
  | help | nextTab | previousTab | launchKind | agent | runtime | search | edit | controls =>
    cases hopen

/-- **A key that opens the viewer** has it read what the selected run names, or a prism. -/
theorem reads_handleKey (h : app.Closed) (key : KeyEvent)
    (hopen : (app.handleKey out world key).app.focus = .artifact) :
    app.Reads world (app.handleKey out world key).app.artifactLines := by
  by_cases hctrl : (key.modifiers.control && key.code = .char 'c') = true
  · rw [handleKey, if_pos hctrl] at hopen
    exact absurd hopen h
  · rw [handleKey, if_neg hctrl] at hopen ⊢
    cases hfocus : app.focus with
    | artifact => exact absurd hfocus h
    | browse =>
      rw [hfocus] at hopen
      exact reads_browse h _ hopen
    | editPrompt =>
      rw [hfocus] at hopen
      exact absurd hopen (closed_editPromptKey h key)
    | search =>
      rw [hfocus] at hopen
      exact absurd hopen (closed_searchKey h key)
    | error =>
      rw [hfocus] at hopen
      exact absurd hopen (closed_errorKey h key)
    | help =>
      rw [hfocus] at hopen
      exact absurd hopen (closed_helpKey h key)

/-- A key over the viewer leaves what it shows. -/
theorem artifactLines_handleKey (h : app.focus = .artifact) (key : KeyEvent) :
    (app.handleKey out world key).app.artifactLines = app.artifactLines := by
  by_cases hctrl : (key.modifiers.control && key.code = .char 'c') = true
  · rw [handleKey, if_pos hctrl]
  · rw [handleKey, if_neg hctrl, h]
    show (app.artifactKey key).artifactLines = app.artifactLines
    unfold artifactKey
    split <;> rfl

end App

/-! ## Runs -/

variable {τ : Type} {fs : Node} {cwd : List String} {osError : OsString → String}

/-- **What the viewer shows** of a tree: what a run names, below the root of that run, or the
payload of a prism. -/
def Viewed (fs : Node) (cwd : List String) (before : App) (lines : List String) : Prop :=
  (∃ run text root place, before.selectedRun = some run ∧ text ∈ App.artifactsOf run.snapshot ∧
    Artifact fs cwd (.ofString text) run.snapshot.root lines root place) ∨
  ∃ intent ∈ before.polarizeIntents, ∃ place, Prism fs cwd intent.prismPath lines place

theorem Sees.viewed {world : World τ} (h : Sees fs cwd osError world) {before : App}
    {lines : List String} (hreads : before.Reads world lines) : Viewed fs cwd before lines := by
  rcases hreads with ⟨run, text, hrun, htext, hlines⟩ | ⟨intent, hintent, hlines⟩
  · rw [h.artifactLines] at hlines
    obtain ⟨root, place, hartifact⟩ := artifact_of_artifactLines hlines
    exact .inl ⟨run, text, root, place, hrun, htext, hartifact⟩
  · obtain ⟨raw, hraw, hdir, hpreview⟩ := (h.prismPreviewLines _ _).1 hlines
    exact .inr ⟨intent, hintent, prism_of_prismPreviewLines hraw hdir hpreview⟩

variable [LinearOrder τ] {out : Outside τ}

/-- **The viewer is confined.** In every run, whatever becomes of the files between two keys, what
an open viewer shows was read when it was opened: at a place below the root of the run that was
selected then, which no link leads out of, or from the payload of a prism. -/
theorem viewer_confined {ok : App × Opened τ → Turn τ → Prop} {start : World τ}
    {config : AppConfig} {app : App} {opened : Opened τ}
    (h : Run.Reach (Run.track (App.turn out) (App.noteOpened out)) ok
      (App.new out start config, none) (app, opened))
    (hopen : app.focus = .artifact) : ∃ world before, opened = some (world, before) ∧
      ∀ fs cwd osError, Sees fs cwd osError world → Viewed fs cwd before app.artifactLines := by
  refine h.invariant (I := fun q => q.1.focus = .artifact → ∃ world before,
    q.2 = some (world, before) ∧ ∀ fs cwd osError, Sees fs cwd osError world →
      Viewed fs cwd before q.1.artifactLines) ?_ ?_ hopen
  · exact fun hstart => absurd hstart (App.closed_new config)
  · rintro ⟨app, opened⟩ turn ⟨app', opened'⟩ - hinv hstep hopen
    obtain ⟨hturn, rfl⟩ := Run.track_eq_some.1 hstep
    dsimp only at hinv hturn hopen ⊢
    cases turn with
    | key world key =>
      rw [App.turn, Option.some.injEq] at hturn
      subst hturn
      by_cases hfocus : app.focus = .artifact
      · rw [App.noteOpened, if_neg fun hnew => hnew.1 hfocus,
          App.artifactLines_handleKey hfocus]
        exact hinv hfocus
      · rw [App.noteOpened, if_pos ⟨hfocus, hopen⟩]
        exact ⟨world, app, rfl,
          fun fs cwd osError hsees => hsees.viewed (App.reads_handleKey hfocus key hopen)⟩
    | refresh events world =>
      rw [App.turn, Option.some.injEq] at hturn
      subst hturn
      have hview : ((app.handleIpcEvents events).refresh out world).view = app.view :=
        App.view_refresh.trans (App.view_handleIpcEvents events)
      rw [App.artifactLines_of_view hview]
      exact hinv ((App.focus_of_view hview).symm.trans hopen)

/-- A result, or the text of an error. -/
def orError {α : Type} (error : String) : Option α → Except String α
  | some a => .ok a
  | none => .error error

theorem orError_eq_ok_iff {α : Type} {error : String} {found : Option α} {a : α} :
    orError error found = .ok a ↔ found = some a := by
  cases found <;> simp [orError]

/-- A world that shows a tree; the text of an error is that of the operating system. -/
def overTree (fs : Node) (cwd : List String) (osError : OsString → String) (world : World ℤ) :
    World ℤ :=
  { world with
    artifactLines := artifactLines fs cwd osError
    prismPreviewLines := fun path => orError (osError path)
      ((RawPath.ofOs cwd path).bind fun raw =>
        if raw.isDir then none else Polarize.prismPreviewLines fs raw.components) }

theorem sees_overTree (world : World ℤ) :
    Sees fs cwd osError (overTree fs cwd osError world) := by
  refine ⟨rfl, fun path lines => ?_⟩
  rw [overTree, orError_eq_ok_iff, Option.bind_eq_some_iff]
  refine exists_congr fun raw => and_congr_right fun _ => ?_
  cases raw.isDir <;> simp

/-- A run with a report, and the report. -/
def reportTree : Node := .dir [("work", .dir [("r", .dir [("report.md", .file (some "Done."))])])]

/-- What the console finds of it. -/
def reading : World ℤ :=
  overTree reportTree [] (fun _ => "No such file or directory (os error 2)") { nothing with
    load := some {
      root := []
      runs := [{ Board.beating with
        root := some "/work/r"
        latestReport := some "/work/r/report.md" }]
      events := []
      archivedRunIds := [] } }

/-- The console opens the report. -/
theorem viewer_confined_report : ∃ app before : App,
    app.artifactLines = ["Done."] ∧ Viewed reportTree [] before app.artifactLines := by
  let start := App.new Board.epoch reading localConfig
  let controls := (start.handleKey Board.epoch reading ⟨.char 'd', ⟨false, false, false⟩⟩).app
  let app := (controls.handleKey Board.epoch reading ⟨.enter, ⟨false, false, false⟩⟩).app
  have hclosed : ¬(start.focus ≠ .artifact ∧ controls.focus = .artifact) := by decide +kernel
  have hopens : controls.focus ≠ .artifact ∧ app.focus = .artifact := by decide +kernel
  have hlines : app.artifactLines = ["Done."] := by decide +kernel
  have hcontrols : Run.track (App.turn Board.epoch) (App.noteOpened Board.epoch) (start, none)
      (press reading (.char 'd')) = some (controls, none) :=
    Run.track_eq_some.2 ⟨rfl, (if_neg hclosed).symm⟩
  have henter : Run.track (App.turn Board.epoch) (App.noteOpened Board.epoch) (controls, none)
      (press reading .enter) = some (app, some (reading, controls)) :=
    Run.track_eq_some.2 ⟨rfl, (if_pos hopens).symm⟩
  have hreach : Run.Reach (Run.track (App.turn Board.epoch) (App.noteOpened Board.epoch))
      Run.Any (start, none) (app, some (reading, controls)) :=
    (Run.Reach.init.step trivial hcontrols).step trivial henter
  obtain ⟨world, before, hopened, hviewed⟩ := viewer_confined hreach hopens.2
  obtain ⟨rfl, rfl⟩ := Prod.mk.inj (Option.some.inj hopened)
  exact ⟨app, controls, hlines, hviewed _ _ _ (sees_overTree _)⟩

end Console

end VcOperator
