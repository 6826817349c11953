import VcOperator.Status.Freshness
import VcOperator.Status.Model.Panel
/-!
# What the panel of the console shows

While the daemon goes on writing, the console finds each status file once
and reads it whole. What its panel shows of a service is a snapshot of that
service, and none that was out of date when the refresh began.
-/

namespace VcOperator

namespace Status

open Config (joinPath)

variable {ι : Type} {services : Services ι} {v₀ : Volume FilePath UInt8}
  {files files' : Files ι} {i : ι}

/-! ## The files, step by step -/

/-- What a reader has of a text stays so. -/
theorem Files.Kept.sound_step [DecidableEq ι] (h : files.Kept services v₀) (hapart : services.Apart)
    {event : Event ι} (hstep : files.step services event = some files') {r : Reader ι}
    (hr : r.Sound services v₀ files) : r.Sound services v₀ files' := by
  -- the other readers have no part in it
  have hkept : Files.Kept services v₀ { files with readers := [r] } := by
    refine ⟨h.ordered, h.aside, h.held, ?_⟩
    intro r' hr'
    rw [List.mem_singleton.1 hr']
    exact ⟨hr.file_lt, hr.tmp_ne, hr.isText, hr.got, hr.finished⟩
  cases event with
  | publish i snapshot =>
    cases hstep
    have hsound := (hkept.publish i snapshot).readers r (List.mem_singleton.2 rfl)
    exact ⟨hsound.file_lt, hsound.tmp_ne, hsound.isText, hsound.got, hsound.finished⟩
  | writer i outcome =>
    obtain ⟨⟨v', w'⟩, hproceed, hs'⟩ := Option.map_eq_some_iff.1 hstep
    cases hs'
    have hsound := (hkept.writer hapart hproceed).readers r (List.mem_singleton.2 rfl)
    exact ⟨hsound.file_lt, hsound.tmp_ne, hsound.isText, hsound.got, hsound.finished⟩
  | openStatus i =>
    obtain ⟨file, -, hs'⟩ := Option.map_eq_some_iff.1 hstep
    cases hs'
    exact ⟨hr.file_lt, hr.tmp_ne, hr.isText, hr.got, hr.finished⟩
  | read k n =>
    obtain ⟨r', -, hmap⟩ := Option.bind_eq_some_iff.1 hstep
    obtain ⟨r'', -, hs'⟩ := Option.map_eq_some_iff.1 hmap
    cases hs'
    exact ⟨hr.file_lt, hr.tmp_ne, hr.isText, hr.got, hr.finished⟩

/-- A snapshot keeps its version. -/
theorem Files.get_step [DecidableEq ι] {event : Event ι}
    (hstep : files.step services event = some files') {n : ℕ} {snapshot : EncodableSnapshot}
    (hget : (files.writers i).channel.get n = some snapshot) :
    (files'.writers i).channel.get n = some snapshot := by
  cases event with
  | publish j new =>
    cases hstep
    dsimp only
    by_cases hij : i = j
    · subst hij
      rw [Function.update_self, Watch.get_send]
      · exact hget
      · rw [← Watch.isSome_get_iff, hget]
        rfl
    · rw [Function.update_of_ne hij]
      exact hget
  | writer j outcome =>
    obtain ⟨⟨v', w'⟩, hproceed, hs'⟩ := Option.map_eq_some_iff.1 hstep
    cases hs'
    dsimp only
    by_cases hij : i = j
    · subst hij
      have hchannel : w'.channel = (files.writers i).channel := by
        cases proceeds_of_proceed hproceed <;> first | assumption | rfl
      rw [Function.update_self, hchannel]
      exact hget
    · rw [Function.update_of_ne hij]
      exact hget
  | openStatus j =>
    obtain ⟨file, -, hs'⟩ := Option.map_eq_some_iff.1 hstep
    cases hs'
    exact hget
  | read k count =>
    obtain ⟨r, -, hmap⟩ := Option.bind_eq_some_iff.1 hstep
    obtain ⟨r', -, hs'⟩ := Option.map_eq_some_iff.1 hmap
    cases hs'
    exact hget

/-- **What a writer has put in place** is at the status file, all of it, and may be read. -/
theorem Files.Kept.placed (h : files.Kept services v₀) (hapart : services.Apart) {n : ℕ}
    (hn : (files.writers i).shown = some n) : ∃ snapshot file,
      (files.writers i).channel.get n = some snapshot ∧
      files.volume.names (services.path i) = some file ∧
      Reader.Sound services v₀ files ⟨i, file, statusBytes services.floats snapshot, true⟩ := by
  obtain ⟨snapshot, hsnapshot⟩ :=
    Option.isSome_iff_exists.1 ((Watch.isSome_get_iff _).2 ((h.ordered i).shown n hn))
  have hheld := h.held i
  rw [Files.held, hn] at hheld
  dsimp only at hheld
  rw [hsnapshot, Option.map_some, Volume.read] at hheld
  obtain ⟨file, hfile, hcontents⟩ := Option.map_eq_some_iff.1 hheld
  refine ⟨snapshot, file, hsnapshot, hfile, files.volume.named.lt hfile, ?_, h.isText hfile, ?_, ?_⟩
  · intro j hj
    exact hapart.tmp_ne j i (files.volume.named.inj hj hfile)
  · exact hcontents ▸ List.prefix_rfl
  · exact fun _ => hcontents.symm

/-! ## What is made of a snapshot -/

/-- **The summary shows a snapshot**: by its name and its fields, if its status is one the
console knows, and else as one that cannot be read. -/
def MuxSummary.Shows (summary : MuxSummary) (snapshot : EncodableSnapshot) : Prop :=
  match readServerStatus (serverStatusValue snapshot.1.serverStatus) with
  | some status => summary.displayName = snapshot.1.serviceName ∧
      summary.state = if status.isHealthy then .healthy (snapshot.1.mirror status)
        else .unhealthy (snapshot.1.mirror status)
  | none => ∃ error, summary.state = .unreadable error

variable {host : PanelHost}

theorem shows_parse (raw : String) (path : FilePath) (snapshot : EncodableSnapshot) :
    (MuxSummary.fromPathAndResult raw (host.parse services.floats path
      (statusBytes services.floats snapshot))).Shows snapshot := by
  rw [PanelHost.parse, statusBytes, Utf8.fromUTF8?_toUTF8]
  dsimp only
  rw [fromJson_statusFile, MuxSummary.Shows]
  cases readServerStatus (serverStatusValue snapshot.1.serverStatus) with
  | none => exact ⟨_, rfl⟩
  | some status => exact ⟨rfl, rfl⟩

/-- **What the panel tells of the services**, where these versions were in place when the refresh
began: a snapshot no older than that, if the file is a `.json` one. -/
def MuxSummary.Tells (services : Services ι) (files : Files ι) (began : ι → Option ℕ)
    (summary : MuxSummary) : Prop :=
  ∀ i n, pathOf summary.path = (services.path i).1 → began i = some n →
    (pathExtension (services.path i).1 = some "json" → ∃ m snapshot, n ≤ m ∧
      (files.writers i).channel.get m = some snapshot ∧ summary.Shows snapshot) ∧
    (pathExtension (services.path i).1 ≠ some "json" →
      ∃ error, summary.state = .unreadable error)

theorem MuxSummary.Tells.step [DecidableEq ι] {began : ι → Option ℕ} {summary : MuxSummary}
    (htells : summary.Tells services files began) {event : Event ι}
    (hstep : files.step services event = some files') :
    summary.Tells services files' began := by
  intro i n hpath hn
  obtain ⟨hjson, hother⟩ := htells i n hpath hn
  refine ⟨fun hext => ?_, hother⟩
  obtain ⟨m, snapshot, hle, hget, hshows⟩ := hjson hext
  exact ⟨m, snapshot, hle, Files.get_step hstep hget, hshows⟩

/-! ## The list of paths -/

/-- **The paths of a refresh**: each once, those of the environment first, and of the services
with a file in place those the console looks for. -/
structure PanelHost.Listed (host : PanelHost) (services : Services ι) (began : ι → Option ℕ)
    (raws : List String) : Prop where
  nodup : (raws.map pathOf).Nodup
  overrides : host.overrides <+: raws
  covered : ∀ i, (began i).isSome →
    ((∃ raw ∈ raws, pathOf raw = (services.path i).1) ↔ host.Covers (services.path i).1)

theorem nodup_overrides (host : PanelHost) : (host.overrides.map pathOf).Nodup := by
  unfold PanelHost.overrides
  split
  · exact List.nodup_nil
  · exact nodup_foldl_pushFirst List.nodup_nil

/-- What the root directory adds to the paths of the environment. -/
structure PanelHost.Flat (host : PanelHost) (root : String) (out : List String) : Prop where
  isRoot : host.root = some root
  nodup : (out.map pathOf).Nodup
  overrides : host.overrides <+: out
  mem : ∀ raw ∈ out, raw ∈ host.overrides ∨ raw = joinPath root "status.json"

theorem PanelHost.Flat.push {root : String} {out : List String} (h : host.Flat root out) :
    host.Flat root (PanelHost.push out (joinPath root "status.json")) := by
  refine ⟨h.isRoot, nodup_pushFirst h.nodup, h.overrides.trans prefix_pushFirst, ?_⟩
  intro raw hraw
  rcases mem_or_eq_of_mem_pushFirst hraw with hmem | heq
  · exact h.mem raw hmem
  · exact .inr heq

/-- Without a home directory only the paths of the environment are looked for. -/
theorem PanelHost.listed_overrides (hroot : host.root = none) (began : ι → Option ℕ) :
    host.Listed services began host.overrides := by
  refine ⟨nodup_overrides host, List.prefix_rfl, ?_⟩
  intro i _
  constructor
  · exact .inl
  · rintro (hraw | ⟨root, name, hsome, -⟩)
    · exact hraw
    · rw [hroot] at hsome
      cases hsome

theorem filePath?_val (path : FilePath) : filePath? path.1 = some path := dif_pos path.2

theorem entry_of_names {volume : Volume FilePath UInt8} {path : FilePath} {file : ℕ}
    (h : volume.names path = some file) : host.entry volume path.1 = some .file := by
  rw [PanelHost.entry, filePath?_val, Option.bind_some, h]

/-- A file in the listing. -/
theorem mem_dirFiles_iff {volume : Volume FilePath UInt8} {root raw : String}
    {names : List String} : raw ∈ host.dirFiles volume root names ↔
      ∃ name ∈ names, host.entry volume (pathOf (joinPath root name)) = some .file ∧
        extension name = some "json" ∧ joinPath root name = raw := by
  simp only [PanelHost.dirFiles, List.mem_mergeSort, List.mem_map, List.mem_filter,
    Bool.and_eq_true, decide_eq_true_eq]
  constructor
  · rintro ⟨name, ⟨hmem, hentry, hext⟩, heq⟩
    exact ⟨name, hmem, hentry, hext, heq⟩
  · rintro ⟨name, hmem, hentry, hext, heq⟩
    exact ⟨name, ⟨hmem, hentry, hext⟩, heq⟩

/-- **A whole listing leaves no service out.** -/
theorem PanelHost.Flat.listed {root : String} {out : List String} (h : host.Flat root out)
    {began : ι → Option ℕ}
    (hplaced : ∀ i, (began i).isSome → (files.volume.names (services.path i)).isSome)
    {names : List String} (hnames : ∀ name ∈ names, isEntryName name = true)
    (hall : ∀ name, isEntryName name = true →
      host.entry files.volume (pathOf (joinPath root name)) = some .file → name ∈ names) :
    host.Listed services began
      ((host.dirFiles files.volume root names).foldl PanelHost.push out) := by
  refine ⟨nodup_foldl_pushFirst h.nodup, h.overrides.trans prefix_foldl_pushFirst, ?_⟩
  intro i hi
  constructor
  · rintro ⟨raw, hraw, hpath⟩
    rcases mem_or_mem_of_mem_foldl_pushFirst hraw with hmem | hmem
    · rcases h.mem raw hmem with hover | rfl
      · exact .inl ⟨raw, hover, hpath⟩
      · exact .inr ⟨root, "status.json", h.isRoot, by decide, by decide, hpath⟩
    · obtain ⟨name, hname, -, hext, rfl⟩ := mem_dirFiles_iff.1 hmem
      exact .inr ⟨root, name, h.isRoot, hnames name hname, hext, hpath⟩
  · rintro (⟨raw, hraw, hpath⟩ | ⟨root', name, hroot, hname, hext, hpath⟩)
    · exact ⟨raw, (h.overrides.trans prefix_foldl_pushFirst).subset hraw, hpath⟩
    · rw [h.isRoot, Option.some.injEq] at hroot
      subst hroot
      obtain ⟨file, hfile⟩ := Option.isSome_iff_exists.1 (hplaced i hi)
      have hentry : host.entry files.volume (pathOf (joinPath root name)) = some .file := by
        rw [hpath]
        exact entry_of_names hfile
      have hmem := mem_dirFiles_iff.2 ⟨name, hall name hname hentry, hentry, hext, rfl⟩
      have hkept : pathOf (joinPath root name) ∈
          ((host.dirFiles files.volume root names).foldl PanelHost.push out).map pathOf :=
        key_mem_foldl_pushFirst hmem
      obtain ⟨raw, hraw, hkey⟩ := List.mem_map.1 hkept
      exact ⟨raw, hraw, by rw [hkey, hpath]⟩

/-! ## A refresh, step by step -/

/-- A path that is being read: it is the next one, and no other file. -/
structure PanelHost.Underway (host : PanelHost) (services : Services ι) (s : Panel ι)
    (raw : String) (path : FilePath) (todo : List String) : Prop where
  listed : host.Listed services s.began (s.done.map MuxSummary.path ++ raw :: todo)
  isPath : pathOf raw = path.1
  json : pathExtension path.1 = some "json"

/-- What is known at each stage of a refresh. -/
def Panel.AtStage (services : Services ι) (host : PanelHost) (v₀ : Volume FilePath UInt8)
    (s : Panel ι) : PanelStage → Prop
  | .idle => True
  | .flat root out => host.root = some root ∧ out = host.overrides ∧ s.done = []
  | .entries root out => host.Flat root out ∧ s.done = []
  | .next todo => host.Listed services s.began (s.done.map MuxSummary.path ++ todo)
  | .canonicalize raw path todo | .opening raw path todo => host.Underway services s raw path todo
  | .reading raw path file got todo => host.Underway services s raw path todo ∧
      ∀ i n, services.path i = path → s.began i = some n → ∃ m snapshot, n ≤ m ∧
        (s.files.writers i).channel.get m = some snapshot ∧
        Reader.Sound services v₀ s.files
          ⟨i, file, statusBytes services.floats snapshot, true⟩ ∧
        got <+: statusBytes services.floats snapshot

/-- **The invariant of the panel.** -/
structure Panel.Inv (services : Services ι) (host : PanelHost) (v₀ : Volume FilePath UInt8)
    (s : Panel ι) : Prop where
  kept : s.files.Kept services v₀
  /-- No status file has gone back since the refresh began. -/
  began : ∀ i n, s.began i = some n → ∃ m, (s.files.writers i).shown = some m ∧ n ≤ m
  stage : s.AtStage services host v₀ s.stage
  done : ∀ summary ∈ s.done, summary.Tells services s.files s.began
  since : ∀ began, s.since = some began →
    host.Listed services began (s.summaries.map MuxSummary.path) ∧
      ∀ summary ∈ s.summaries, summary.Tells services s.files began

namespace Panel

variable {s s' : Panel ι}

theorem inv_init (services : Services ι) (host : PanelHost) (v₀ : Volume FilePath UInt8) :
    (Panel.init services v₀).Inv services host v₀ :=
  ⟨kept_init services v₀, nofun, trivial, nofun, nofun⟩

/-- **A step of the daemon**, or of another reader. -/
theorem Inv.daemon [DecidableEq ι] (h : s.Inv services host v₀) (hapart : services.Apart)
    {event : Event ι} (hstep : s.files.step services event = some files') :
    Panel.Inv services host v₀ { s with files := files' } := by
  refine ⟨h.kept.step hapart hstep, ?_, ?_, fun summary hmem => (h.done summary hmem).step hstep,
    fun began hbegan => ⟨(h.since began hbegan).1,
      fun summary hmem => ((h.since began hbegan).2 summary hmem).step hstep⟩⟩
  · intro i n hn
    obtain ⟨m, hm, hle⟩ := h.began i n hn
    obtain ⟨m', hm', hle'⟩ := h.kept.shown_step hstep i hm
    exact ⟨m', hm', Nat.le_trans hle hle'⟩
  · have hstage := h.stage
    dsimp only
    cases hs : s.stage with
    | idle => trivial
    | flat root out | entries root out | next todo =>
      rw [hs] at hstage
      exact hstage
    | canonicalize raw path todo | opening raw path todo =>
      rw [hs] at hstage
      exact ⟨hstage.listed, hstage.isPath, hstage.json⟩
    | reading raw path file got todo =>
      rw [hs] at hstage
      obtain ⟨hunder, htext⟩ := hstage
      refine ⟨⟨hunder.listed, hunder.isPath, hunder.json⟩, ?_⟩
      intro i n hpath hn
      obtain ⟨m, snapshot, hle, hget, hsound, hgot⟩ := htext i n hpath hn
      exact ⟨m, snapshot, hle, Files.get_step hstep hget, h.kept.sound_step hapart hstep hsound,
        hgot⟩

/-- A path is done with, and what is told of it is right. -/
theorem Inv.finish (h : s.Inv services host v₀) {raw : String}
    {result : Except String MuxStatusSnapshot} {todo : List String}
    (hlisted : host.Listed services s.began (s.done.map MuxSummary.path ++ raw :: todo))
    (htells : (MuxSummary.fromPathAndResult raw result).Tells services s.files s.began) :
    (s.finish raw result todo).Inv services host v₀ := by
  refine ⟨h.kept, h.began, ?_, ?_, h.since⟩
  · have hpath : (MuxSummary.fromPathAndResult raw result).path = raw := by
      cases result <;> rfl
    show host.Listed services s.began _
    rw [Panel.finish, List.map_append, List.map_singleton, hpath, List.append_assoc]
    exact hlisted
  · intro summary hmem
    rcases List.mem_append.1 hmem with hmem | hmem
    · exact h.done summary hmem
    · rw [List.mem_singleton.1 hmem]
      exact htells

/-- A service with a snapshot in place has a status file. -/
theorem Inv.names (h : s.Inv services host v₀) (hapart : services.Apart) {i : ι} {n : ℕ}
    (hn : s.began i = some n) : ∃ m snapshot file, n ≤ m ∧
      (s.files.writers i).channel.get m = some snapshot ∧
      s.files.volume.names (services.path i) = some file ∧
      Reader.Sound services v₀ s.files
        ⟨i, file, statusBytes services.floats snapshot, true⟩ := by
  obtain ⟨m, hm, hle⟩ := h.began i n hn
  obtain ⟨snapshot, file, hget, hfile, hsound⟩ := h.kept.placed hapart hm
  exact ⟨m, snapshot, file, hle, hget, hfile, hsound⟩

/-- A path with nothing at it is none of a service with a snapshot in place. -/
theorem Inv.tells_of_missing (h : s.Inv services host v₀) (hapart : services.Apart)
    {raw : String} {path : FilePath} (hpath : pathOf raw = path.1)
    (hnone : s.files.volume.names path = none) (error : String) :
    (MuxSummary.fromPathAndResult raw (.error error)).Tells services s.files s.began := by
  intro i n hi hn
  obtain ⟨-, -, file, -, -, hfile, -⟩ := h.names hapart hn
  have heq : services.path i = path := Subtype.ext (hi.symm.trans hpath)
  rw [heq, hnone] at hfile
  cases hfile

/-- **`safe_status_file`** refuses no service with a snapshot in place, but where its file is no
`.json` one. -/
theorem Inv.tells_of_inspect (h : s.Inv services host v₀) (hapart : services.Apart)
    {raw error : String} (hinspect : host.inspect s.files.volume raw = .error error) :
    (MuxSummary.fromPathAndResult raw (.error error)).Tells services s.files s.began := by
  intro i n hi hn
  have hraw : pathOf raw = (services.path i).1 := hi
  refine ⟨fun hjson => ?_, fun _ => ⟨error, rfl⟩⟩
  obtain ⟨-, -, file, -, -, hfile, -⟩ := h.names hapart hn
  rw [PanelHost.inspect, hraw, if_neg (not_not.2 hjson), filePath?_val,
    entry_of_names hfile] at hinspect
  cases hinspect

theorem inspect_eq_ok {volume : Volume FilePath UInt8} {raw : String} {path : FilePath}
    (h : host.inspect volume raw = .ok path) :
    pathOf raw = path.1 ∧ pathExtension path.1 = some "json" := by
  unfold PanelHost.inspect at h
  split_ifs at h with hjson
  split at h
  · rename_i hpath hentry
    cases h
    have heq : pathOf raw = path.1 := by
      unfold filePath? at hpath
      split_ifs at hpath
      cases hpath
      rfl
    exact ⟨heq, heq ▸ not_not.1 hjson⟩
  · cases h
  · cases h

/-- **An operation of the console** that reads nothing. -/
theorem Inv.go (h : s.Inv services host v₀) (hapart : services.Apart)
    (hgo : s.go host = some s') : s'.Inv services host v₀ := by
  have hstage := h.stage
  unfold Panel.go at hgo
  split at hgo
  · -- a refresh begins
    cases hgo
    refine ⟨h.kept, fun i n hn => ⟨n, hn, Nat.le_refl n⟩, ?_, nofun, h.since⟩
    dsimp only
    split
    · rename_i root hroot
      exact ⟨hroot, rfl, rfl⟩
    · rename_i hroot
      exact PanelHost.listed_overrides hroot _
  · rename_i root out hs
    cases hgo
    rw [hs] at hstage
    obtain ⟨hroot, rfl, hdone⟩ := hstage
    have hflat : host.Flat root host.overrides :=
      ⟨hroot, nodup_overrides host, List.prefix_rfl, fun raw hraw => .inl hraw⟩
    refine ⟨h.kept, h.began, ⟨?_, hdone⟩, h.done, h.since⟩
    split
    · exact hflat.push
    · exact hflat
  · -- it ends
    rename_i hs
    cases hgo
    rw [hs] at hstage
    refine ⟨h.kept, h.began, trivial, h.done, ?_⟩
    intro began hbegan
    obtain rfl := Option.some.inj hbegan
    refine ⟨?_, h.done⟩
    have hlisted : host.Listed services s.began (s.done.map MuxSummary.path ++ []) := hstage
    rwa [List.append_nil] at hlisted
  · rename_i raw todo hs
    rw [hs] at hstage
    split at hgo
    · rename_i error hinspect
      cases hgo
      exact h.finish hstage (h.tells_of_inspect hapart hinspect)
    · rename_i path hinspect
      cases hgo
      obtain ⟨hpath, hjson⟩ := inspect_eq_ok hinspect
      exact ⟨h.kept, h.began, ⟨hstage, hpath, hjson⟩, h.done, h.since⟩
  · rename_i raw path todo hs
    rw [hs] at hstage
    split at hgo
    · cases hgo
      exact ⟨h.kept, h.began, ⟨hstage.listed, hstage.isPath, hstage.json⟩, h.done, h.since⟩
    · rename_i hnone
      cases hgo
      exact h.finish hstage.listed (h.tells_of_missing hapart hstage.isPath hnone _)
  · rename_i raw path todo hs
    rw [hs] at hstage
    split at hgo
    · -- the file that is opened is what its service has put in place
      rename_i file hfile
      cases hgo
      refine ⟨h.kept, h.began, ⟨⟨hstage.listed, hstage.isPath, hstage.json⟩, ?_⟩, h.done, h.since⟩
      intro i n hi hn
      obtain ⟨m, snapshot, file', hle, hget, hfile', hsound⟩ := h.names hapart hn
      rw [hi, hfile, Option.some.injEq] at hfile'
      subst hfile'
      exact ⟨m, snapshot, hle, hget, hsound, List.nil_prefix⟩
    · rename_i hnone
      cases hgo
      exact h.finish hstage.listed (h.tells_of_missing hapart hstage.isPath hnone _)
  · cases hgo
  · cases hgo

/-- **The root directory is listed.** -/
theorem Inv.list (h : s.Inv services host v₀) (hapart : services.Apart) {root : String}
    {out names : List String} (hs : s.stage = .entries root out)
    (hnames : ∀ name ∈ names, isEntryName name = true)
    (hall : ∀ name, isEntryName name = true →
      host.entry s.files.volume (pathOf (joinPath root name)) = some .file → name ∈ names) :
    Panel.Inv services host v₀ { s with
      stage := .next ((host.dirFiles s.files.volume root names).foldl PanelHost.push out) } := by
  have hstage := h.stage
  rw [hs] at hstage
  obtain ⟨hflat, hdone⟩ := hstage
  refine ⟨h.kept, h.began, ?_, h.done, h.since⟩
  show host.Listed services s.began (s.done.map MuxSummary.path ++ _)
  rw [hdone, List.map_nil, List.nil_append]
  refine hflat.listed (fun i hi => ?_) hnames hall
  obtain ⟨n, hn⟩ := Option.isSome_iff_exists.1 hi
  obtain ⟨-, -, file, -, -, hfile, -⟩ := h.names hapart hn
  rw [hfile]
  rfl

/-- **What is read comes next in the file**, or the file is at its end. -/
theorem Inv.read (h : s.Inv services host v₀) {raw : String} {path : FilePath} {file n : ℕ}
    {got : List UInt8} {todo : List String} (hs : s.stage = .reading raw path file got todo) :
    Panel.Inv services host v₀
      (match (s.files.volume.contents file).drop got.length with
      | [] => s.finish raw (host.parse services.floats path got) todo
      | rest => { s with stage := .reading raw path file (got ++ rest.take n) todo }) := by
  have hstage := h.stage
  rw [hs] at hstage
  obtain ⟨hunder, htext⟩ := hstage
  -- for a service with a snapshot in place, the file is that of a snapshot
  have hrest {i : ι} {n : ℕ} (hi : services.path i = path) (hn : s.began i = some n) :
      ∃ m snapshot, n ≤ m ∧ (s.files.writers i).channel.get m = some snapshot ∧
        Reader.Sound services v₀ s.files
          ⟨i, file, statusBytes services.floats snapshot, true⟩ ∧
        got ++ (s.files.volume.contents file).drop got.length =
          statusBytes services.floats snapshot := by
    obtain ⟨m, snapshot, hle, hget, hsound, rest, hrest⟩ := htext i n hi hn
    have hwhole : statusBytes services.floats snapshot = s.files.volume.contents file :=
      hsound.finished rfl
    refine ⟨m, snapshot, hle, hget, hsound, ?_⟩
    rw [← hwhole, ← hrest, List.drop_left]
  split
  · rename_i hend
    refine h.finish hunder.listed ?_
    intro i n hpath hn
    have hi : services.path i = path := by
      refine Subtype.ext (Eq.trans ?_ hunder.isPath)
      rw [← hpath]
      cases host.parse services.floats path got <;> rfl
    refine ⟨fun _ => ?_, fun hjson => absurd (hi ▸ hunder.json) hjson⟩
    obtain ⟨m, snapshot, hle, hget, -, hall⟩ := hrest hi hn
    rw [hend, List.append_nil] at hall
    rw [hall]
    exact ⟨m, snapshot, hle, hget, shows_parse raw path snapshot⟩
  · refine ⟨h.kept, h.began, ⟨⟨hunder.listed, hunder.isPath, hunder.json⟩, ?_⟩, h.done, h.since⟩
    intro i k hi hn
    obtain ⟨m, snapshot, hle, hget, hsound, hall⟩ := hrest hi hn
    refine ⟨m, snapshot, hle, hget, hsound, ?_⟩
    rw [← hall, List.prefix_append_right_inj]
    exact List.take_prefix n _

variable [DecidableEq ι]

/-- **Every step keeps the invariant**, where a listing is whole. -/
theorem Inv.step (h : s.Inv services host v₀) (hapart : services.Apart) {event : PanelEvent ι}
    (hlists : host.Lists s event) (hstep : s.step services host event = some s') :
    s'.Inv services host v₀ := by
  cases event with
  | files event =>
    obtain ⟨files', hfiles, rfl⟩ := Option.map_eq_some_iff.1 hstep
    exact h.daemon hapart hfiles
  | go => exact h.go hapart hstep
  | list names =>
    unfold Panel.step at hstep
    dsimp only at hstep
    split at hstep
    · rename_i root out hs
      cases hstep
      have hstage := h.stage
      rw [hs] at hstage
      obtain ⟨hnames, hall⟩ := hlists root hstage.1.isRoot
      exact h.list hapart hs hnames hall
    · cases hstep
  | read n =>
    unfold Panel.step at hstep
    dsimp only at hstep
    split at hstep
    · rename_i raw path file got todo hs
      split_ifs at hstep
      have hread := h.read (n := n) hs
      split at hstep
      · rename_i hend
        cases hstep
        rw [hend] at hread
        exact hread
      · rename_i hmore
        cases hstep
        split at hread
        · exact absurd ‹_› hmore
        · exact hread
    · cases hstep

end Panel

end Status

end VcOperator
