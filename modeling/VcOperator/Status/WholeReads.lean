import VcOperator.Status.Helpers.Writers
/-!
# What is read of a status file

A snapshot is written beside the status file and takes its name when it is
complete. So whoever reads the file gets one snapshot, and all of it, if no
two services get in each other's way. That they do not is a matter of the
paths alone.
-/

namespace VcOperator

namespace Status

variable {ι : Type} {services : Services ι} {v₀ : Volume FilePath UInt8} {s s' : Files ι} {i j : ι}

/-! ## The texts of snapshots -/

/-- The text of a snapshot is longer than one byte. -/
theorem two_le_length_statusBytes (floats : Json.Floats) (snapshot : EncodableSnapshot) :
    2 ≤ (statusBytes floats snapshot).length := by
  have hopen : ∃ rest, (statusFile floats snapshot).toList = '\x7b' :: '\n' :: rest := by
    rw [statusFile, Json.toVecPretty, Snapshot.members, Json.pretty, String.toList_ofList,
      Json.newline]
    exact ⟨_, rfl⟩
  obtain ⟨rest, hrest⟩ := hopen
  rw [statusBytes, Utf8.toList_toUTF8, hrest, List.flatMap_cons, List.flatMap_cons]
  have hbrace : (String.utf8EncodeChar '\x7b').length = 1 := by decide
  have hnewline : (String.utf8EncodeChar '\n').length = 1 := by decide
  rw [List.length_append, List.length_append, hbrace, hnewline]
  omega

/-- A snapshot of a running service with so many restarts. -/
def EncodableSnapshot.restarted (snapshot : EncodableSnapshot) (restarts : Fin 3) :
    EncodableSnapshot :=
  ⟨{ snapshot.1 with serverStatus := .running, restarts := restarts },
    { snapshot.2 with restarts := by dsimp only; omega }⟩

/-- Snapshots with different counts have different texts. -/
theorem statusBytes_restarted_injective (floats : Json.Floats) (snapshot : EncodableSnapshot) :
    Function.Injective fun n => statusBytes floats (snapshot.restarted n) := by
  intro m n h
  have htext :
      statusFile floats (snapshot.restarted m) = statusFile floats (snapshot.restarted n) :=
    OsString.ofString_injective (congrArg OsString.mk h)
  have hread := congrArg (MuxStatusSnapshot.fromJson floats) htext
  rw [fromJson_statusFile, fromJson_statusFile] at hread
  have hrestarts := congrArg (Option.map MuxStatusSnapshot.restarts) hread
  have heq : (m : ℕ) = n := Option.some.inj hrestarts
  exact Fin.ext heq

/-- One of these texts is neither of two others. -/
theorem exists_fresh (floats : Json.Floats) (snapshot : EncodableSnapshot)
    (old : Option (List UInt8)) (text : List UInt8) : ∃ n,
    some (statusBytes floats (snapshot.restarted n)) ≠ old ∧
      statusBytes floats (snapshot.restarted n) ≠ text := by
  have hinj := statusBytes_restarted_injective floats snapshot
  by_contra hnone
  have hall (n : Fin 3) : some (statusBytes floats (snapshot.restarted n)) = old ∨
      statusBytes floats (snapshot.restarted n) = text :=
    or_iff_not_imp_left.2 fun hold => not_not.1 fun htext => hnone ⟨n, hold, htext⟩
  have h01 :
      statusBytes floats (snapshot.restarted 0) ≠ statusBytes floats (snapshot.restarted 1) :=
    fun heq => absurd (hinj heq) (by decide)
  have h02 :
      statusBytes floats (snapshot.restarted 0) ≠ statusBytes floats (snapshot.restarted 2) :=
    fun heq => absurd (hinj heq) (by decide)
  have h12 :
      statusBytes floats (snapshot.restarted 1) ≠ statusBytes floats (snapshot.restarted 2) :=
    fun heq => absurd (hinj heq) (by decide)
  have h0 := hall 0
  have h1 := hall 1
  have h2 := hall 2
  grind

/-! ## Runs of one writer, and of one reader -/

section Runs

variable [DecidableEq ι]

/-- A snapshot is published. -/
theorem exists_published (services : Services ι) (s : Files ι) (i : ι)
    (snapshot : EncodableSnapshot) : ∃ s',
    Run.Reach (Files.step services) Run.Any s s' ∧
      s'.writers = Function.update s.writers i ((s.writers i).told snapshot) :=
  ⟨_, Run.Reach.init.step trivial (l := .publish i snapshot) rfl, rfl⟩

/-- A writer opens its temporary file. -/
theorem exists_opened (services : Services ι) (hstage : (s.writers i).stage = .borrow) :
    ∃ s' file,
    Run.Reach (Files.step services) Run.Any s s' ∧
      s'.writers = Function.update s.writers i
        { s.writers i with stage := .writeTmp (s.writers i).channel.version file 0 } ∧
      s'.volume.names (services.path i).tmp = some file ∧ s'.volume.contents file = [] ∧
      ∀ p, p ≠ (services.path i).tmp → s'.volume.names p = s.volume.names p := by
  have hborrow : Files.step services s (.writer i .ok) = some { s with
      writers := Function.update s.writers i
        { s.writers i with stage := .createDir (s.writers i).channel.version } } := by
    simp [Files.step, Writer.proceed, hstage]
  have hdir : Files.step services { s with
      writers := Function.update s.writers i
        { s.writers i with stage := .createDir (s.writers i).channel.version } } (.writer i .ok) =
      some { s with
        writers := Function.update s.writers i
          { s.writers i with stage := .openTmp (s.writers i).channel.version } } := by
    simp [Files.step, Writer.proceed]
  have hopen : Files.step services { s with
      writers := Function.update s.writers i
        { s.writers i with stage := .openTmp (s.writers i).channel.version } } (.writer i .ok) =
      some { s with
        volume := (s.volume.create (services.path i).tmp).1
        writers := Function.update s.writers i
          { s.writers i with
            stage := .writeTmp (s.writers i).channel.version
              (s.volume.create (services.path i).tmp).2 0 } } := by
    simp [Files.step, Writer.proceed]
  refine ⟨_, (s.volume.create (services.path i).tmp).2,
    ((Run.Reach.init.step trivial hborrow).step trivial hdir).step trivial hopen, rfl,
    Volume.create_names_self, Volume.create_contents_self, ?_⟩
  intro p hp
  exact Volume.create_names_of_ne hp

/-- It writes the first bytes. -/
theorem exists_wrote {n file k : ℕ} (hstage : (s.writers i).stage = .writeTmp n file 0)
    (hempty : s.volume.contents file = []) (hpos : 0 < k)
    (hle : k ≤ ((s.writers i).bytes services.floats n).length) : ∃ s',
    Run.Reach (Files.step services) Run.Any s s' ∧
      s'.writers = Function.update s.writers i { s.writers i with
        stage := if k = ((s.writers i).bytes services.floats n).length then .rename n
          else .writeTmp n file k } ∧
      s'.volume.names = s.volume.names ∧
      s'.volume.contents file = ((s.writers i).bytes services.floats n).take k := by
  have hwrite : Files.step services s (.writer i (.wrote k)) = some { s with
      volume := s.volume.write 0 file 0 (((s.writers i).bytes services.floats n).take k)
      writers := Function.update s.writers i { s.writers i with
        stage := if k = ((s.writers i).bytes services.floats n).length then .rename n
          else .writeTmp n file k } } := by
    simp [Files.step, Writer.proceed, hstage, hpos, hle]
  refine ⟨_, Run.Reach.init.step trivial hwrite, rfl, rfl, ?_⟩
  rw [Volume.write_contents_end (by rw [hempty]; rfl), hempty, List.nil_append]

/-- It puts the temporary file in place. -/
theorem exists_renamed {n file : ℕ} (hstage : (s.writers i).stage = .rename n)
    (hfile : s.volume.names (services.path i).tmp = some file)
    (hne : (services.path i).tmp ≠ services.path i) : ∃ s',
    Run.Reach (Files.step services) Run.Any s s' ∧
      s'.writers = Function.update s.writers i
        { (s.writers i).returned true with shown := some n } ∧
      s'.volume.names (services.path i) = some file ∧
      s'.volume.contents = s.volume.contents := by
  have hsome : (s.volume.rename (services.path i).tmp (services.path i)).isSome := by
    rw [Volume.isSome_rename_iff, hfile]
    rfl
  obtain ⟨v', hv'⟩ := Option.isSome_iff_exists.1 hsome
  have hrename : Files.step services s (.writer i .ok) = some { s with
      volume := v'
      writers := Function.update s.writers i
        { (s.writers i).returned true with shown := some n } } := by
    simp [Files.step, Writer.proceed, hstage, hv']
  obtain ⟨f, hf, hnames, hcontents, -⟩ := Volume.rename_of_ne hne hv'
  refine ⟨_, Run.Reach.init.step trivial hrename, rfl, ?_, hcontents⟩
  dsimp only
  rw [hnames, Function.update_self, ← hf, hfile]

/-- Someone reads a status file from its beginning to its end. -/
theorem exists_read {file : ℕ} (hfile : s.volume.names (services.path j) = some file) : ∃ s',
    Run.Reach (Files.step services) Run.Any s s' ∧ s'.writers = s.writers ∧
      ⟨j, file, s.volume.contents file, true⟩ ∈ s'.readers := by
  have hopen : Files.step services s (.openStatus j) = some { s with
      readers := s.readers ++ [⟨j, file, [], false⟩] } := by
    simp [Files.step, hfile]
  have hend (got : List UInt8) (hgot : got = s.volume.contents file) : Files.step services
      { s with readers := s.readers ++ [⟨j, file, got, false⟩] } (.read s.readers.length 1) =
      some { s with readers := s.readers ++ [⟨j, file, got, true⟩] } := by
    simp [Files.step, Reader.advance, hgot]
  cases hcontents : s.volume.contents file with
  | nil =>
    refine ⟨_, (Run.Reach.init.step trivial hopen).step trivial (hend [] hcontents.symm), rfl, ?_⟩
    simp
  | cons byte rest =>
    have hread : Files.step services
        { s with readers := s.readers ++ [⟨j, file, [], false⟩] }
        (.read s.readers.length (s.volume.contents file).length) =
        some { s with readers := s.readers ++ [⟨j, file, s.volume.contents file, false⟩] } := by
      simp [Files.step, Reader.advance, hcontents]
    refine ⟨_, ((Run.Reach.init.step trivial hopen).step trivial hread).step trivial
      (hend _ rfl), rfl, ?_⟩
    rw [← hcontents]
    simp

/-- A writer is stopped when its temporary file holds a given text at most by one byte. -/
theorem exists_torn (services : Services ι) (s : Files ι) (i : ι)
    (hstage : (s.writers i).stage = .borrow)
    (hversion : ((s.writers i).channel.get (s.writers i).channel.version).isSome)
    (old : Option (List UInt8)) : ∃ s' file,
    Run.Reach (Files.step services) Run.Any s s' ∧
      s'.volume.names (services.path i).tmp = some file ∧
      (s'.volume.contents file).length ≤ 1 ∧ some (s'.volume.contents file) ≠ old ∧
      ∀ j, j ≠ i → s'.writers j = s.writers j := by
  obtain ⟨s₁, file, hreach₁, hwriters₁, hfile₁, hempty, -⟩ :=
    exists_opened services hstage
  have hothers {s₂ : Files ι} {w : Writer} (h : s₂.writers = Function.update s₁.writers i w) :
      ∀ j, j ≠ i → s₂.writers j = s.writers j := by
    intro j hj
    rw [h, Function.update_of_ne hj, hwriters₁, Function.update_of_ne hj]
  by_cases hold : old = some []
  · -- where the file was empty, one byte is written
    have hbytes : 2 ≤ ((s₁.writers i).bytes services.floats
        (s.writers i).channel.version).length := by
      obtain ⟨snapshot, hsnapshot⟩ := Option.isSome_iff_exists.1 hversion
      rw [hwriters₁, Function.update_self, Writer.bytes, hsnapshot]
      exact two_le_length_statusBytes _ _
    have hstage₁ : (s₁.writers i).stage =
        .writeTmp (s.writers i).channel.version file 0 := by
      rw [hwriters₁, Function.update_self]
    obtain ⟨s₂, hreach₂, hwriters₂, hnames₂, hcontents₂⟩ :=
      exists_wrote (k := 1) hstage₁ hempty Nat.one_pos (Nat.le_of_succ_le hbytes)
    have hlength : (s₂.volume.contents file).length = 1 := by
      rw [hcontents₂, List.length_take]
      omega
    refine ⟨s₂, file, hreach₁.trans hreach₂, by rw [hnames₂, hfile₁], Nat.le_of_eq hlength, ?_,
      hothers hwriters₂⟩
    rw [hold]
    intro heq
    rw [Option.some.inj heq] at hlength
    cases hlength
  · refine ⟨s₁, file, hreach₁, hfile₁, by rw [hempty]; exact Nat.zero_le _, ?_, ?_⟩
    · rw [hempty]
      exact fun heq => hold heq.symm
    · intro j hj
      rw [hwriters₁, Function.update_of_ne hj]

/-- A writer puts its newest snapshot in place. -/
theorem exists_complete (services : Services ι) (s : Files ι) (i : ι)
    (hstage : (s.writers i).stage = .borrow) {snapshot : EncodableSnapshot}
    (hversion : (s.writers i).channel.get (s.writers i).channel.version = some snapshot) :
    ∃ s' file, Run.Reach (Files.step services) Run.Any s s' ∧
      s'.writers = Function.update s.writers i
        { s.writers i with stage := .rename (s.writers i).channel.version } ∧
      s'.volume.names (services.path i).tmp = some file ∧
      s'.volume.contents file = statusBytes services.floats snapshot := by
  obtain ⟨s₁, file, hreach₁, hwriters₁, hfile₁, hempty, -⟩ :=
    exists_opened services hstage
  have hbytes : (s₁.writers i).bytes services.floats (s.writers i).channel.version =
      statusBytes services.floats snapshot := by
    rw [hwriters₁, Function.update_self, Writer.bytes, hversion]
    rfl
  have hlength := two_le_length_statusBytes services.floats snapshot
  have hstage₁ : (s₁.writers i).stage = .writeTmp (s.writers i).channel.version file 0 := by
    rw [hwriters₁, Function.update_self]
  obtain ⟨s₂, hreach₂, hwriters₂, hnames₂, hcontents₂⟩ :=
    exists_wrote hstage₁ hempty (by rw [hbytes]; omega) (Nat.le_refl _)
  refine ⟨s₂, file, hreach₁.trans hreach₂, ?_, by rw [hnames₂, hfile₁], ?_⟩
  · rw [hwriters₂, if_pos rfl, hwriters₁, Function.update_idem, Function.update_self]
  · rw [hcontents₂, hbytes, List.take_length]

end Runs

/-! ## The result -/

/-- One byte is no text, but where it was there before. -/
theorem not_isText_of_length {text : List UInt8} (hlength : text.length ≤ 1)
    (hold : some text ≠ v₀.read (services.path j)) : ¬ s.IsText services v₀ j text := by
  rintro (hread | ⟨n, hn⟩)
  · exact hold hread.symm
  · obtain ⟨snapshot, -, hsnapshot⟩ := Option.map_eq_some_iff.1 hn
    have hle := two_le_length_statusBytes services.floats snapshot
    rw [hsnapshot] at hle
    omega

/-- Who has read what is no text has not read a whole one. -/
theorem not_readsWhole {file : ℕ} {text : List UInt8}
    (hmem : ⟨j, file, text, true⟩ ∈ s.readers) (hnot : ¬ s.IsText services v₀ j text) :
    ¬ s.ReadsWhole services v₀ := by
  intro h
  obtain ⟨text', htext', -, hend⟩ := h _ hmem
  have heq : text = text' := hend rfl
  exact hnot (heq ▸ htext')

variable [DecidableEq ι]

/-- **Status files are read whole** in every run, whoever reads them and when, exactly where no
path of a service is one of another. -/
theorem wholeReads_iff_apart (services : Services ι) (v₀ : Volume FilePath UInt8) :
    (∀ s, Run.Reach (Files.step services) Run.Any (Files.init services v₀) s →
      s.ReadsWhole services v₀) ↔ services.Apart := by
  constructor
  · intro h
    have htmp_ne : ∀ i j, (services.path i).tmp ≠ services.path j := by
      -- the status file itself is written
      intro i j heq
      obtain ⟨s₁, file, hreach₁, hfile₁, hlength, hold, -⟩ :=
        exists_torn services (Files.init services v₀) i rfl rfl (v₀.read (services.path j))
      obtain ⟨s₂, hreach₂, -, hmem⟩ := exists_read (heq ▸ hfile₁)
      exact not_readsWhole hmem (not_isText_of_length hlength hold)
        (h s₂ (hreach₁.trans hreach₂))
    constructor
    · -- the snapshot of another service is put in place
      intro i j heq
      by_contra hij
      obtain ⟨n, hold, hfirst⟩ := exists_fresh services.floats (services.first i)
        (v₀.read (services.path j)) (statusBytes services.floats (services.first j))
      obtain ⟨s₀, hreach₀, hwriters₀⟩ := exists_published services
        (Files.init services v₀) i ((services.first i).restarted n)
      obtain ⟨s₁, file, hreach₁, hwriters₁, hfile₁, hcontents₁⟩ :=
        exists_complete services s₀ i (by rw [hwriters₀, Function.update_self]; rfl)
          (show _ = some ((services.first i).restarted n) by
            rw [hwriters₀, Function.update_self]; rfl)
      obtain ⟨s₂, hreach₂, hwriters₂, hfile₂, hcontents₂⟩ :=
        exists_renamed (by rw [hwriters₁, Function.update_self]) hfile₁ (htmp_ne i i)
      obtain ⟨s₃, hreach₃, hwriters₃, hmem⟩ := exists_read (heq ▸ hfile₂)
      refine not_readsWhole hmem ?_
        (h s₃ (((hreach₀.trans hreach₁).trans hreach₂).trans hreach₃))
      rw [hcontents₂, hcontents₁]
      rintro (hread | ⟨m, hm⟩)
      · exact hold hread.symm
      · have hji : j ≠ i := Ne.symm hij
        rw [hwriters₃, hwriters₂, Function.update_of_ne hji, hwriters₁,
          Function.update_of_ne hji, hwriters₀, Function.update_of_ne hji] at hm
        obtain ⟨snapshot, hget, hsnapshot⟩ := Option.map_eq_some_iff.1 hm
        obtain rfl : snapshot = services.first j :=
          List.mem_singleton.1 (Watch.mem_of_get _ hget)
        exact hfirst hsnapshot.symm
    · -- another service truncates the temporary file before it is renamed
      intro i j heq
      by_contra hij
      dsimp only at heq
      obtain ⟨s₁, file₁, hreach₁, hwriters₁, -, -⟩ :=
        exists_complete services (Files.init services v₀) j rfl
          (show _ = some (services.first j) from rfl)
      obtain ⟨s₂, file, hreach₂, hfile₂, hlength, hold, hothers⟩ :=
        exists_torn services s₁ i
          (by rw [hwriters₁, Function.update_of_ne hij]; rfl)
          (by rw [hwriters₁, Function.update_of_ne hij]; rfl) (v₀.read (services.path j))
      obtain ⟨s₃, hreach₃, -, hfile₃, hcontents₃⟩ :=
        exists_renamed
          (by rw [hothers j (Ne.symm hij), hwriters₁, Function.update_self]) (heq ▸ hfile₂)
          (htmp_ne j j)
      obtain ⟨s₄, hreach₄, -, hmem⟩ := exists_read hfile₃
      rw [hcontents₃] at hmem
      exact not_readsWhole hmem (not_isText_of_length hlength hold)
        (h s₄ (((hreach₁.trans hreach₂).trans hreach₃).trans hreach₄))
    · exact htmp_ne
  · intro hapart s hreach
    exact (kept_of_reach hapart hreach).readsWhole

end Status

end VcOperator
