import VcOperator.Status.Mirror
import VcOperator.Status.Model.Writer
/-!
# The writers of several services

What an operation of a writer does to the volume, and the invariant of all
writers and readers where no path of a service is one of another: what is at
a status file is what its writer has put in place, and no file that is read
is written.
-/

namespace VcOperator

namespace Status

variable {ι : Type} {services : Services ι}

/-- **No path of a service is one of another**, the temporary ones included. -/
structure Services.Apart (services : Services ι) : Prop where
  paths : Function.Injective services.path
  tmps : Function.Injective fun i => (services.path i).tmp
  tmp_ne : ∀ i j, (services.path i).tmp ≠ services.path j

/-- What is at a status file: what was there before, until the first snapshot is. -/
def Files.held (services : Services ι) (v₀ : Volume FilePath UInt8) (s : Files ι) (i : ι) :
    Option (List UInt8) :=
  match (s.writers i).shown with
  | none => v₀.read (services.path i)
  | some n => ((s.writers i).channel.get n).map (statusBytes services.floats)

/-- A text of a service: what was at its status file before, or a snapshot it has published. -/
def Files.IsText (services : Services ι) (v₀ : Volume FilePath UInt8) (s : Files ι) (i : ι)
    (text : List UInt8) : Prop :=
  v₀.read (services.path i) = some text ∨
    ∃ n, ((s.writers i).channel.get n).map (statusBytes services.floats) = some text

/-- **Whole reads**: what is read of a status file is the beginning of one text of its service,
and all of it at the end. -/
def Files.ReadsWhole (services : Services ι) (v₀ : Volume FilePath UInt8) (s : Files ι) : Prop :=
  ∀ r ∈ s.readers, ∃ text, s.IsText services v₀ r.service text ∧ r.got <+: text ∧
    (r.finished → r.got = text)

/-! ## What a writer does -/

/-- What a writer has put aside. -/
def Writer.Aside (floats : Json.Floats) (path : FilePath) (volume : Volume FilePath UInt8)
    (w : Writer) : Prop :=
  match w.stage with
  | .writeTmp current file written =>
    volume.names path.tmp = some file ∧
      volume.contents file = (w.bytes floats current).take written ∧
      written ≤ (w.bytes floats current).length
  | .rename current =>
    ∃ file, volume.names path.tmp = some file ∧ volume.contents file = w.bytes floats current
  | _ => True

/-- The version a writer is at work on. -/
def Stage.current : Stage → Option ℕ
  | .borrow | .changed => none
  | .createDir n | .openTmp n | .writeTmp n _ _ | .rename n => some n

/-- The versions of a writer are in order. -/
structure Writer.Ordered (w : Writer) : Prop where
  seen : w.seen ≤ w.channel.version
  shown : ∀ n, w.shown = some n → n ≤ w.channel.version
  current : ∀ n, w.stage.current = some n → n ≤ w.channel.version ∧ w.seen ≤ n ∧
    ∀ m, w.shown = some m → m ≤ n
  /-- A writer that waits has put in place what it was told of, if all went through. -/
  rests : w.stage = .changed → w.wentThrough = true → ∃ n, w.shown = some n ∧ w.seen ≤ n

section Proceed

variable {floats : Json.Floats} {path : FilePath} {v v' : Volume FilePath UInt8} {w w' : Writer}
  {outcome : Outcome}

/-- **What an operation of a writer does.** -/
inductive Proceeds (floats : Json.Floats) (path : FilePath) (v : Volume FilePath UInt8)
    (w : Writer) : Volume FilePath UInt8 → Writer → Prop
  /-- Nothing, on the volume. -/
  | aloof {w' : Writer} : w'.channel = w.channel → w'.shown = w.shown →
      w'.Aside floats path v → Proceeds floats path v w v w'
  /-- The temporary file is opened. -/
  | opened {current : ℕ} : w.stage = .openTmp current → Proceeds floats path v w
      (v.create path.tmp).1 { w with stage := .writeTmp current (v.create path.tmp).2 0 }
  /-- A piece of the text is written. -/
  | wrote {current file written n : ℕ} {w' : Writer} : w.stage = .writeTmp current file written →
      written + n ≤ (w.bytes floats current).length → w'.channel = w.channel →
      w'.shown = w.shown →
      w'.stage = (if written + n = (w.bytes floats current).length then .rename current
        else .writeTmp current file (written + n)) →
      Proceeds floats path v w
        (v.write 0 file written (((w.bytes floats current).drop written).take n)) w'
  /-- It takes the name of the status file. -/
  | renamed {current : ℕ} {v' : Volume FilePath UInt8} : w.stage = .rename current →
      v.rename path.tmp path = some v' → Proceeds floats path v w v'
        { w.returned true with shown := some current }

theorem proceeds_of_proceed (h : w.proceed floats path v outcome = some (v', w')) :
    Proceeds floats path v w v' w' := by
  unfold Writer.proceed at h
  split at h
  · cases h
    exact .aloof rfl rfl trivial
  · cases h
    exact .aloof rfl rfl trivial
  · rename_i current hstage
    cases h
    exact .opened hstage
  · rename_i current file written n hstage
    dsimp only at h
    split at h
    · rename_i hn
      cases h
      exact .wrote hstage hn.2 rfl rfl rfl
    · cases h
  · rename_i current hstage
    obtain ⟨renamed, hrenamed, hr⟩ := Option.map_eq_some_iff.1 h
    cases hr
    exact .renamed hstage hrenamed
  · cases h
    exact .aloof rfl rfl trivial
  · cases h
    exact .aloof rfl rfl trivial
  · cases h
    exact .aloof rfl rfl trivial
  · cases h
    exact .aloof rfl rfl trivial
  · split at h
    · cases h
      exact .aloof rfl rfl trivial
    · cases h
  · cases h

/-- **A writer touches its temporary file only.** -/
structure Confined (path : FilePath) (v v' : Volume FilePath UInt8) : Prop where
  contents : ∀ f, f < v.next → v.names path.tmp ≠ some f → v'.contents f = v.contents f
  names : ∀ p, p ≠ path.tmp → p ≠ path → v'.names p = v.names p
  tmp : ∀ f, v'.names path.tmp = some f → v.names path.tmp = some f ∨ v.next ≤ f
  next : v.next ≤ v'.next

theorem Confined.refl (path : FilePath) (v : Volume FilePath UInt8) : Confined path v v :=
  ⟨fun _ _ _ => rfl, fun _ _ _ => rfl, fun _ h => .inl h, Nat.le_refl _⟩

theorem confined_create (path : FilePath) (v : Volume FilePath UInt8) :
    Confined path v (v.create path.tmp).1 := by
  constructor
  · intro f hlt hne
    refine Volume.create_contents_of_ne ?_
    rintro rfl
    rcases Volume.create_snd (v := v) (p := path.tmp) with h | h
    · exact hne h
    · omega
  · intro p hp _
    exact Volume.create_names_of_ne hp
  · intro f hf
    rw [Volume.create_names_self, Option.some.injEq] at hf
    subst hf
    exact Volume.create_snd.imp_right fun h => Nat.le_of_eq h.symm
  · exact Volume.next_le_create

theorem confined_write {file k : ℕ} {bytes : List UInt8} (hfile : v.names path.tmp = some file) :
    Confined path v (v.write 0 file k bytes) := by
  constructor
  · intro f _ hne
    refine Volume.write_contents_of_ne ?_
    rintro rfl
    exact hne hfile
  · exact fun _ _ _ => rfl
  · exact fun _ h => .inl h
  · exact Nat.le_refl _

theorem confined_rename (hne : path.tmp ≠ path) (h : v.rename path.tmp path = some v') :
    Confined path v v' := by
  obtain ⟨f, hf, hnames, hcontents, hnext⟩ := Volume.rename_of_ne hne h
  constructor
  · intro g _ _
    rw [hcontents]
  · intro p htmp hp
    rw [hnames, Function.update_of_ne hp, Function.update_of_ne htmp]
  · intro g hg
    rw [hnames, Function.update_of_ne hne, Function.update_self] at hg
    cases hg
  · exact Nat.le_of_eq hnext.symm

theorem Proceeds.confined (h : Proceeds floats path v w v' w') (hne : path.tmp ≠ path)
    (haside : w.Aside floats path v) : Confined path v v' := by
  cases h with
  | aloof => exact .refl path v
  | opened => exact confined_create path v
  | wrote hstage =>
    rw [Writer.Aside, hstage] at haside
    exact confined_write haside.1
  | renamed _ hrename => exact confined_rename hne hrename

/-- What is put aside stays aside. -/
theorem Proceeds.aside (h : Proceeds floats path v w v' w') (haside : w.Aside floats path v) :
    w'.Aside floats path v' := by
  cases h with
  | aloof _ _ haside' => exact haside'
  | opened =>
    refine ⟨Volume.create_names_self, ?_, Nat.zero_le _⟩
    rw [Volume.create_contents_self, List.take_zero]
  | @wrote current file written n _ hstage hle hchannel _ hstage' =>
    rw [Writer.Aside, hstage] at haside
    obtain ⟨hfile, hcontents, hwritten⟩ := haside
    have hbytes : w'.bytes floats current = w.bytes floats current := by
      rw [Writer.bytes, hchannel, Writer.bytes]
    have hlength : (v.contents file).length = written := by
      rw [hcontents, List.length_take]
      omega
    have hnow : (v.write 0 file written (((w.bytes floats current).drop written).take n)).contents
        file = (w.bytes floats current).take (written + n) := by
      rw [Volume.write_contents_end hlength, hcontents, List.take_add]
    rw [Writer.Aside, hstage']
    split_ifs with hend
    · refine ⟨file, hfile, ?_⟩
      rw [hnow, hbytes, hend, List.take_length]
    · refine ⟨hfile, ?_, ?_⟩
      · rw [hnow, hbytes]
      · rw [hbytes]
        exact hle
  | renamed => trivial

/-- What a writer puts in place is what it was at work on. -/
theorem Proceeds.shown (h : Proceeds floats path v w v' w') (hne : path.tmp ≠ path)
    (haside : w.Aside floats path v) : w'.channel = w.channel ∧
      (w'.shown = w.shown ∧ v'.names path = v.names path ∨
        ∃ n file, w.stage.current = some n ∧ w'.shown = some n ∧ v'.names path = some file ∧
          v'.contents file = w.bytes floats n) := by
  cases h with
  | aloof hchannel hshown => exact ⟨hchannel, .inl ⟨hshown, rfl⟩⟩
  | opened => exact ⟨rfl, .inl ⟨rfl, Volume.create_names_of_ne hne.symm⟩⟩
  | wrote _ _ hchannel hshown => exact ⟨hchannel, .inl ⟨hshown, rfl⟩⟩
  | renamed hstage hrename =>
    rename_i current
    rw [Writer.Aside, hstage] at haside
    obtain ⟨file, hfile, hcontents⟩ := haside
    obtain ⟨f, hf, hnames, hcontents', -⟩ := Volume.rename_of_ne hne hrename
    rw [hfile, Option.some.injEq] at hf
    subst hf
    refine ⟨rfl, .inr ⟨current, file, by rw [hstage]; rfl, rfl, ?_, ?_⟩⟩
    · rw [hnames, Function.update_self]
    · rw [hcontents', hcontents]

/-- A writer that goes on with what it is at work on. -/
theorem Writer.Ordered.goOn (hw : w.Ordered) (hchannel : w'.channel = w.channel)
    (hseen : w'.seen = w.seen) (hshown : w'.shown = w.shown)
    (hcurrent : w'.stage.current = w.stage.current) (hstage : w'.stage ≠ .changed) :
    w'.Ordered := by
  constructor
  · rw [hseen, hchannel]
    exact hw.seen
  · rw [hshown, hchannel]
    exact hw.shown
  · rw [hcurrent, hseen, hshown, hchannel]
    exact hw.current
  · intro h
    exact absurd h hstage

/-- A writer that gives up. -/
theorem Writer.Ordered.failed (hw : w.Ordered) : (w.returned false).Ordered :=
  ⟨hw.seen, hw.shown, nofun, nofun⟩

/-- **The versions stay in order.** -/
theorem Writer.Ordered.proceed (hw : w.Ordered)
    (h : w.proceed floats path v outcome = some (v', w')) : w'.Ordered := by
  unfold Writer.proceed at h
  split at h
  · -- the newest snapshot is taken
    cases h
    refine ⟨hw.seen, hw.shown, ?_, nofun⟩
    intro n hn
    cases hn
    exact ⟨Nat.le_refl _, hw.seen, hw.shown⟩
  · rename_i current hstage
    cases h
    exact hw.goOn rfl rfl rfl (by rw [hstage]; rfl) nofun
  · rename_i current hstage
    cases h
    exact hw.goOn rfl rfl rfl (by rw [hstage]; rfl) nofun
  · rename_i current file written n hstage
    dsimp only at h
    split at h
    · cases h
      refine hw.goOn rfl rfl rfl ?_ ?_
      · rw [hstage]
        dsimp only
        split <;> rfl
      · dsimp only
        split <;> exact nofun
    · cases h
  · -- it is put in place
    rename_i current hstage
    obtain ⟨renamed, -, hr⟩ := Option.map_eq_some_iff.1 h
    cases hr
    have hcurrent := hw.current current (by rw [hstage]; rfl)
    refine ⟨hw.seen, ?_, nofun, fun _ _ => ⟨current, rfl, hcurrent.2.1⟩⟩
    intro n hn
    cases hn
    exact hcurrent.1
  · cases h
    exact hw.failed
  · cases h
    exact hw.failed
  · cases h
    exact hw.failed
  · cases h
    exact hw.failed
  · split at h
    · cases h
      exact ⟨Nat.le_refl _, hw.shown, nofun, nofun⟩
    · cases h
  · cases h

end Proceed

/-! ## All of the services -/

/-- A reader reads a text. -/
structure Reader.Sound (services : Services ι) (v₀ : Volume FilePath UInt8) (s : Files ι)
    (r : Reader ι) : Prop where
  file_lt : r.file < s.volume.next
  /-- No writer has the file open. -/
  tmp_ne : ∀ i, s.volume.names (services.path i).tmp ≠ some r.file
  isText : s.IsText services v₀ r.service (s.volume.contents r.file)
  got : r.got <+: s.volume.contents r.file
  finished : r.finished → r.got = s.volume.contents r.file

/-- **The invariant**: a status file holds what its writer has put in place. -/
structure Files.Kept (services : Services ι) (v₀ : Volume FilePath UInt8) (s : Files ι) :
    Prop where
  ordered : ∀ i, (s.writers i).Ordered
  aside : ∀ i, (s.writers i).Aside services.floats (services.path i) s.volume
  held : ∀ i, s.volume.read (services.path i) = s.held services v₀ i
  readers : ∀ r ∈ s.readers, r.Sound services v₀ s

variable {v₀ : Volume FilePath UInt8} {s s' : Files ι} {i j : ι}

/-- What is at a status file is a text of its service. -/
theorem Files.Kept.isText (h : s.Kept services v₀) {file : ℕ}
    (hfile : s.volume.names (services.path i) = some file) :
    s.IsText services v₀ i (s.volume.contents file) := by
  have hheld := h.held i
  rw [Volume.read, hfile, Option.map_some, Files.held] at hheld
  unfold Files.IsText
  split at hheld
  · exact .inl hheld.symm
  · rename_i n _
    exact .inr ⟨n, hheld.symm⟩

theorem Files.Kept.readsWhole (h : s.Kept services v₀) : s.ReadsWhole services v₀ :=
  fun r hr => ⟨_, (h.readers r hr).isText, (h.readers r hr).got, (h.readers r hr).finished⟩

theorem kept_init (services : Services ι) (v₀ : Volume FilePath UInt8) :
    (Files.init services v₀).Kept services v₀ :=
  ⟨fun _ => ⟨Nat.le_refl _, nofun, nofun, nofun⟩, fun _ => trivial, fun _ => rfl, nofun⟩

/-- A version of a channel keeps its text when there are more. -/
theorem bytes_of_get {floats : Json.Floats} {w w' : Writer} {n : ℕ}
    (h : w'.channel.get n = w.channel.get n) : w'.bytes floats n = w.bytes floats n := by
  rw [Writer.bytes, h, Writer.bytes]

section Publish

variable {w : Writer} {snapshot : EncodableSnapshot}

/-- A writer whose channel has got another value. -/
abbrev Writer.told (w : Writer) (snapshot : EncodableSnapshot) : Writer :=
  { w with channel := w.channel.send snapshot }

theorem Writer.Ordered.told (hw : w.Ordered) (snapshot : EncodableSnapshot) :
    (w.told snapshot).Ordered := by
  have hversion : (w.told snapshot).channel.version = w.channel.version + 1 :=
    w.channel.version_send snapshot
  constructor
  · rw [hversion]
    exact Nat.le_succ_of_le hw.seen
  · intro n hn
    rw [hversion]
    exact Nat.le_succ_of_le (hw.shown n hn)
  · intro n hn
    rw [hversion]
    obtain ⟨hle, hseen, hshown⟩ := hw.current n hn
    exact ⟨Nat.le_succ_of_le hle, hseen, hshown⟩
  · exact hw.rests

theorem Writer.Aside.told {floats : Json.Floats} {path : FilePath} {v : Volume FilePath UInt8}
    (h : w.Aside floats path v) (hw : w.Ordered) (snapshot : EncodableSnapshot) :
    (w.told snapshot).Aside floats path v := by
  have hbytes {n : ℕ} (hn : w.stage.current = some n) :
      (w.told snapshot).bytes floats n = w.bytes floats n :=
    bytes_of_get (w.channel.get_send snapshot (hw.current n hn).1)
  have hstage' : (w.told snapshot).stage = w.stage := rfl
  cases hstage : w.stage with
  | writeTmp current file written =>
    rw [Writer.Aside, hstage] at h
    rw [Writer.Aside, hstage', hstage]
    dsimp only
    rw [hbytes (by rw [hstage]; rfl)]
    exact h
  | rename current =>
    rw [Writer.Aside, hstage] at h
    rw [Writer.Aside, hstage', hstage]
    dsimp only
    rw [hbytes (by rw [hstage]; rfl)]
    exact h
  | borrow | createDir _ | openTmp _ | changed =>
    rw [Writer.Aside, hstage', hstage]
    trivial

end Publish

/-- Who opens a status file has one text before it. -/
theorem Files.Kept.openStatus (h : s.Kept services v₀) (hapart : services.Apart) {file : ℕ}
    (hfile : s.volume.names (services.path i) = some file) :
    Files.Kept services v₀ { s with readers := s.readers ++ [⟨i, file, [], false⟩] } := by
  refine ⟨h.ordered, h.aside, h.held, ?_⟩
  intro r hr
  rcases List.mem_append.1 hr with hr | hr
  · have hsound := h.readers r hr
    exact ⟨hsound.file_lt, hsound.tmp_ne, hsound.isText, hsound.got, hsound.finished⟩
  · rw [List.mem_singleton] at hr
    subst hr
    refine ⟨s.volume.named.lt hfile, ?_, h.isText hfile, List.nil_prefix, nofun⟩
    intro j hj
    exact hapart.tmp_ne j i (s.volume.named.inj hj hfile)

/-- What is read comes next in the text. -/
theorem Reader.Sound.advance {r r' : Reader ι} {n : ℕ} (h : r.Sound services v₀ s)
    (hr : r.advance (s.volume.contents r.file) n = some r') : r'.Sound services v₀ s := by
  unfold Reader.advance at hr
  split at hr
  · cases hr
  · obtain ⟨rest, hrest⟩ := h.got
    have hdrop : (s.volume.contents r.file).drop r.got.length = rest := by
      rw [← hrest, List.drop_left]
    rw [hdrop] at hr
    cases rest with
    | nil =>
      cases hr
      exact ⟨h.file_lt, h.tmp_ne, h.isText, h.got, fun _ => by rw [← hrest, List.append_nil]⟩
    | cons byte rest =>
      cases hr
      refine ⟨h.file_lt, h.tmp_ne, h.isText, ?_, fun hfinished => ?_⟩
      · dsimp only
        rw [← hrest, List.prefix_append_right_inj]
        exact List.take_prefix n _
      · -- a reader that has met the end reads no more
        have hgot := h.finished hfinished
        rw [hgot, List.drop_length] at hdrop
        cases hdrop

variable [DecidableEq ι]

/-- A text of a service stays one when more is published. -/
theorem isText_publish {snapshot : EncodableSnapshot} {text : List UInt8}
    (h : s.IsText services v₀ j text) :
    Files.IsText services v₀ { s with
      writers := Function.update s.writers i ((s.writers i).told snapshot) } j text := by
  refine h.imp_right ?_
  rintro ⟨n, hn⟩
  refine ⟨n, ?_⟩
  dsimp only
  by_cases hij : j = i
  · subst hij
    rw [Function.update_self, Watch.get_send]
    · exact hn
    · refine (Watch.isSome_get_iff _).1 ?_
      obtain ⟨a, ha, -⟩ := Option.map_eq_some_iff.1 hn
      rw [ha]
      rfl
  · rw [Function.update_of_ne hij]
    exact hn

theorem Files.Kept.publish (h : s.Kept services v₀) (i : ι) (snapshot : EncodableSnapshot) :
    Files.Kept services v₀ { s with
      writers := Function.update s.writers i ((s.writers i).told snapshot) } := by
  constructor
  · intro j
    dsimp only
    rw [Function.update_apply]
    split
    · exact (h.ordered i).told snapshot
    · exact h.ordered j
  · intro j
    dsimp only
    by_cases hij : j = i
    · subst hij
      rw [Function.update_self]
      exact (h.aside j).told (h.ordered j) snapshot
    · rw [Function.update_of_ne hij]
      exact h.aside j
  · intro j
    have hheld := h.held j
    rw [Files.held] at hheld ⊢
    dsimp only
    by_cases hij : j = i
    · subst hij
      rw [Function.update_self]
      cases hshown : (s.writers j).shown with
      | none =>
        rw [hshown] at hheld
        exact hheld
      | some n =>
        rw [hshown] at hheld
        dsimp only at hheld ⊢
        rw [Watch.get_send _ _ ((h.ordered j).shown n hshown)]
        exact hheld
    · rw [Function.update_of_ne hij]
      exact hheld
  · intro r hr
    have hsound := h.readers r hr
    exact ⟨hsound.file_lt, hsound.tmp_ne, isText_publish hsound.isText, hsound.got,
      hsound.finished⟩

/-- **A step of a writer** leaves what the others have, and what is being read. -/
theorem Files.Kept.writer (h : s.Kept services v₀) (hapart : services.Apart) {outcome : Outcome}
    {v' : Volume FilePath UInt8} {w' : Writer}
    (hproceed : (s.writers i).proceed services.floats (services.path i) s.volume outcome =
      some (v', w')) :
    Files.Kept services v₀
      { s with volume := v', writers := Function.update s.writers i w' } := by
  have hp := proceeds_of_proceed hproceed
  have hne := hapart.tmp_ne i i
  have hconfined := hp.confined hne (h.aside i)
  obtain ⟨hchannel, hshown⟩ := hp.shown hne (h.aside i)
  -- a file with another name is not the temporary file
  have hcontents {p : FilePath} {f : ℕ} (hne : (services.path i).tmp ≠ p)
      (hf : s.volume.names p = some f) : v'.contents f = s.volume.contents f :=
    hconfined.contents f (s.volume.named.lt hf) fun htmp => hne (s.volume.named.inj htmp hf)
  have htext {j : ι} {text : List UInt8} (ht : s.IsText services v₀ j text) :
      Files.IsText services v₀
        { s with volume := v', writers := Function.update s.writers i w' } j text := by
    refine ht.imp_right ?_
    rintro ⟨n, hn⟩
    refine ⟨n, ?_⟩
    dsimp only
    rw [Function.update_apply]
    split
    · rename_i hij
      rw [hchannel, ← hij]
      exact hn
    · exact hn
  constructor
  · intro j
    dsimp only
    rw [Function.update_apply]
    split
    · exact (h.ordered i).proceed hproceed
    · exact h.ordered j
  · intro j
    dsimp only
    by_cases hij : j = i
    · subst hij
      rw [Function.update_self]
      exact hp.aside (h.aside j)
    · rw [Function.update_of_ne hij]
      have htmp : (services.path i).tmp ≠ (services.path j).tmp :=
        fun heq => hij (hapart.tmps heq).symm
      have hnames := hconfined.names (services.path j).tmp htmp.symm (hapart.tmp_ne j i)
      have haside := h.aside j
      unfold Writer.Aside at haside ⊢
      split at haside
      · obtain ⟨hfile, hrest⟩ := haside
        rw [hnames, hcontents htmp hfile]
        exact ⟨hfile, hrest⟩
      · obtain ⟨file, hfile, hrest⟩ := haside
        refine ⟨file, by rw [hnames, hfile], ?_⟩
        rw [hcontents htmp hfile, hrest]
      · trivial
  · intro j
    have hread {p : FilePath} (hne : (services.path i).tmp ≠ p)
        (hnames : v'.names p = s.volume.names p) : v'.read p = s.volume.read p := by
      rw [Volume.read, Volume.read, hnames]
      cases hf : s.volume.names p with
      | none => rfl
      | some f => rw [Option.map_some, Option.map_some, hcontents hne hf]
    have hheld := h.held j
    rw [Files.held] at hheld ⊢
    dsimp only
    by_cases hij : j = i
    · subst hij
      rw [Function.update_self, hchannel]
      rcases hshown with ⟨hshown, hnames⟩ | ⟨n, file, hcurrent, hshown, hfile, hbytes⟩
      · rw [hread (hapart.tmp_ne j j) hnames, hshown]
        exact hheld
      · have hle := ((h.ordered j).current n hcurrent).1
        obtain ⟨snapshot, hsnapshot⟩ :=
          Option.isSome_iff_exists.1 ((Watch.isSome_get_iff _).2 hle)
        rw [Volume.read, hfile, hshown, Option.map_some, hbytes, Writer.bytes]
        dsimp only
        rw [hsnapshot]
        rfl
    · rw [Function.update_of_ne hij,
        hread (hapart.tmp_ne i j) (hconfined.names _ (hapart.tmp_ne i j).symm
          fun heq => hij (hapart.paths heq))]
      exact hheld
  · intro r hr
    have hsound := h.readers r hr
    have hsame : v'.contents r.file = s.volume.contents r.file :=
      hconfined.contents r.file hsound.file_lt (hsound.tmp_ne i)
    refine ⟨Nat.lt_of_lt_of_le hsound.file_lt hconfined.next, ?_, ?_, ?_, ?_⟩
    · intro j hj
      dsimp only at hj
      by_cases hij : j = i
      · subst hij
        rcases hconfined.tmp _ hj with hold | hnew
        · exact hsound.tmp_ne j hold
        · exact absurd hsound.file_lt (Nat.not_lt.2 hnew)
      · rw [hconfined.names _ (fun heq => hij (hapart.tmps heq)) (hapart.tmp_ne j i)] at hj
        exact hsound.tmp_ne j hj
    · dsimp only
      rw [hsame]
      exact htext hsound.isText
    · dsimp only
      rw [hsame]
      exact hsound.got
    · dsimp only
      rw [hsame]
      exact hsound.finished

/-- **Every step keeps the invariant.** -/
theorem Files.Kept.step (h : s.Kept services v₀) (hapart : services.Apart) {event : Event ι}
    (hstep : s.step services event = some s') : s'.Kept services v₀ := by
  cases event with
  | publish i snapshot =>
    cases hstep
    exact h.publish i snapshot
  | writer i outcome =>
    obtain ⟨⟨v', w'⟩, hproceed, hs'⟩ := Option.map_eq_some_iff.1 hstep
    cases hs'
    exact h.writer hapart hproceed
  | openStatus i =>
    obtain ⟨file, hfile, hs'⟩ := Option.map_eq_some_iff.1 hstep
    cases hs'
    exact h.openStatus hapart hfile
  | read k n =>
    obtain ⟨r, hr, hmap⟩ := Option.bind_eq_some_iff.1 hstep
    obtain ⟨r', hr', hs'⟩ := Option.map_eq_some_iff.1 hmap
    cases hs'
    refine ⟨h.ordered, h.aside, h.held, ?_⟩
    intro r₁ hr₁
    rcases List.mem_or_eq_of_mem_set hr₁ with hr₁ | rfl
    · have hsound := h.readers r₁ hr₁
      exact ⟨hsound.file_lt, hsound.tmp_ne, hsound.isText, hsound.got, hsound.finished⟩
    · have hsound := (h.readers r (List.mem_of_getElem? hr)).advance hr'
      exact ⟨hsound.file_lt, hsound.tmp_ne, hsound.isText, hsound.got, hsound.finished⟩

theorem kept_of_reach (hapart : services.Apart)
    (h : Run.Reach (Files.step services) Run.Any (Files.init services v₀) s) :
    s.Kept services v₀ :=
  h.invariant (I := Files.Kept services v₀) (kept_init services v₀)
    fun _ _ _ _ hkept hstep => hkept.step hapart hstep

end Status

end VcOperator
