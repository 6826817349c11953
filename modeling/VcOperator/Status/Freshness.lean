import VcOperator.Status.WholeReads
/-!
# How a status file follows its service

A writer takes the newest snapshot of its channel, whatever it has missed,
so the status file never goes back to an earlier one, and holds the last one
when its writer has nothing more to do.
-/

namespace VcOperator

namespace Status

section Proceed

variable {floats : Json.Floats} {path : FilePath} {v v' : Volume FilePath UInt8} {w w' : Writer}
  {outcome : Outcome}

/-- A writer waits for a snapshot it was not told of. -/
def Writer.Rests (floats : Json.Floats) (path : FilePath) (v : Volume FilePath UInt8)
    (w : Writer) : Prop :=
  ∀ outcome, w.proceed floats path v outcome = none

theorem Writer.rests_iff :
    w.Rests floats path v ↔ w.stage = .changed ∧ w.channel.version ≤ w.seen := by
  constructor
  · intro h
    cases hstage : w.stage with
    | borrow =>
      have hok := h .ok
      simp [Writer.proceed, hstage] at hok
    | createDir _ | openTmp _ | writeTmp _ _ _ | rename _ =>
      -- each of these may fail
      have hfailed := h .failed
      simp [Writer.proceed, hstage] at hfailed
    | changed =>
      have hok := h .ok
      simp only [Writer.proceed, hstage] at hok
      split_ifs at hok with hlt
      exact ⟨rfl, Nat.not_lt.1 hlt⟩
  · rintro ⟨hstage, hle⟩ outcome
    cases outcome with
    | ok =>
      simp only [Writer.proceed, hstage]
      exact if_neg (Nat.not_lt.2 hle)
    | failed | wrote _ => simp [Writer.proceed, hstage]

/-- An operation leaves in place what is there, or puts a later snapshot there. -/
theorem Writer.Ordered.shown_proceed (hw : w.Ordered)
    (h : w.proceed floats path v outcome = some (v', w')) {n : ℕ} (hn : w.shown = some n) :
    ∃ m, w'.shown = some m ∧ n ≤ m := by
  cases proceeds_of_proceed h with
  | aloof _ hshown | wrote _ _ _ hshown => exact ⟨n, by rw [hshown, hn], Nat.le_refl n⟩
  | opened => exact ⟨n, hn, Nat.le_refl n⟩
  | renamed hstage =>
    rename_i current _
    have hcurrent : w.stage.current = some current := by
      rw [hstage]
      rfl
    exact ⟨current, rfl, (hw.current current hcurrent).2.2 n hn⟩

end Proceed

variable {ι : Type} [DecidableEq ι] {services : Services ι} {v₀ : Volume FilePath UInt8}
  {s s' : Files ι}

/-- **A step never takes a status file back.** -/
theorem Files.Kept.shown_step (h : s.Kept services v₀) {event : Event ι}
    (hstep : s.step services event = some s') (i : ι) {n : ℕ}
    (hn : (s.writers i).shown = some n) : ∃ m, (s'.writers i).shown = some m ∧ n ≤ m := by
  cases event with
  | publish j snapshot =>
    cases hstep
    refine ⟨n, ?_, Nat.le_refl n⟩
    dsimp only
    by_cases hij : i = j
    · subst hij
      rw [Function.update_self]
      exact hn
    · rw [Function.update_of_ne hij]
      exact hn
  | writer j outcome =>
    obtain ⟨⟨v', w'⟩, hproceed, hs'⟩ := Option.map_eq_some_iff.1 hstep
    cases hs'
    dsimp only
    by_cases hij : i = j
    · subst hij
      rw [Function.update_self]
      exact (h.ordered i).shown_proceed hproceed hn
    · rw [Function.update_of_ne hij]
      exact ⟨n, hn, Nat.le_refl n⟩
  | openStatus j =>
    obtain ⟨file, -, hs'⟩ := Option.map_eq_some_iff.1 hstep
    cases hs'
    exact ⟨n, hn, Nat.le_refl n⟩
  | read k count =>
    obtain ⟨r, -, hmap⟩ := Option.bind_eq_some_iff.1 hstep
    obtain ⟨r', -, hs'⟩ := Option.map_eq_some_iff.1 hmap
    cases hs'
    exact ⟨n, hn, Nat.le_refl n⟩

/-- So no run does. -/
theorem Files.Kept.shown_reach (hapart : services.Apart) (h : s.Kept services v₀)
    (hreach : Run.Reach (Files.step services) Run.Any s s') (i : ι) {n : ℕ}
    (hn : (s.writers i).shown = some n) : ∃ m, (s'.writers i).shown = some m ∧ n ≤ m := by
  have hboth : s'.Kept services v₀ ∧ ∃ m, (s'.writers i).shown = some m ∧ n ≤ m := by
    refine hreach.invariant
      (I := fun t => t.Kept services v₀ ∧ ∃ m, (t.writers i).shown = some m ∧ n ≤ m)
      ⟨h, n, hn, Nat.le_refl n⟩ ?_
    rintro t event t' - ⟨hkept, m, hm, hnm⟩ hstep
    obtain ⟨m', hm', hle⟩ := hkept.shown_step hstep i hm
    exact ⟨hkept.step hapart hstep, m', hm', Nat.le_trans hnm hle⟩
  exact hboth.2

/-- Where a writer rests and its last snapshot went through, that is the newest one. -/
theorem Writer.Ordered.shown_rests {w : Writer} (hw : w.Ordered) {floats : Json.Floats}
    {path : FilePath} {v : Volume FilePath UInt8} (hrests : w.Rests floats path v)
    (hthrough : w.wentThrough = true) : w.shown = some w.channel.version := by
  obtain ⟨hchanged, hle⟩ := Writer.rests_iff.1 hrests
  obtain ⟨n, hn, hseen⟩ := hw.rests hchanged hthrough
  have heq : n = w.channel.version :=
    Nat.le_antisymm (hw.shown n hn) (Nat.le_trans hle hseen)
  rw [hn, heq]

/-- **A status file follows its service.** It never goes back to an earlier snapshot; it holds
the text of the one its writer has last put in place; and where the writer has nothing more to do
and its last operations went through, the console reads the last snapshot there is. -/
theorem statusFile_follows (hapart : services.Apart)
    (h : Run.Reach (Files.step services) Run.Any (Files.init services v₀) s)
    (h' : Run.Reach (Files.step services) Run.Any s s') (i : ι) :
    (∀ n, (s.writers i).shown = some n → ∃ m, (s'.writers i).shown = some m ∧ n ≤ m) ∧
      s'.volume.read (services.path i) = s'.held services v₀ i ∧
      ((s'.writers i).Rests services.floats (services.path i) s'.volume →
        (s'.writers i).wentThrough = true →
        ∃ text : String, s'.volume.read (services.path i) = some text.toUTF8.data.toList ∧
          MuxStatusSnapshot.fromJson services.floats text =
            (readServerStatus (serverStatusValue (s'.writers i).channel.value.1.serverStatus)).map
              (s'.writers i).channel.value.1.mirror) := by
  have hkept := kept_of_reach hapart h
  have hkept' := kept_of_reach hapart (h.trans h')
  refine ⟨fun n hn => hkept.shown_reach hapart h' i hn, hkept'.held i, ?_⟩
  intro hrests hthrough
  refine ⟨statusFile services.floats (s'.writers i).channel.value, ?_,
    fromJson_statusFile services.floats _⟩
  have hshown := (hkept'.ordered i).shown_rests hrests hthrough
  rw [hkept'.held i, Files.held, hshown]
  dsimp only
  rw [Watch.get_version]
  rfl

/-- The status files of two services, the first of them being written for the first time. -/
def twoServices : Services Bool where
  floats := ⟨fun _ => [], fun _ => none⟩
  path := fun i => ⟨⟨"/tmp", some (if i then "memory.json" else "fetch.json")⟩, rfl⟩
  first := fun _ => ⟨freshSnapshot .running, fits_freshSnapshot .running⟩

theorem apart_twoServices : twoServices.Apart := by
  refine ⟨?_, ?_, ?_⟩
  · intro i j h
    revert i j
    decide
  · intro i j h
    revert i j
    decide
  · decide

/-- Of the first service, the console reads the snapshot that was written. -/
theorem statusFile_follows_twoServices : ∃ (s : Files Bool) (text : String),
    s.volume.read (twoServices.path true) = some text.toUTF8.data.toList ∧
      MuxStatusSnapshot.fromJson twoServices.floats text =
        some ((freshSnapshot .running).mirror .running) := by
  obtain ⟨s, file, hreach, hwriters, hfile, -⟩ :=
    exists_complete twoServices (Files.init twoServices .empty) true rfl
      (show _ = some (twoServices.first true) from rfl)
  obtain ⟨s', hreach', hwriters', -⟩ :=
    exists_renamed (by rw [hwriters, Function.update_self]) hfile
      (apart_twoServices.tmp_ne true true)
  have hwriter : s'.writers true =
      { (s.writers true).returned true with shown := some 0 } := by
    rw [hwriters', Function.update_self]
    rfl
  have hw : s.writers true = { (Files.init twoServices .empty).writers true with
      stage := .rename 0 } := by
    rw [hwriters, Function.update_self]
    rfl
  have hrests : (s'.writers true).Rests twoServices.floats (twoServices.path true) s'.volume := by
    rw [Writer.rests_iff, hwriter, hw]
    exact ⟨rfl, Nat.le_refl 0⟩
  obtain ⟨-, -, hlast⟩ := statusFile_follows apart_twoServices .init (hreach.trans hreach') true
  obtain ⟨text, hread, hjson⟩ := hlast hrests (by rw [hwriter]; rfl)
  refine ⟨s', text, hread, ?_⟩
  rw [hjson, hwriter, hw]
  rfl

end Status

end VcOperator
