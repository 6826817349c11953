import VcOperator.Board.Model.Render
/-!
# Runs only age

Of all that a run is classified by only two tests depend on the instant, and
each of them changes at most once: a run stops being recent, and becomes
stale.
-/

namespace VcOperator

namespace Board

/-- **What becomes of a kind** as time passes. -/
inductive Ages : RunKind → RunKind → Prop
  | same (kind : RunKind) : Ages kind kind
  | stalls : Ages .active .stalled
  | completes : Ages .recent .completed
  | fades : Ages .recent .unknown

/-- A later kind says more of the earlier one. -/
theorem Ages.earlier {kind kind' : RunKind} (h : Ages kind kind') :
    (kind' = .active → kind = .active) ∧ (kind' = .recent → kind = .recent) ∧
      (kind = .failed ↔ kind' = .failed) ∧ (kind = .paused ↔ kind' = .paused) := by
  cases h <;> simp

variable {τ : Type} [LinearOrder τ] {out : Outside τ}

theorem numMinutes_mono {a b : ℤ} (h : a ≤ b) : numMinutes a ≤ numMinutes b :=
  Int.tdiv_le_tdiv (by decide) (Int.tdiv_le_tdiv (by decide) h)

theorem numHours_mono {a b : ℤ} (h : a ≤ b) : numHours a ≤ numHours b :=
  Int.tdiv_le_tdiv (by decide) (Int.tdiv_le_tdiv (by decide) h)

section Instants

variable {now later : τ} (hsince : ∀ value,
  out.signedDurationSince now value ≤ out.signedDurationSince later value)
variable (timestamp : Option τ)

omit [LinearOrder τ]
include hsince

/-- **What is recent** was so before. -/
theorem isRecent_of_later (hlater : isRecent out timestamp later = true) :
    isRecent out timestamp now = true := by
  cases timestamp with
  | none => cases hlater
  | some value =>
    have hhours : numHours (out.signedDurationSince now value) ≤
        numHours (out.signedDurationSince later value) := numHours_mono (hsince value)
    simp only [isRecent, Option.map_some, Option.getD_some, decide_eq_true_eq] at hlater ⊢
    omega

/-- **What is stale** stays so. -/
theorem isStale_later (hnow : isStale out timestamp now = true) :
    isStale out timestamp later = true := by
  cases timestamp with
  | none => cases hnow
  | some value =>
    have hminutes : numMinutes (out.signedDurationSince now value) ≤
        numMinutes (out.signedDurationSince later value) := numMinutes_mono (hsince value)
    simp only [isStale, Option.map_some, Option.getD_some, decide_eq_true_eq] at hnow ⊢
    omega

/-- A recent run of another kind. -/
theorem ages_recent {kind : RunKind} (hkind : Ages .recent kind) :
    Ages (if isRecent out timestamp now then .recent else kind)
      (if isRecent out timestamp later then .recent else kind) := by
  split_ifs with hnow hlater hlater
  · exact .same _
  · exact hkind
  · exact absurd (isRecent_of_later hsince timestamp hlater) hnow
  · exact .same _

theorem ages_stale : Ages (if isStale out timestamp now then .stalled else .active)
    (if isStale out timestamp later then .stalled else .active) := by
  split_ifs with hnow hlater hlater
  · exact .same _
  · exact absurd (isStale_later hsince timestamp hnow) hlater
  · exact .stalls
  · exact .same _

theorem ages_classifyRun (snapshot : RunSnapshot) :
    Ages (classifyRun out snapshot now) (classifyRun out snapshot later) := by
  simp only [classifyRun]
  split
  · exact .same _
  split
  · exact .same _
  split
  · exact .same _
  split
  · exact ages_recent hsince _ .completes
  split
  · exact ages_stale hsince _
  · exact ages_recent hsince _ .fades

end Instants

/-! ## The result -/

/-- **Runs only age.** A run is never active or recent again, and what has failed or is paused
stays so, where a later instant is no shorter time from the same one. -/
theorem classifyRun_onlyAges
    (hsince : ∀ value now later, now ≤ later →
      out.signedDurationSince now value ≤ out.signedDurationSince later value)
    (snapshot : RunSnapshot) {now later : τ} (h : now ≤ later) :
    Ages (classifyRun out snapshot now) (classifyRun out snapshot later) ∧
      (classifyRun out snapshot later = .active → classifyRun out snapshot now = .active) ∧
      (classifyRun out snapshot later = .recent → classifyRun out snapshot now = .recent) ∧
      (classifyRun out snapshot now = .failed ↔ classifyRun out snapshot later = .failed) ∧
      (classifyRun out snapshot now = .paused ↔ classifyRun out snapshot later = .paused) :=
  have hages := ages_classifyRun (fun value => hsince value now later h) snapshot
  ⟨hages, hages.earlier⟩

/-- Instants in nanoseconds, of timestamps in seconds. -/
def epoch : Outside ℤ where
  parseFromRfc3339 _ := none
  timestampOpt seconds := some (seconds * 1000000000)
  signedDurationSince now value := now - value
  toLowercase text := text

/-- A run of one heartbeat. -/
def beating : RunSnapshot where
  runId := "r"
  sessionId := none
  agent := none
  skill := none
  mode := none
  state := some "running"
  status := none
  startedAt := none
  updatedAt := none
  lastHeartbeat := some "0"
  root := none
  operatorSession := none
  latestReport := none
  latestTranscript := none
  lastError := none
  extra := ∅

theorem classifyRun_onlyAges_beating :
    Ages (classifyRun epoch beating 0) (classifyRun epoch beating 960000000000) :=
  (classifyRun_onlyAges (fun _ _ _ h => Int.sub_le_sub_right h _) beating (by decide)).1

end Board

end VcOperator
