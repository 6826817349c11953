import Mathlib.Data.List.DropRight
import Mathlib.Data.List.Infix
import VcOperator.Mux.Model.Statistics
/-!
# The statistics of the heartbeat are exact

Over the natural numbers the state after any calls can be read off the calls.
Over the machine's integers the same calls do the same as long as the window
and the counts fit.
-/

namespace VcOperator

namespace Mux

open Machine (Overflow)

variable {α : Type}

/-- The samples of the calls. -/
def samples (calls : List (Recording α)) : List α := calls.filterMap Recording.sample?

/-- The samples that count. -/
def sampleWindow (calls : List (Recording α)) : List α := (samples calls).rtake responseTimeSamples

/-- The failures since the last success. -/
def trailingFailures (calls : List (Recording α)) : ℕ :=
  (calls.rtakeWhile Recording.isFailure).length

/-- The floor of the mean, where there is one. -/
def floorMean (times : List ℕ) : Option ℕ :=
  if times.length = 0 then none else some (times.sum / times.length)

/-! ## One call -/

variable (calls : List (Recording α)) (call : Recording α)

@[simp] theorem samples_failure : samples (calls ++ [.failure]) = samples calls := by
  simp [samples, Recording.sample?]

@[simp] theorem samples_success (now responseTimeMs : α) :
    samples (calls ++ [.success now responseTimeMs]) = samples calls ++ [responseTimeMs] := by
  simp [samples, Recording.sample?]

@[simp] theorem sampleWindow_failure : sampleWindow (calls ++ [.failure]) = sampleWindow calls := by
  rw [sampleWindow, samples_failure, sampleWindow]

@[simp] theorem trailingFailures_success (now responseTimeMs : α) :
    trailingFailures (calls ++ [.success now responseTimeMs]) = 0 := by
  rw [trailingFailures, List.rtakeWhile_concat_neg _ _ _ Bool.false_ne_true, List.length_nil]

@[simp] theorem trailingFailures_failure :
    trailingFailures (calls ++ [.failure]) = trailingFailures calls + 1 := by
  rw [trailingFailures, List.rtakeWhile_concat_pos _ _ _ rfl, List.length_append]
  rfl

/-- **The window slides**: a full one loses its oldest sample. -/
theorem rtake_eq_tail (times : List α) (n : ℕ) :
    times.rtake n =
      if n + 1 ≤ (times.rtake (n + 1)).length then (times.rtake (n + 1)).tail
      else times.rtake (n + 1) := by
  rw [List.rtake, List.rtake, List.length_drop, List.tail_drop]
  split_ifs with hfull
  · congr 1
    omega
  · -- there are too few samples for either
    rw [Nat.sub_eq_zero_of_le (by omega), Nat.sub_eq_zero_of_le (by omega)]

theorem sampleWindow_success (now responseTimeMs : α) :
    sampleWindow (calls ++ [.success now responseTimeMs]) =
      (if responseTimeSamples ≤ (sampleWindow calls).length then (sampleWindow calls).tail
        else sampleWindow calls) ++ [responseTimeMs] := by
  rw [sampleWindow, samples_success, responseTimeSamples, List.rtake_concat_succ, rtake_eq_tail]
  rfl

/-! ## Over the natural numbers -/

/-- **Exact** statistics of these calls. -/
structure Exact (calls : List (Recording ℕ)) (hb : HeartbeatState) : Prop where
  /-- The window has the last samples, in their order. -/
  responseTimes : hb.responseTimes = sampleWindow calls
  /-- The average is the floor of their mean. -/
  avgResponseMs : hb.metrics.avgResponseMs = floorMean (sampleWindow calls)
  consecutiveFailures : hb.metrics.consecutiveFailures = trailingFailures calls
  totalSuccess : hb.metrics.totalSuccess = (samples calls).length
  totalFailures : hb.metrics.totalFailures = calls.countP Recording.isFailure

/-- A success, with the window that comes of it. -/
theorem recordSuccess_eq {hb : HeartbeatState} {now responseTimeMs : ℕ} {times : List ℕ}
    (h : (hb.recordSuccess now responseTimeMs).responseTimes = times) :
    hb.recordSuccess now responseTimeMs = { hb with
      responseTimes := times
      metrics := { hb.metrics with
        lastHeartbeatMs := some now
        avgResponseMs := some (times.sum / times.length)
        consecutiveFailures := 0
        totalSuccess := hb.metrics.totalSuccess + 1 } } := by
  subst h
  rfl

/-- A fresh state is exact of no calls. -/
theorem exact_new (config : HeartbeatConfig) : Exact [] (.new config) where
  responseTimes := rfl
  avgResponseMs := rfl
  consecutiveFailures := rfl
  totalSuccess := rfl
  totalFailures := rfl

/-- **One more call** keeps the statistics exact. -/
theorem Exact.record {calls : List (Recording ℕ)} {hb : HeartbeatState} (h : Exact calls hb)
    (call : Recording ℕ) : Exact (calls ++ [call]) (hb.record call) := by
  cases call with
  | success now responseTimeMs =>
    have htimes : (hb.recordSuccess now responseTimeMs).responseTimes =
        sampleWindow (calls ++ [.success now responseTimeMs]) := by
      rw [sampleWindow_success, ← h.responseTimes]
      rfl
    exact {
      responseTimes := htimes
      avgResponseMs := by
        rw [← htimes, floorMean, if_neg (by simp [HeartbeatState.recordSuccess])]
        rfl
      consecutiveFailures := by
        rw [trailingFailures_success]
        rfl
      totalSuccess := by
        rw [samples_success, List.length_append, ← h.totalSuccess]
        rfl
      totalFailures := by
        rw [List.countP_append, ← h.totalFailures]
        rfl }
  | failure =>
    exact {
      responseTimes := by
        rw [sampleWindow_failure, ← h.responseTimes]
        rfl
      avgResponseMs := by
        rw [sampleWindow_failure, ← h.avgResponseMs]
        rfl
      consecutiveFailures := by
        rw [trailingFailures_failure, ← h.consecutiveFailures]
        rfl
      totalSuccess := by
        rw [samples_failure, ← h.totalSuccess]
        rfl
      totalFailures := by
        rw [List.countP_append, ← h.totalFailures]
        rfl }

/-- **Over the natural numbers** the statistics are exact, whatever the calls are. -/
theorem exact_foldl (config : HeartbeatConfig) (calls : List (Recording ℕ)) :
    Exact calls (calls.foldl HeartbeatState.record (.new config)) := by
  induction calls using List.reverseRecOn with
  | nil => exact exact_new config
  | append_singleton calls call ih =>
    rw [List.foldl_append]
    exact ih.record call

/-! ## The same calls with other numbers -/

section Map

variable {β : Type} (f : α → β)

theorem samples_map (calls : List (Recording α)) :
    samples (calls.map (Recording.map f)) = (samples calls).map f := by
  rw [samples, samples, List.filterMap_map, List.map_filterMap]
  congr 1
  funext call
  cases call <;> rfl

theorem sampleWindow_map (calls : List (Recording α)) :
    sampleWindow (calls.map (Recording.map f)) = (sampleWindow calls).map f := by
  rw [sampleWindow, samples_map, sampleWindow, List.rtake, List.rtake, List.length_map,
    List.map_drop]

/-- Which calls fail does not depend on the numbers. -/
theorem isFailure_comp_map : Recording.isFailure ∘ Recording.map f = Recording.isFailure := by
  funext call
  cases call <;> rfl

theorem trailingFailures_map (calls : List (Recording α)) :
    trailingFailures (calls.map (Recording.map f)) = trailingFailures calls := by
  rw [trailingFailures, List.rtakeWhile, ← List.map_reverse, List.takeWhile_map,
    isFailure_comp_map, List.length_reverse, List.length_map, trailingFailures, List.rtakeWhile,
    List.length_reverse]

theorem countP_isFailure_map (calls : List (Recording α)) :
    (calls.map (Recording.map f)).countP Recording.isFailure =
      calls.countP Recording.isFailure := by
  rw [List.countP_map, isFailure_comp_map]

end Map

/-! ## Over the machine's integers -/

namespace Statistics

variable {mode : Overflow} {hb : Statistics} {state : HeartbeatState}

/-- **A success** is the one over the natural numbers, where the window and the count fit. -/
theorem over_recordSuccess (mode : Overflow) {now responseTimeMs : BitVec 64}
    (hlength : hb.responseTimes.length ≤ responseTimeSamples)
    (hsum : ((hb.over state).recordSuccess now.toNat responseTimeMs.toNat).responseTimes.sum <
      2 ^ 64)
    (htotal : hb.totalSuccess.toNat + 1 < 2 ^ 64) :
    ∃ hb', hb.recordSuccess mode now responseTimeMs = some hb' ∧
      hb'.maxFailures = hb.maxFailures ∧
      hb'.over state = (hb.over state).recordSuccess now.toNat responseTimeMs.toNat := by
  let kept :=
    if responseTimeSamples ≤ hb.responseTimes.length then hb.responseTimes.tail
    else hb.responseTimes
  let times := kept ++ [responseTimeMs]
  have htimes : ((hb.over state).recordSuccess now.toNat responseTimeMs.toNat).responseTimes =
      times.map BitVec.toNat := by
    simp only [HeartbeatState.recordSuccess, Statistics.over, times, kept, List.length_map]
    split_ifs <;> simp
  rw [htimes] at hsum
  have hcount : (BitVec.ofNat 64 times.length).toNat = times.length := by
    rw [BitVec.toNat_ofNat, Nat.mod_eq_of_lt]
    simp only [times, kept]
    split_ifs <;> simp [responseTimeSamples] at * <;> omega
  obtain ⟨sum, hsome, hsumNat⟩ := Machine.sum_eq_some mode hsum
  obtain ⟨avg, havg, havgNat⟩ := Machine.div_eq_some (a := sum)
    (b := .ofNat 64 times.length) (by rw [hcount]; simp [times])
  obtain ⟨total, hadd, hnat⟩ := Machine.add_eq_some mode (b := (1 : BitVec 64)) htotal
  refine ⟨{ hb with
    responseTimes := times
    lastHeartbeatMs := some now
    avgResponseMs := some avg
    consecutiveFailures := 0
    totalSuccess := total }, ?_, rfl, ?_⟩
  · change (Machine.sum mode times).bind _ = _
    rw [hsome, Option.bind_some]
    change (Machine.div sum (.ofNat 64 times.length)).bind _ = _
    rw [havg, Option.bind_some]
    change (Machine.add mode hb.totalSuccess 1).bind _ = _
    rw [hadd, Option.bind_some]
    rfl
  · have havgMs : avg.toNat = (times.map BitVec.toNat).sum / (times.map BitVec.toNat).length := by
      rw [havgNat, hsumNat, hcount, List.length_map]
    rw [recordSuccess_eq htimes, ← havgMs]
    simp only [Statistics.over]
    rw [hnat]
    rfl

/-- **A failure** is the one over the natural numbers, where the counts fit. -/
theorem over_recordFailure (mode : Overflow)
    (hconsecutive : hb.consecutiveFailures.toNat + 1 < 2 ^ 32)
    (htotal : hb.totalFailures.toNat + 1 < 2 ^ 64) :
    ∃ hb', hb.recordFailure mode = some hb' ∧ hb'.maxFailures = hb.maxFailures ∧
      hb'.over state = (hb.over state).recordFailure := by
  obtain ⟨consecutive, hsome, hnat⟩ := Machine.add_eq_some mode (b := (1 : BitVec 32)) hconsecutive
  obtain ⟨total, hadd, htotalNat⟩ := Machine.add_eq_some mode (b := (1 : BitVec 64)) htotal
  refine ⟨{ hb with consecutiveFailures := consecutive, totalFailures := total }, ?_, rfl, ?_⟩
  · rw [recordFailure, hsome]
    change (Machine.add mode hb.totalFailures 1).bind _ = _
    rw [hadd]
    rfl
  · simp only [Statistics.over, HeartbeatState.recordFailure]
    rw [hnat, htotalNat]
    rfl

/-- The restart is decided as over the natural numbers. -/
theorem shouldRestart_over : (hb.over state).shouldRestart = hb.shouldRestart := by
  rw [HeartbeatState.shouldRestart, shouldRestart]
  rfl

end Statistics

/-- **The window and the counts fit.** -/
structure Fits (calls : List (Recording (BitVec 64))) : Prop where
  /-- The last samples always sum below the bound of the sum. -/
  window : ∀ before, before <+: calls → ((sampleWindow before).map BitVec.toNat).sum < 2 ^ 64
  successes : (samples calls).length < 2 ^ 32
  failures : calls.countP Recording.isFailure < 2 ^ 32

theorem Fits.of_prefix {before calls : List (Recording (BitVec 64))} (h : Fits calls)
    (hpre : before <+: calls) : Fits before where
  window earlier hearlier := h.window earlier (hearlier.trans hpre)
  successes := lt_of_le_of_lt (hpre.sublist.filterMap _).length_le h.successes
  failures := lt_of_le_of_lt hpre.sublist.countP_le h.failures

/-- The failures since the last success are failures. -/
theorem trailingFailures_le (calls : List (Recording α)) :
    trailingFailures calls ≤ calls.countP Recording.isFailure := by
  rw [trailingFailures, ← List.countP_eq_length.2 fun call => List.mem_rtakeWhile_imp]
  exact (List.rtakeWhile_suffix _ _).sublist.countP_le

/-- **One call that fits** is the one over the natural numbers. -/
theorem Fits.over_record (mode : Overflow) {calls : List (Recording (BitVec 64))}
    {call : Recording (BitVec 64)} (h : Fits (calls ++ [call])) {hb : Statistics}
    {state : HeartbeatState}
    (hexact : Exact (calls.map (Recording.map BitVec.toNat)) (hb.over state)) :
    ∃ hb', hb.record mode call = some hb' ∧ hb'.maxFailures = hb.maxFailures ∧
      hb'.over state = (hb.over state).record (call.map BitVec.toNat) := by
  have hwindow := h.window _ List.prefix_rfl
  have hnext := (hexact.record (call.map BitVec.toNat)).responseTimes
  rw [← sampleWindow_map, List.map_append, List.map_singleton, ← hnext] at hwindow
  cases call with
  | success now responseTimeMs =>
    refine Statistics.over_recordSuccess mode ?_ hwindow ?_
    · have hlength := congrArg List.length hexact.responseTimes
      rw [sampleWindow_map, List.length_map, Statistics.over, List.length_map] at hlength
      rw [hlength, sampleWindow, List.rtake, List.length_drop]
      omega
    · have hcount := h.successes
      have htotal : hb.totalSuccess.toNat = (samples calls).length := by
        rw [← List.length_map BitVec.toNat, ← samples_map]
        exact hexact.totalSuccess
      rw [samples_success, List.length_append, ← htotal] at hcount
      exact lt_trans hcount (by decide)
  | failure =>
    have hcount := h.failures
    have htotal : hb.totalFailures.toNat = calls.countP Recording.isFailure := by
      rw [← countP_isFailure_map BitVec.toNat]
      exact hexact.totalFailures
    have hconsecutive : hb.consecutiveFailures.toNat = trailingFailures calls := by
      rw [← trailingFailures_map BitVec.toNat]
      exact hexact.consecutiveFailures
    have hle := trailingFailures_le calls
    rw [List.countP_append] at hcount
    change _ + 1 < _ at hcount
    exact Statistics.over_recordFailure mode (by omega) (by omega)

/-- **The machine does what the natural numbers do**, over calls that fit. -/
theorem foldlM_record_over (mode : Overflow) (maxFailures : BitVec 32) (config : HeartbeatConfig)
    {calls : List (Recording (BitVec 64))} (h : Fits calls) :
    ∃ hb, calls.foldlM (Statistics.record mode) (.new maxFailures) = some hb ∧
      hb.maxFailures = maxFailures ∧
      hb.over (.new config) = (calls.map (Recording.map BitVec.toNat)).foldl HeartbeatState.record
        (.new { config with maxFailures := maxFailures.toNat }) := by
  induction calls using List.reverseRecOn with
  | nil => exact ⟨.new maxFailures, rfl, rfl, rfl⟩
  | append_singleton calls call ih =>
    obtain ⟨hb, hsome, hmax, hover⟩ := ih (h.of_prefix (List.prefix_append _ _))
    have hexact := exact_foldl { config with maxFailures := maxFailures.toNat }
      (calls.map (Recording.map BitVec.toNat))
    rw [← hover] at hexact
    obtain ⟨hb', hcall, hmax', hover'⟩ := h.over_record mode hexact
    refine ⟨hb', ?_, hmax'.trans hmax, ?_⟩
    · rw [List.foldlM_append, hsome, Option.bind_eq_bind, Option.bind_some, List.foldlM_cons, hcall]
      rfl
    · rw [List.map_append, List.foldl_append, ← hover, hover']
      rfl

/-! ## The result -/

/-- **Exact** statistics of these calls, over the machine's integers. -/
structure ExactStatistics (maxFailures : BitVec 32) (calls : List (Recording (BitVec 64)))
    (hb : Statistics) : Prop where
  responseTimes : hb.responseTimes = sampleWindow calls
  avgResponseMs :
    hb.avgResponseMs.map BitVec.toNat = floorMean ((sampleWindow calls).map BitVec.toNat)
  consecutiveFailures : hb.consecutiveFailures.toNat = trailingFailures calls
  totalSuccess : hb.totalSuccess.toNat = (samples calls).length
  totalFailures : hb.totalFailures.toNat = calls.countP Recording.isFailure
  shouldRestart : hb.shouldRestart = true ↔ maxFailures.toNat ≤ trailingFailures calls

/-- **The statistics of the heartbeat are exact**, and nothing overflows or is divided by zero,
over calls whose window and counts fit. -/
theorem exactStatistics_foldlM (mode : Overflow) (maxFailures : BitVec 32)
    (calls : List (Recording (BitVec 64))) (h : Fits calls) :
    ∃ hb, calls.foldlM (Statistics.record mode) (.new maxFailures) = some hb ∧
      ExactStatistics maxFailures calls hb := by
  let config : HeartbeatConfig := ⟨0, 0, maxFailures.toNat, true⟩
  obtain ⟨hb, hsome, hmax, hover⟩ := foldlM_record_over mode maxFailures config h
  have hexact := exact_foldl config (calls.map (Recording.map BitVec.toNat))
  rw [← hover] at hexact
  have hconsecutive : hb.consecutiveFailures.toNat = trailingFailures calls := by
    rw [← trailingFailures_map BitVec.toNat]
    exact hexact.consecutiveFailures
  refine ⟨hb, hsome, {
    responseTimes := ?_
    avgResponseMs := ?_
    consecutiveFailures := hconsecutive
    totalSuccess := ?_
    totalFailures := ?_
    shouldRestart := ?_ }⟩
  · have htimes := hexact.responseTimes
    rw [sampleWindow_map] at htimes
    exact List.map_injective_iff.2 (fun _ _ => BitVec.eq_of_toNat_eq) htimes
  · rw [← sampleWindow_map]
    exact hexact.avgResponseMs
  · rw [← List.length_map BitVec.toNat, ← samples_map]
    exact hexact.totalSuccess
  · rw [← countP_isFailure_map BitVec.toNat]
    exact hexact.totalFailures
  · rw [Statistics.shouldRestart, decide_eq_true_eq, BitVec.le_def, hmax, hconsecutive]

/-- A slow answer, after which two probes fail. -/
theorem exactStatistics_slow :
    ∃ hb, [Recording.success 0 250, .failure, .failure].foldlM (Statistics.record .stops)
        (.new 2) = some hb ∧
      ExactStatistics 2 [.success 0 250, .failure, .failure] hb := by
  have hwindow : ∀ before ∈ [Recording.success 0 250, .failure, .failure].inits,
      ((sampleWindow before).map (BitVec.toNat (w := 64))).sum < 2 ^ 64 := by decide
  exact exactStatistics_foldlM .stops 2 _
    ⟨fun before hbefore => hwindow before ((List.mem_inits _ _).2 hbefore), by decide, by decide⟩

end Mux

end VcOperator
