import Mathlib.Data.Prod.Lex
import Mathlib.Order.WithBot
import VcOperator.Board.Aging
/-!
# The order of the runs

`compare_runs` compares the timestamps of two runs the other way round, by a
helper that already compares them so: the oldest comes first, and before it
what has no timestamp. It is a total order all the same.
-/

namespace VcOperator

namespace Board

variable {τ : Type} [LinearOrder τ] (out : Outside τ)

/-! ## Keys -/

/-- The timestamp of a text: one that is missing, or is not parsed, comes before all others. -/
def instant (raw : Option String) : WithBot τ := raw.bind (parseTimestamp out)

/-- The instants of a run, by which it is compared. -/
def instants (run : RunSnapshot) : WithBot τ × WithBot τ × WithBot τ :=
  (instant out run.updatedAt, instant out run.startedAt, instant out run.lastHeartbeat)

/-- The kind of a run, its instants from the oldest on, and its id. -/
def oldestKey (run : RenderedRun) : ℕ ×ₗ WithBot τ ×ₗ WithBot τ ×ₗ WithBot τ ×ₗ String :=
  toLex (run.kind.sortRank, toLex (instant out run.snapshot.updatedAt,
    toLex (instant out run.snapshot.startedAt,
      toLex (instant out run.snapshot.lastHeartbeat, run.snapshot.runId))))

/-- The kind of a run, its instants from the newest on and what is missing last, and its id. -/
def newestKey (run : RenderedRun) :
    ℕ ×ₗ (WithBot τ)ᵒᵈ ×ₗ (WithBot τ)ᵒᵈ ×ₗ (WithBot τ)ᵒᵈ ×ₗ String :=
  toLex (run.kind.sortRank, toLex (.toDual (instant out run.snapshot.updatedAt),
    toLex (.toDual (instant out run.snapshot.startedAt),
      toLex (.toDual (instant out run.snapshot.lastHeartbeat), run.snapshot.runId))))

/-- **The board is ordered newest first.** -/
structure NewestFirst (state : ControlPlaneState RunSnapshot RunEvent) (now : τ) : Prop where
  sorted : (renderRuns out state now).Pairwise fun left right =>
    newestKey out left ≤ newestKey out right
  /-- Of two runs with distinct ids one comes before the other. -/
  total : ∀ left right : RenderedRun, left.snapshot.runId ≠ right.snapshot.runId →
    compareRuns out left right = .lt ∧ compareRuns out right left = .gt ∨
      compareRuns out left right = .gt ∧ compareRuns out right left = .lt
  trans : ∀ first second third : RenderedRun, compareRuns out first second = .lt →
    compareRuns out second third = .lt → compareRuns out first third = .lt
  /-- The result does not depend on the input order. -/
  unordered : (state.runs.map RunSnapshot.runId).Nodup → ∀ runs, runs.Perm state.runs →
    renderRuns out { state with runs := runs } now = renderRuns out state now

/-! ## The comparator -/

variable {out}

/-- A value that is there compares as it does alone. -/
theorem compare_coe (a b : τ) : compare (a : WithBot τ) (b : WithBot τ) = compare a b := by
  rcases lt_trichotomy a b with h | rfl | h
  · rw [compare_lt_iff_lt.2 h, compare_lt_iff_lt.2 (WithBot.coe_lt_coe.2 h)]
  · rw [compare_eq_iff_eq.2 rfl, compare_eq_iff_eq.2 rfl]
  · rw [compare_gt_iff_gt.2 h, compare_gt_iff_gt.2 (WithBot.coe_lt_coe.2 h)]

/-- **The helper, with its arguments the other way round**, puts the oldest first. -/
theorem compareTimestamp_swap (left right : Option String) :
    compareTimestamp out right left = compare (instant out left) (instant out right) := by
  rw [compareTimestamp, instant, instant]
  cases left.bind (parseTimestamp out) with
  | none =>
    cases right.bind (parseTimestamp out) with
    | none => exact (compare_eq_iff_eq.2 rfl).symm
    | some right => exact (compare_lt_iff_lt.2 (WithBot.bot_lt_coe right)).symm
  | some left =>
    cases right.bind (parseTimestamp out) with
    | none => exact (compare_gt_iff_gt.2 (WithBot.bot_lt_coe left)).symm
    | some right => exact (compare_coe left right).symm

/-- **The comparator** compares keys. -/
theorem compareRuns_eq (left right : RenderedRun) :
    compareRuns out left right = compare (oldestKey out left) (oldestKey out right) := by
  rw [compareRuns, compareTimestamp_swap, compareTimestamp_swap, compareTimestamp_swap,
    Ordering.then_assoc, Ordering.then_assoc, Ordering.then_assoc]
  rfl

theorem isLE_compareRuns {left right : RenderedRun} :
    (compareRuns out left right).isLE = true ↔ oldestKey out left ≤ oldestKey out right := by
  rw [compareRuns_eq, Ordering.isLE_iff_ne_gt, ← compare_le_iff_le]

theorem compareRuns_eq_lt {left right : RenderedRun} :
    compareRuns out left right = .lt ↔ oldestKey out left < oldestKey out right := by
  rw [compareRuns_eq, compare_lt_iff_lt]

theorem compareRuns_eq_gt {left right : RenderedRun} :
    compareRuns out left right = .gt ↔ oldestKey out right < oldestKey out left := by
  rw [compareRuns_eq, compare_gt_iff_gt]

omit [LinearOrder τ] in
/-- The ids come last in the keys. -/
theorem runId_eq_of_oldestKey {left right : RenderedRun}
    (h : oldestKey out left = oldestKey out right) :
    left.snapshot.runId = right.snapshot.runId := by
  simp only [oldestKey, EmbeddingLike.apply_eq_iff_eq, Prod.mk.injEq] at h
  exact h.2.2.2.2

/-! ## What is sorted -/

variable {state : ControlPlaneState RunSnapshot RunEvent} {now : τ}

theorem perm_renderRuns :
    (renderRuns out state now).Perm (state.runs.map (renderRun out state.events now)) :=
  List.mergeSort_perm _ _

/-- **The oldest comes first.** -/
theorem sorted_renderRuns : (renderRuns out state now).Pairwise fun left right =>
    oldestKey out left ≤ oldestKey out right := by
  have hsorted := @List.pairwise_mergeSort _
    (fun left right : RenderedRun => (compareRuns out left right).isLE)
    (fun a b c hab hbc =>
      isLE_compareRuns.2 ((isLE_compareRuns.1 hab).trans (isLE_compareRuns.1 hbc)))
    (fun a b => by simpa [isLE_compareRuns] using le_total _ _)
    (state.runs.map (renderRun out state.events now))
  exact hsorted.imp isLE_compareRuns.1

/-- **Runs with distinct ids have one order.** -/
theorem renderRuns_eq_of_perm {runs : List RunSnapshot}
    (hids : (state.runs.map RunSnapshot.runId).Nodup) (hperm : runs.Perm state.runs) :
    renderRuns out { state with runs := runs } now = renderRuns out state now := by
  have hrendered : (renderRuns out { state with runs := runs } now).Perm
      (renderRuns out state now) :=
    perm_renderRuns.trans ((hperm.map (renderRun out state.events now)).trans perm_renderRuns.symm)
  refine List.Perm.eq_of_pairwise (fun left right hleft hright hle hge => ?_) sorted_renderRuns
    sorted_renderRuns hrendered
  have hmem : ∀ run ∈ renderRuns out state now, ∃ snapshot ∈ state.runs,
      renderRun out state.events now snapshot = run :=
    fun run hrun => List.mem_map.1 (perm_renderRuns.mem_iff.1 hrun)
  obtain ⟨snapshot, hsnapshot, rfl⟩ := hmem left (hrendered.mem_iff.1 hleft)
  obtain ⟨snapshot', hsnapshot', rfl⟩ := hmem right hright
  have hid : snapshot.runId = snapshot'.runId := runId_eq_of_oldestKey (le_antisymm hle hge)
  rw [List.inj_on_of_nodup_map hids hsnapshot hsnapshot' hid]

/-! ## The two orders -/

/-- Keys that are in both orders begin the same way. -/
theorem eq_of_toLex_le {α β γ : Type} [LinearOrder α] [LinearOrder β] [LinearOrder γ] {a b : α}
    {x y : β} {x' y' : γ} (hold : toLex (a, x) ≤ toLex (b, y))
    (hnew : toLex (OrderDual.toDual a, x') ≤ toLex (OrderDual.toDual b, y')) :
    a = b ∧ x ≤ y ∧ x' ≤ y' := by
  rw [Prod.Lex.toLex_le_toLex] at hold hnew
  rcases hold with hlt | ⟨rfl, hold⟩
  · rcases hnew with hgt | ⟨heq, -⟩
    · exact absurd (OrderDual.toDual_lt_toDual.1 hgt) hlt.asymm
    · exact absurd (OrderDual.toDual_inj.1 heq) hlt.ne
  · rcases hnew with hgt | ⟨-, hnew⟩
    · exact absurd hgt (lt_irrefl _)
    · exact ⟨rfl, hold, hnew⟩

/-- A key that is less for what it begins with, or is compared by what follows. -/
theorem toLex_le_toLex_of_eq {α β : Type} [LinearOrder α] [LinearOrder β] {a : α} {x y : β} :
    toLex (a, x) ≤ toLex (a, y) ↔ x ≤ y := by
  simp [Prod.Lex.toLex_le_toLex]

/-- Runs of one kind that are in both orders have the same instants. -/
theorem instants_eq_of_le {left right : RenderedRun} (hkind : left.kind = right.kind)
    (hold : oldestKey out left ≤ oldestKey out right)
    (hnew : newestKey out left ≤ newestKey out right) :
    instants out left.snapshot = instants out right.snapshot := by
  rw [oldestKey, oldestKey, hkind, toLex_le_toLex_of_eq] at hold
  rw [newestKey, newestKey, hkind, toLex_le_toLex_of_eq] at hnew
  obtain ⟨hupdated, hold, hnew⟩ := eq_of_toLex_le hold hnew
  obtain ⟨hstarted, hold, hnew⟩ := eq_of_toLex_le hold hnew
  obtain ⟨hbeat, -, -⟩ := eq_of_toLex_le hold hnew
  rw [instants, instants, hupdated, hstarted, hbeat]

/-- Ranks tell kinds apart. -/
theorem sortRank_injective : Function.Injective RunKind.sortRank := by
  intro kind kind'
  cases kind <;> cases kind' <;> decide

/-- Runs that have the same instants where they have one kind are in both orders. -/
theorem newestKey_le_of_le {left right : RenderedRun}
    (h : left.kind = right.kind → instants out left.snapshot = instants out right.snapshot)
    (hold : oldestKey out left ≤ oldestKey out right) :
    newestKey out left ≤ newestKey out right := by
  by_cases hkind : left.kind = right.kind
  · have hinstants := h hkind
    simp only [instants, Prod.mk.injEq] at hinstants
    obtain ⟨hupdated, hstarted, hbeat⟩ := hinstants
    rw [oldestKey, oldestKey, hkind, hupdated, hstarted, hbeat] at hold
    simp only [toLex_le_toLex_of_eq] at hold
    rw [newestKey, newestKey, hkind, hupdated, hstarted, hbeat]
    simp only [toLex_le_toLex_of_eq]
    exact hold
  · have hrank : left.kind.sortRank ≠ right.kind.sortRank := sortRank_injective.ne hkind
    rw [oldestKey, oldestKey, Prod.Lex.toLex_le_toLex] at hold
    rw [newestKey, newestKey, Prod.Lex.toLex_le_toLex]
    exact .inl (hold.resolve_right fun heq => hrank heq.1)

/-! ## The result -/

variable (out)

/-- **Runs of one kind have the same instants.** -/
def SameInstants (state : ControlPlaneState RunSnapshot RunEvent) (now : τ) : Prop :=
  ∀ left ∈ state.runs, ∀ right ∈ state.runs,
    classifyRun out left now = classifyRun out right now →
      instants out left = instants out right

theorem sameInstants_of_sorted (h : (renderRuns out state now).Pairwise fun left right =>
    newestKey out left ≤ newestKey out right) : SameInstants out state now := by
  have hboth := sorted_renderRuns.and h
  let Same (left right : RenderedRun) : Prop :=
    left.kind = right.kind → instants out left.snapshot = instants out right.snapshot
  have hsymm : Std.Symm Same := ⟨fun _ _ hsame hkind => (hsame hkind.symm).symm⟩
  have hsame : (renderRuns out state now).Pairwise Same :=
    hboth.imp fun hle hkind => instants_eq_of_le hkind hle.1 hle.2
  intro left hleft right hright
  exact hsame.forall_of_forall (fun _ _ _ => rfl)
    (perm_renderRuns.mem_iff.2 (List.mem_map_of_mem hleft))
    (perm_renderRuns.mem_iff.2 (List.mem_map_of_mem hright))

/-- **When the board is ordered newest first**: exactly when runs of one kind have the same
instants. It is always ordered oldest first. -/
theorem newestFirst_iff_sameInstants (state : ControlPlaneState RunSnapshot RunEvent) (now : τ) :
    NewestFirst out state now ↔ SameInstants out state now := by
  constructor
  · exact fun h => sameInstants_of_sorted out h.sorted
  · intro h
    refine {
      sorted := ?_
      total := ?_
      trans := fun first second third h₁ h₂ =>
        compareRuns_eq_lt.2 ((compareRuns_eq_lt.1 h₁).trans (compareRuns_eq_lt.1 h₂))
      unordered := fun hids runs hperm => renderRuns_eq_of_perm hids hperm }
    · refine sorted_renderRuns.imp_of_mem fun hleft hright hle => ?_
      obtain ⟨left, hmem, rfl⟩ := List.mem_map.1 (perm_renderRuns.mem_iff.1 hleft)
      obtain ⟨right, hmem', rfl⟩ := List.mem_map.1 (perm_renderRuns.mem_iff.1 hright)
      exact newestKey_le_of_le (h left hmem right hmem') hle
    · intro left right hids
      rcases lt_trichotomy (oldestKey out left) (oldestKey out right) with hlt | heq | hgt
      · exact .inl ⟨compareRuns_eq_lt.2 hlt, compareRuns_eq_gt.2 hlt⟩
      · exact absurd (runId_eq_of_oldestKey heq) hids
      · exact .inr ⟨compareRuns_eq_gt.2 hgt, compareRuns_eq_lt.2 hgt⟩

/-- A run that was updated later comes after one that was updated before it. -/
theorem not_newestFirst_epoch : ¬ ∀ (τ : Type) (_ : LinearOrder τ) (out : Outside τ)
    (state : ControlPlaneState RunSnapshot RunEvent) (now : τ), NewestFirst out state now := by
  intro h
  have hsame := sameInstants_of_sorted epoch (h ℤ inferInstance epoch ⟨[],
    [{ beating with runId := "a", updatedAt := some "1" },
      { beating with runId := "b", updatedAt := some "2" }], [], []⟩ 0).sorted
  have hinstants := hsame _ List.mem_cons_self _ (List.mem_cons_of_mem _ List.mem_cons_self)
    (by decide +kernel)
  revert hinstants
  decide +kernel

end Board

end VcOperator
