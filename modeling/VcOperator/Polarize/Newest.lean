import Mathlib.Data.Prod.Lex
import VcOperator.Polarize.Prisms
/-!
# Which intents are shown

One for each prism that can be read, the newest first, and no more than
eight of them.
-/

namespace VcOperator

namespace Polarize

open Board (sortBy)
open Console (PolarizeIntent)
open Node (names)

variable {τ : Type} [LinearOrder τ] {fs fs' : Node} {floats : Json.Floats}
  {mtime : List String → τ} {home : List Component} {root path : List String}

/-! ## The intent of a prism -/

/-- A prism is let through. -/
theorem IsPrism.safePrismFile_eq {levels : ℕ} (h : IsPrism fs root levels path) :
    safePrismFile fs (names path) = some path := by
  obtain ⟨dirs, hpath, -, -⟩ := h.below
  have hnames : names path = names (root ++ dirs) ++ [.name "prism.json"] := by
    rw [hpath, names, List.map_append, names]
    rfl
  have hreal : fs.Real (root ++ dirs) := h.real.ofPrefix ⟨["prism.json"], hpath.symm⟩
  rw [hnames, safePrismFile_eq_some_iff hreal (Node.canonicalize_of_real hreal)]
  exact ⟨rfl, hpath, h.file, h.polarize⟩

/-- What is read of a prism. -/
theorem IsPrism.readIntent_eq_some_iff {levels : ℕ} (h : IsPrism fs root levels path)
    {intent : PolarizeIntent} : readIntent fs floats (names path) = some intent ↔
      ∃ text payload, fs.lookup path = some (.file (some text)) ∧
        PrismPayload.fromStr floats text = some payload ∧ payload.intent path = intent := by
  obtain ⟨found, hfound⟩ := h.file
  have hread : fs.readToString (names path) = found := by
    rw [Node.readToString, Node.metadata_of_real h.real, hfound]
  simp only [readIntent, h.safePrismFile_eq, hread, hfound, Option.bind_eq_bind, Option.bind_some,
    Option.bind_eq_some_iff, Option.pure_def, Option.some.injEq, Node.file.injEq]
  constructor
  · rintro ⟨text, htext, payload, hpayload, hintent⟩
    exact ⟨text, payload, htext, hpayload, hintent⟩
  · rintro ⟨text, payload, htext, hpayload, hintent⟩
    exact ⟨text, htext, payload, hpayload, hintent⟩

omit [LinearOrder τ] in
theorem mem_intentRows_iff {row : τ × PolarizeIntent} :
    row ∈ intentRows fs floats mtime home ↔ ∃ path ∈ discoverPrismFiles fs home,
      readIntent fs floats (names path) = some row.2 ∧ mtime path = row.1 := by
  rw [intentRows, List.mem_filterMap]
  refine exists_congr fun path => and_congr_right fun _ => ?_
  rw [Option.map_eq_some_iff]
  constructor
  · rintro ⟨intent, hintent, rfl⟩
    exact ⟨hintent, rfl⟩
  · rintro ⟨hintent, hmtime⟩
    exact ⟨row.2, hintent, by rw [hmtime]⟩

/-- **The intents are those of the prisms that can be read**: of each plain file that no link
leads to, in less than seven directories below the artifacts, in a run of `polarize`, and of
nothing else. -/
theorem mem_currentIntentsFromHome_iff (fs : Node) (floats : Json.Floats)
    (mtime : List String → τ) (home : List Component) (intent : PolarizeIntent) :
    intent ∈ currentIntentsFromHome fs floats mtime home ↔
      ∃ root path text payload, fs.canonicalize home = some root ∧
        IsPrism fs (root ++ ["artifacts"]) 7 path ∧
        fs.lookup path = some (.file (some text)) ∧
        PrismPayload.fromStr floats text = some payload ∧ payload.intent path = intent := by
  rw [currentIntentsFromHome, sortBy, List.mem_map]
  simp only [List.mem_mergeSort, mem_intentRows_iff, mem_discoverPrismFiles_iff]
  constructor
  · rintro ⟨row, ⟨path, ⟨root, hhome, hprism⟩, hread, -⟩, rfl⟩
    obtain ⟨text, payload, htext, hpayload, hintent⟩ := hprism.readIntent_eq_some_iff.1 hread
    exact ⟨root, path, text, payload, hhome, hprism, htext, hpayload, hintent⟩
  · rintro ⟨root, path, text, payload, hhome, hprism, htext, hpayload, hintent⟩
    have hread := hprism.readIntent_eq_some_iff.2 ⟨text, payload, htext, hpayload, hintent⟩
    exact ⟨(mtime path, intent), ⟨path, ⟨root, hhome, hprism⟩, hread, rfl⟩, rfl⟩

/-! ## Their order -/

/-- The newest first, and of one time the last run id first. -/
def newestKey (row : τ × PolarizeIntent) : τᵒᵈ ×ₗ Stringᵒᵈ :=
  toLex (.toDual row.1, .toDual row.2.runId)

theorem compareRows_eq (left right : τ × PolarizeIntent) :
    compareRows left right = compare (newestKey left) (newestKey right) := rfl

theorem isLE_compareRows {left right : τ × PolarizeIntent} :
    (compareRows left right).isLE = true ↔ newestKey left ≤ newestKey right := by
  rw [compareRows_eq, Ordering.isLE_iff_ne_gt, ← compare_le_iff_le]

theorem pairwise_sortBy_compareRows (rows : List (τ × PolarizeIntent)) :
    (sortBy compareRows rows).Pairwise fun left right => newestKey left ≤ newestKey right := by
  refine (List.pairwise_mergeSort ?_ ?_ rows).imp isLE_compareRows.1
  · intro a b c hab hbc
    exact isLE_compareRows.2 ((isLE_compareRows.1 hab).trans (isLE_compareRows.1 hbc))
  · intro a b
    simpa [isLE_compareRows] using le_total (newestKey a) (newestKey b)

/-- **The newest eight are shown**, from the newest on, and in whatever order the directories
list their entries. -/
theorem currentIntents_newest (fs : Node) (floats : Json.Floats) (mtime : List String → τ)
    (home : List Component) :
    (∃ shown rest : List (τ × PolarizeIntent),
      (shown ++ rest).Perm (intentRows fs floats mtime home) ∧
      (shown ++ rest).Pairwise (fun left right => newestKey left ≤ newestKey right) ∧
      shown.length = min 8 (intentRows fs floats mtime home).length ∧
      currentIntents fs floats mtime home = shown.map Prod.snd) ∧
    ∀ fs', Node.Same fs fs' →
      currentIntents fs' floats mtime home = currentIntents fs floats mtime home := by
  have hperm := List.mergeSort_perm (intentRows fs floats mtime home)
    fun left right => (compareRows left right).isLE
  constructor
  · refine ⟨(sortBy compareRows (intentRows fs floats mtime home)).take 8,
      (sortBy compareRows (intentRows fs floats mtime home)).drop 8, ?_, ?_, ?_, ?_⟩
    · rw [List.take_append_drop]
      exact hperm
    · rw [List.take_append_drop]
      exact pairwise_sortBy_compareRows _
    · rw [List.length_take, sortBy, hperm.length_eq]
    · rw [currentIntents, currentIntentsFromHome, List.map_take]
  · intro fs' h
    rw [currentIntents, currentIntentsFromHome, intentRows, ← discoverPrismFiles_congr h]
    simp only [← readIntent_congr h]
    rfl

end Polarize

end VcOperator
