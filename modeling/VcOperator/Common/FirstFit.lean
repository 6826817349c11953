import Mathlib.Data.List.Induction
/-!
# First fit

Elements are placed into a list of entries one after the other: each goes to
the first entry it fits, which is stamped with it, and one that fits none
becomes a new entry at the end. A stamp changes nothing about what fits, and
an element fits its own entry.
-/

namespace VcOperator

/-- How elements are placed. -/
structure FirstFit (α β : Type*) where
  fits : α → β → Bool
  stamp : α → β → β
  /-- The entry of an element that fits none. -/
  new : α → β
  fits_stamp : ∀ a b e, fits a (stamp b e) = fits a e
  fits_new : ∀ a, fits a (new a) = true

namespace FirstFit

variable {α β : Type*} (F : FirstFit α β) {entries : List β} {a b : α} {j : ℕ} {e : β}

/-- The place of an element, which is the number of entries where there is none. -/
def index (entries : List β) (a : α) : ℕ := entries.findIdx (F.fits a)

/-- One element is placed. -/
def place (entries : List β) (a : α) : List β :=
  if F.index entries a < entries.length then entries.modify (F.index entries a) (F.stamp a)
  else entries ++ [F.new a]

/-- The entry an element is stamped into. -/
def stamped (e : β) (elements : List α) : β := elements.foldl (fun e a => F.stamp a e) e

/-! ## One element -/

theorem map_fits_modify (entries : List β) (k : ℕ) :
    (entries.modify k (F.stamp a)).map (F.fits b) = entries.map (F.fits b) := by
  refine List.ext_getElem? fun i => ?_
  rw [List.getElem?_map, List.getElem?_map, List.getElem?_modify]
  cases entries[i]? with
  | none => rfl
  | some e =>
    by_cases hk : k = i
    · simp [hk, F.fits_stamp]
    · simp [hk]

theorem index_eq_of_map {entries' : List β}
    (h : entries'.map (F.fits b) = entries.map (F.fits b)) :
    F.index entries' b = F.index entries b := by
  have hmap (l : List β) : l.findIdx (F.fits b) = (l.map (F.fits b)).findIdx id := by
    rw [List.findIdx_map]
    rfl
  rw [index, index, hmap, h, ← hmap]

/-- **What has a place keeps it.** -/
theorem index_place (h : F.index entries b < entries.length) :
    F.index (F.place entries a) b = F.index entries b := by
  unfold place
  split_ifs
  · exact F.index_eq_of_map (F.map_fits_modify entries _)
  · rw [index] at h ⊢
    rw [List.findIdx_append, if_pos h, index]

/-- What is placed has a place. -/
theorem index_place_self : F.index (F.place entries a) a = F.index entries a ∧
    F.index entries a < (F.place entries a).length := by
  unfold place
  split_ifs with h
  · refine ⟨F.index_eq_of_map (F.map_fits_modify entries _), ?_⟩
    rw [List.length_modify]
    exact h
  · have hlength : F.index entries a = entries.length :=
      Nat.le_antisymm List.findIdx_le_length (Nat.not_lt.1 h)
    refine ⟨?_, by simp [hlength]⟩
    rw [hlength]
    rw [index] at h ⊢
    rw [List.findIdx_append, if_neg h]
    simp [List.findIdx_cons, F.fits_new]

/-- An entry after an element is placed. -/
theorem getElem?_place (h : (F.place entries a)[j]? = some e) :
    (F.index entries a ≠ j ∧ entries[j]? = some e) ∨
      (F.index entries a = j ∧ ∃ e', entries[j]? = some e' ∧ e = F.stamp a e') ∨
      F.index entries a = j ∧ j = entries.length ∧ e = F.new a := by
  unfold place at h
  split_ifs at h with hlt
  · rw [List.getElem?_modify] at h
    obtain ⟨e', he', rfl⟩ := Option.map_eq_some_iff.1 h
    by_cases hj : F.index entries a = j
    · exact .inr (.inl ⟨hj, e', he', by rw [if_pos hj]⟩)
    · rw [if_neg hj]
      exact .inl ⟨hj, he'⟩
  · have hlength : F.index entries a = entries.length :=
      Nat.le_antisymm List.findIdx_le_length (Nat.not_lt.1 hlt)
    rcases Nat.lt_trichotomy j entries.length with hj | rfl | hj
    · rw [List.getElem?_append_left hj] at h
      exact .inl ⟨by omega, h⟩
    · rw [List.getElem?_concat_length, Option.some.injEq] at h
      exact .inr (.inr ⟨hlength, rfl, h.symm⟩)
    · have hover : (entries ++ [F.new a]).length ≤ j := by
        rw [List.length_append, List.length_singleton]
        exact hj
      rw [List.getElem?_eq_none hover] at h
      cases h

theorem length_le_place (entries : List β) (a : α) :
    entries.length ≤ (F.place entries a).length := by
  unfold place
  split_ifs <;> simp

/-! ## Several elements -/

variable (entries)

theorem length_le_foldl (elements : List α) :
    entries.length ≤ (elements.foldl F.place entries).length := by
  induction elements generalizing entries with
  | nil => exact Nat.le_refl _
  | cons a elements ih => exact Nat.le_trans (F.length_le_place entries a) (ih _)

/-- **Every element has a place.** -/
theorem index_foldl_lt (elements : List α) : ∀ a ∈ elements,
    F.index (elements.foldl F.place entries) a < (elements.foldl F.place entries).length := by
  induction elements using List.reverseRecOn with
  | nil => nofun
  | append_singleton elements last ih =>
    intro a ha
    rw [List.foldl_append, List.foldl_cons, List.foldl_nil]
    rcases List.mem_append.1 ha with ha | ha
    · have hlt := ih a ha
      rw [F.index_place hlt]
      exact Nat.lt_of_lt_of_le hlt (F.length_le_place _ _)
    · obtain rfl := List.mem_singleton.1 ha
      have hself := @index_place_self _ _ F (elements.foldl F.place entries) a
      rw [hself.1]
      exact hself.2

/-- **What each entry is in the end**: an entry that was there, stamped in turn with all that have
their place at it, or a new one of the first of them, stamped with the others. -/
theorem getElem?_foldl (elements : List α) (h : (elements.foldl F.place entries)[j]? = some e) :
    (∃ base, entries[j]? = some base ∧ e = F.stamped base (elements.filter fun a =>
      F.index (elements.foldl F.place entries) a = j)) ∨
    entries.length ≤ j ∧ ∃ a rest, (elements.filter fun a =>
      F.index (elements.foldl F.place entries) a = j) = a :: rest ∧
        e = F.stamped (F.new a) rest := by
  induction elements using List.reverseRecOn generalizing j e with
  | nil => exact .inl ⟨e, h, rfl⟩
  | append_singleton elements last ih =>
    have hlt := F.index_foldl_lt entries elements
    rw [List.foldl_append, List.foldl_cons, List.foldl_nil] at h ⊢
    -- nothing that has a place gets another one
    have hfilter : (elements ++ [last]).filter (fun a =>
        F.index (F.place (elements.foldl F.place entries) last) a = j) =
        elements.filter (fun a => F.index (elements.foldl F.place entries) a = j) ++
          if F.index (elements.foldl F.place entries) last = j then [last] else [] := by
      rw [List.filter_append]
      congr 1
      · refine List.filter_congr fun a ha => ?_
        rw [F.index_place (hlt a ha)]
      · rw [List.filter_cons, F.index_place_self.1, List.filter_nil]
        simp only [decide_eq_true_eq]
    rw [hfilter]
    rcases F.getElem?_place h with ⟨hne, he⟩ | ⟨heq, e', he', rfl⟩ | ⟨heq, hj, rfl⟩
    · rw [if_neg hne, List.append_nil]
      exact ih he
    · rw [if_pos heq]
      rcases ih he' with ⟨base, hbase, rfl⟩ | ⟨hle, a, rest, hmine, rfl⟩
      · exact .inl ⟨base, hbase, by rw [stamped, stamped, List.foldl_append]; rfl⟩
      · refine .inr ⟨hle, a, rest ++ [last], by rw [hmine]; rfl, ?_⟩
        rw [stamped, stamped, List.foldl_append]
        rfl
    · rw [if_pos heq]
      have hnone : elements.filter (fun a =>
          F.index (elements.foldl F.place entries) a = j) = [] := by
        refine List.filter_eq_nil_iff.2 fun a ha => ?_
        have hplace := hlt a ha
        simp only [decide_eq_true_eq]
        omega
      refine .inr ⟨hj ▸ F.length_le_foldl entries elements, last, [], ?_, rfl⟩
      rw [hnone]
      rfl

end FirstFit

end VcOperator
