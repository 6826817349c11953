import VcOperator.Config.Model.Services
/-!
# The names a conflict gives

The variants of a conflicting name are called `<name>-from-<kind>`, and
the later ones of a kind `<name>-from-<kind>-2`, `<name>-from-<kind>-3`
and so on. Such a name determines the name, the kind and the number it
was made from: no label of a kind holds an `f` or a digit, so the last
`f` of the text ends what came from the name, and the digits after the
last hyphen are the number.
-/

namespace VcOperator

namespace Config

/-! ## Texts -/

/-- Two lists split at the first of an element agree before it and after it. -/
theorem split_at_first {α : Type*} {a : α} {xs ys xs' ys' : List α} (h : a ∉ xs) (h' : a ∉ xs')
    (heq : xs ++ a :: ys = xs' ++ a :: ys') : xs = xs' ∧ ys = ys' := by
  induction xs generalizing xs' with
  | nil =>
    cases xs' with
    | nil => exact ⟨rfl, (List.cons.inj heq).2⟩
    | cons b xs' => exact absurd (List.cons.inj heq).1 (fun hab => h' (hab ▸ List.mem_cons_self))
  | cons c xs ih =>
    cases xs' with
    | nil => exact absurd (List.cons.inj heq).1 (fun hca => h (hca ▸ List.mem_cons_self))
    | cons b xs' =>
      obtain ⟨rfl, htail⟩ := List.cons.inj heq
      obtain ⟨rfl, rfl⟩ := ih (fun hm => h (List.mem_cons_of_mem _ hm))
        (fun hm => h' (List.mem_cons_of_mem _ hm)) htail
      exact ⟨rfl, rfl⟩

/-- And so do two lists split at the last of it. -/
theorem split_at_last {α : Type*} {a : α} {xs ys xs' ys' : List α} (h : a ∉ ys) (h' : a ∉ ys')
    (heq : xs ++ a :: ys = xs' ++ a :: ys') : xs = xs' ∧ ys = ys' := by
  have hrev : ys.reverse ++ a :: xs.reverse = ys'.reverse ++ a :: xs'.reverse := by
    simpa using congrArg List.reverse heq
  obtain ⟨hys, hxs⟩ := split_at_first (by simpa using h) (by simpa using h') hrev
  exact ⟨List.reverse_injective hxs, List.reverse_injective hys⟩

/-- A text does not come before what it begins with. -/
theorem not_append_lt (s t : String) : ¬ s ++ t < s := by
  rw [String.lt_iff_toList_lt, String.toList_append]
  induction s.toList with
  | nil => simp
  | cons c cs ih =>
    rw [List.cons_append, List.cons_lt_cons_iff]
    simpa using ih

theorem label_chars (kind : HostKind) :
    ∀ c ∈ kind.asLabel.toList, c ≠ 'f' ∧ c.isDigit = false := by
  have hall : kind.asLabel.toList.all (fun c => c != 'f' && !c.isDigit) = true := by
    cases kind <;> decide +kernel
  intro c hc
  simpa using List.all_eq_true.1 hall c hc

theorem asLabel_injective : Function.Injective HostKind.asLabel := by
  intro k k' h
  cases k <;> cases k' <;> first | rfl | exact absurd h (by decide +kernel)

/-! ## Numbered texts -/

/-- The `i`-th text of a row: the base, then `<base>-2`, `<base>-3`, … -/
def numbered (base : String) : ℕ → String
  | 0 => base
  | i + 1 => base ++ "-" ++ toString (i + 2)

/-- The `i`-th name, from `0`, that a conflict about `name` gives to a variant
found by clients of a kind. -/
def variantName (name : String) (kind : HostKind) (i : ℕ) : String :=
  numbered (name ++ "-from-" ++ kind.asLabel) i

theorem numbered_append (s t : String) (i : ℕ) : numbered (s ++ t) i = s ++ numbered t i := by
  cases i with
  | zero => rfl
  | succ i => simp [numbered, String.append_assoc]

theorem toList_numbered_succ (s : String) (i : ℕ) :
    (numbered s (i + 1)).toList = s.toList ++ '-' :: (toString (i + 2)).toList := by
  simp [numbered, String.toList_append]

theorem numbered_row_injective (base : String) :
    Function.Injective fun counter : ℕ => base ++ "-" ++ toString counter := by
  intro a b h
  have hl : base.toList ++ ('-' :: (toString a).toList) =
      base.toList ++ ('-' :: (toString b).toList) := by
    simpa [String.toList_append] using congrArg String.toList h
  have hab := List.append_cancel_left hl
  exact toString_injective (String.toList_injective (List.cons.inj hab).2)

/-- A label with a number on it determines both. -/
theorem numbered_label_injective {k k' : HostKind} {i i' : ℕ}
    (h : numbered k.asLabel i = numbered k'.asLabel i') : k = k' ∧ i = i' := by
  have hdigit : ∀ n : ℕ, ∃ c ∈ (toString n).toList, c.isDigit = true := by
    intro n
    rw [Nat.toString_eq_repr, Nat.toList_repr]
    obtain ⟨c, hc⟩ := List.exists_mem_of_ne_nil _ (Nat.toDigits_ne_nil (b := 10) (n := n))
    exact ⟨c, hc, Nat.isDigit_of_mem_toDigits (by decide) (by decide) hc⟩
  -- a label without a number has no digit
  have hbare : ∀ (k k' : HostKind) (i : ℕ), k.asLabel ≠ numbered k'.asLabel (i + 1) := by
    intro k k' i heq
    obtain ⟨c, hc, hcd⟩ := hdigit (i + 2)
    have hmem : c ∈ k.asLabel.toList := by
      rw [heq, toList_numbered_succ]
      exact List.mem_append_right _ (List.mem_cons_of_mem _ hc)
    rw [(label_chars k c hmem).2] at hcd
    cases hcd
  cases i with
  | zero =>
    cases i' with
    | zero => exact ⟨asLabel_injective h, rfl⟩
    | succ i' => exact absurd h (hbare k k' i')
  | succ i =>
    cases i' with
    | zero => exact absurd h.symm (hbare k' k i)
    | succ i' =>
      -- both end in `-` and a number, which has no `-` in it
      have hl := congrArg String.toList h
      rw [toList_numbered_succ, toList_numbered_succ] at hl
      obtain ⟨hk, hi⟩ := split_at_last (notMem_toString (by decide) _)
        (notMem_toString (by decide) _) hl
      have := toString_injective (String.toList_injective hi)
      exact ⟨asLabel_injective (String.toList_injective hk), by omega⟩

/-- **A variant's name determines the conflict, the kind and the number.** -/
theorem variantName_injective {n n' : String} {k k' : HostKind} {i i' : ℕ}
    (h : variantName n k i = variantName n' k' i') : n = n' ∧ k = k' ∧ i = i' := by
  -- the last `f` of a variant's name is the one of `-from-`
  have hsplit : ∀ (n : String) (k : HostKind) (i : ℕ), (variantName n k i).toList =
      (n.toList ++ ['-']) ++ 'f' :: ("rom-".toList ++ (numbered k.asLabel i).toList) := by
    intro n k i
    rw [variantName, numbered_append, String.toList_append, String.toList_append]
    simp
  have hf : ∀ (k : HostKind) (i : ℕ), 'f' ∉ "rom-".toList ++ (numbered k.asLabel i).toList := by
    intro k i hmem
    rcases List.mem_append.1 hmem with h | h
    · exact absurd h (by decide +kernel)
    · cases i with
      | zero => exact (label_chars k _ h).1 rfl
      | succ i =>
        rw [toList_numbered_succ, List.mem_append, List.mem_cons] at h
        rcases h with h | h | h
        · exact (label_chars k _ h).1 rfl
        · exact absurd h (by decide)
        · exact notMem_toString (by decide) _ h
  have hl := congrArg String.toList h
  rw [hsplit, hsplit] at hl
  obtain ⟨hn, ht⟩ := split_at_last (hf k i) (hf k' i') hl
  refine ⟨String.toList_injective (List.append_cancel_right hn), ?_⟩
  exact numbered_label_injective (String.toList_injective (List.append_cancel_left ht))

/-- A name comes before the names its conflict gives. -/
theorem not_variantName_lt (n : String) (k : HostKind) (i : ℕ) : ¬ variantName n k i < n := by
  rw [variantName, String.append_assoc, numbered_append]
  exact not_append_lt n _

end Config

end VcOperator
