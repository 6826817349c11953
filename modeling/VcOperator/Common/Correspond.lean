import Mathlib.Data.List.Forall2
/-!
# Lists that correspond

Two lists related element by element: what one side has, the other has too, in
particular its pairs.
-/

namespace VcOperator

variable {α β ε : Type*} {R : α → β → Prop} {S : β → β → Prop} {as : List α} {bs : List β}

/-- What a loop returns that stops at the first error. -/
theorem forall₂_of_mapM {f : α → Except ε β} (h : as.mapM f = .ok bs) :
    List.Forall₂ (fun a b => f a = .ok b) as bs := by
  induction as generalizing bs with
  | nil =>
    cases h
    exact .nil
  | cons a as ih =>
    rw [List.mapM_cons] at h
    cases hfirst : f a with
    | error e =>
      rw [hfirst] at h
      cases h
    | ok b =>
      cases hrest : as.mapM f with
      | error e =>
        rw [hfirst, hrest] at h
        cases h
      | ok bs' =>
        rw [hfirst, hrest] at h
        cases h
        exact .cons hfirst (ih hrest)

/-- And of one that gives up. -/
theorem mapM_eq_some_iff {f : α → Option β} :
    as.mapM f = some bs ↔ List.Forall₂ (fun a b => f a = some b) as bs := by
  induction as generalizing bs with
  | nil => cases bs <;> simp
  | cons a as ih =>
    rw [List.mapM_cons]
    cases bs with
    | nil => cases f a <;> cases as.mapM f <;> simp
    | cons b bs =>
      rw [List.forall₂_cons, ← ih]
      cases f a <;> cases as.mapM f <;> simp

theorem exists_left_of_forall₂ (h : List.Forall₂ R as bs) {b : β} (hb : b ∈ bs) :
    ∃ a ∈ as, R a b := by
  induction h with
  | nil => cases hb
  | cons hab _ ih =>
    rcases List.mem_cons.1 hb with rfl | hb
    · exact ⟨_, List.mem_cons_self, hab⟩
    · obtain ⟨a, ha, hr⟩ := ih hb
      exact ⟨a, List.mem_cons_of_mem _ ha, hr⟩

theorem exists_right_of_forall₂ (h : List.Forall₂ R as bs) {a : α} (ha : a ∈ as) :
    ∃ b ∈ bs, R a b := by
  induction h with
  | nil => cases ha
  | cons hab _ ih =>
    rcases List.mem_cons.1 ha with rfl | ha
    · exact ⟨_, List.mem_cons_self, hab⟩
    · obtain ⟨b, hb, hr⟩ := ih ha
      exact ⟨b, List.mem_cons_of_mem _ hb, hr⟩

/-- What stands at one place of both. -/
theorem exists_getElem?_of_forall₂ (h : List.Forall₂ R as bs) {i : ℕ} {a : α}
    (ha : as[i]? = some a) : ∃ b, bs[i]? = some b ∧ R a b := by
  induction h generalizing i with
  | nil => cases ha
  | @cons a' b' as bs hab _ ih =>
    cases i with
    | zero => exact ⟨b', rfl, Option.some.inj ha ▸ hab⟩
    | succ i => exact ih ha

/-- What holds of corresponding elements, where the left one decides it. -/
theorem forall₂_iff_forall_mem {Q : α → β → Prop} {p : α → Prop} (h : List.Forall₂ R as bs)
    (hp : ∀ a ∈ as, ∀ b, R a b → (Q a b ↔ p a)) : List.Forall₂ Q as bs ↔ ∀ a ∈ as, p a := by
  induction h with
  | nil => simp
  | @cons a b as bs hab _ ih =>
    rw [List.forall₂_cons, List.forall_mem_cons, hp a List.mem_cons_self b hab,
      ih fun a' ha' => hp a' (List.mem_cons_of_mem _ ha')]

/-- **Pairs on one side are pairs on the other**, where each `a` has one `b`. -/
theorem pairwise_iff_of_forall₂ (hS : ∀ b b', S b b' → S b' b) (h : List.Forall₂ R as bs)
    (hfun : ∀ a b b', R a b → R a b' → b = b') (hnodup : as.Nodup) :
    bs.Pairwise S ↔
      ∀ a ∈ as, ∀ a' ∈ as, a ≠ a' → ∀ b b', R a b → R a' b' → S b b' := by
  induction h with
  | nil => simp
  | @cons a b as bs hab hrest ih =>
    obtain ⟨hnew, hnodup'⟩ := List.nodup_cons.1 hnodup
    rw [List.pairwise_cons, ih hnodup']
    constructor
    · rintro ⟨hhead, htail⟩ a₁ ha₁ a₂ ha₂ hne b₁ b₂ h₁ h₂
      have hleft : ∀ a', a' ∈ as → ∀ b', R a' b' → S b b' := by
        intro a' ha' b' hr
        obtain ⟨b'', hb'', hr'⟩ := exists_right_of_forall₂ hrest ha'
        exact hfun a' b'' b' hr' hr ▸ hhead b'' hb''
      rcases List.mem_cons.1 ha₁ with heq₁ | hmem₁
      · rcases List.mem_cons.1 ha₂ with heq₂ | hmem₂
        · exact absurd (heq₁.trans heq₂.symm) hne
        · exact hfun a b b₁ hab (heq₁ ▸ h₁) ▸ hleft a₂ hmem₂ b₂ h₂
      · rcases List.mem_cons.1 ha₂ with heq₂ | hmem₂
        · exact hS _ _ (hfun a b b₂ hab (heq₂ ▸ h₂) ▸ hleft a₁ hmem₁ b₁ h₁)
        · exact htail a₁ hmem₁ a₂ hmem₂ hne b₁ b₂ h₁ h₂
    · intro hall
      refine ⟨fun b' hb' => ?_, fun a₁ ha₁ a₂ ha₂ =>
        hall a₁ (List.mem_cons_of_mem _ ha₁) a₂ (List.mem_cons_of_mem _ ha₂)⟩
      obtain ⟨a', ha', hr⟩ := exists_left_of_forall₂ hrest hb'
      have hne : a ≠ a' := by
        rintro rfl
        exact hnew ha'
      exact hall a List.mem_cons_self a' (List.mem_cons_of_mem _ ha') hne b b' hab hr

end VcOperator
