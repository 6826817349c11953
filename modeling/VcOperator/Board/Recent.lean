import VcOperator.Board.NewestFirst
/-!
# The recent events

The events of a run are sorted, and cut off, by the texts of their
timestamps. A text that comes later in this order need not be a later
instant.
-/

namespace VcOperator

namespace Board

variable {τ : Type} [LinearOrder τ] (out : Outside τ)

/-- The instant of an event. -/
def RunEvent.instant (event : RunEvent) : WithBot τ := Board.instant out (some event.ts)

/-- The events of a run. -/
def eventsOf (events : List RunEvent) (runId : String) : List RunEvent :=
  events.filter fun event => event.runId = some runId

/-- **The recent events are the most recent ones.** -/
structure MostRecent (events : List RunEvent) (runId : String) : Prop where
  /-- They are of this run. -/
  ofRun : ∀ event ∈ recentEventsFor events runId, event ∈ events ∧ event.runId = some runId
  atMost : (recentEventsFor events runId).length ≤ 8
  /-- The newest comes first. -/
  sorted : (recentEventsFor events runId).Pairwise fun first second =>
    second.instant out ≤ first.instant out
  /-- None that is left out is newer than one of them. -/
  leftOut : ∃ rest, (recentEventsFor events runId ++ rest).Perm (eventsOf events runId) ∧
    ∀ event ∈ recentEventsFor events runId, ∀ other ∈ rest,
      other.instant out ≤ event.instant out

/-- **A later text is a later instant**, of the texts that come among the last eight. -/
def TextsInOrder (events : List RunEvent) (runId : String) : Prop :=
  ∀ event ∈ eventsOf events runId, ∀ other ∈ eventsOf events runId, other.ts < event.ts →
    (eventsOf events runId).countP (event.ts < ·.ts) < 8 → other.instant out ≤ event.instant out

/-! ## Sorting by text -/

variable {out} {events : List RunEvent} {runId : String}

/-- The events of a run, sorted by text. -/
def byText (events : List RunEvent) (runId : String) : List RunEvent :=
  sortBy (fun left right => compare right.ts left.ts) (eventsOf events runId)

theorem perm_byText : (byText events runId).Perm (eventsOf events runId) := List.mergeSort_perm _ _

theorem isLE_compare_ts {left right : RunEvent} :
    (compare right.ts left.ts).isLE = true ↔ right.ts ≤ left.ts := by
  rw [Ordering.isLE_iff_ne_gt, ← compare_le_iff_le]

theorem sorted_byText : (byText events runId).Pairwise fun left right => right.ts ≤ left.ts := by
  have hsorted := @List.pairwise_mergeSort _
    (fun left right : RunEvent => (compare right.ts left.ts).isLE)
    (fun a b c hab hbc =>
      isLE_compare_ts.2 ((isLE_compare_ts.1 hbc).trans (isLE_compare_ts.1 hab)))
    (fun a b => by simpa [isLE_compare_ts] using le_total _ _) (eventsOf events runId)
  exact hsorted.imp isLE_compare_ts.1

theorem mem_eventsOf {event : RunEvent} :
    event ∈ eventsOf events runId ↔ event ∈ events ∧ event.runId = some runId := by
  simp [eventsOf]

omit [LinearOrder τ] in
theorem instant_congr {event other : RunEvent} (h : event.ts = other.ts) :
    event.instant out = other.instant out := by
  rw [RunEvent.instant, RunEvent.instant, h]

/-! ## The first elements of a list -/

section Take

variable {α : Type} {R : α → α → Prop}

/-- **The first elements are related to all that follow them.** -/
theorem pairwise_take_iff {l : List α} {n : ℕ} :
    ((l.take n).Pairwise R ∧ ∀ a ∈ l.take n, ∀ b ∈ l.drop n, R a b) ↔
      ∀ before a after, l = before ++ a :: after → before.length < n → ∀ b ∈ after, R a b := by
  induction l generalizing n with
  | nil => simp
  | cons first l ih =>
    cases n with
    | zero => simp
    | succ n =>
      rw [List.take_succ_cons, List.drop_succ_cons, List.pairwise_cons]
      constructor
      · rintro ⟨⟨hfirst, htake⟩, hdrop⟩ before a after hsplit hlt b hb
        cases before with
        | nil =>
          obtain ⟨rfl, rfl⟩ := List.cons.inj hsplit
          rw [← List.take_append_drop n l, List.mem_append] at hb
          exact hb.elim (hfirst b) (hdrop first List.mem_cons_self b)
        | cons c before =>
          obtain ⟨rfl, rfl⟩ := List.cons.inj hsplit
          exact ih.1 ⟨htake, fun a ha => hdrop a (List.mem_cons_of_mem _ ha)⟩ before a after rfl
            (by simpa using hlt) b hb
      · intro h
        have hfirst : ∀ b ∈ l, R first b := h [] first l rfl (Nat.succ_pos n)
        obtain ⟨htake, hdrop⟩ := ih.2 fun before a after hsplit hlt =>
          h (first :: before) a after (by rw [hsplit]; rfl) (by simpa using hlt)
        refine ⟨⟨fun b hb => hfirst b (List.mem_of_mem_take hb), htake⟩, fun a ha b hb => ?_⟩
        rcases List.mem_cons.1 ha with rfl | ha
        · exact hfirst b (List.mem_of_mem_drop hb)
        · exact hdrop a ha b hb

end Take

/-! ## Places -/

/-- **What the result says of the sorted events**: of one of the first eight, and all after it. -/
theorem mostRecent_iff_split : MostRecent out events runId ↔
    ∀ before event after, byText events runId = before ++ event :: after → before.length < 8 →
      ∀ other ∈ after, other.instant out ≤ event.instant out := by
  refine Iff.trans ?_ (pairwise_take_iff (R := fun event other : RunEvent =>
    other.instant out ≤ event.instant out))
  have hsplit : ((byText events runId).take 8 ++ (byText events runId).drop 8).Perm
      (eventsOf events runId) := by
    rw [List.take_append_drop]
    exact perm_byText
  constructor
  · intro h
    refine ⟨h.sorted, fun event hevent other hother => ?_⟩
    obtain ⟨rest, hperm, hrest⟩ := h.leftOut
    have hdrop : ((byText events runId).drop 8).Perm rest :=
      (List.perm_append_left_iff _).1 (hsplit.trans hperm.symm)
    exact hrest event hevent other (hdrop.mem_iff.1 hother)
  · rintro ⟨hsorted, hrest⟩
    exact {
      ofRun := fun event hevent =>
        mem_eventsOf.1 (perm_byText.mem_iff.1 (List.mem_of_mem_take hevent))
      atMost := List.length_take_le 8 _
      sorted := hsorted
      leftOut := ⟨_, hsplit, hrest⟩ }

/-- An event of a text has its place after those of the later texts. -/
theorem exists_place {event : RunEvent} (h : event ∈ eventsOf events runId) :
    ∃ before first after, byText events runId = before ++ first :: after ∧
      first.ts = event.ts ∧ ∀ other ∈ before, event.ts < other.ts := by
  have hmem : event ∈ byText events runId := perm_byText.mem_iff.2 h
  obtain ⟨first, hfind⟩ : ∃ first, (byText events runId).find? (·.ts ≤ event.ts) = some first :=
    Option.isSome_iff_exists.1 (List.find?_isSome.2 ⟨event, hmem, by simp⟩)
  obtain ⟨hle, before, after, hsplit, hbefore⟩ := List.find?_eq_some_iff_append.1 hfind
  have hlater : ∀ other ∈ before, event.ts < other.ts := fun other hother => by
    simpa using hbefore other hother
  refine ⟨before, first, after, hsplit, ?_, hlater⟩
  have hsorted := @sorted_byText events runId
  rw [hsplit] at hsorted hmem
  rcases List.mem_append.1 hmem with hmem | hmem
  · exact absurd (hlater event hmem) (lt_irrefl _)
  · rcases List.mem_cons.1 hmem with rfl | hmem
    · rfl
    · refine le_antisymm (by simpa using hle) ?_
      exact (List.pairwise_cons.1 (List.pairwise_append.1 hsorted).2.1).1 event hmem

/-- The texts that come before a place. -/
theorem countP_le_length {before after : List RunEvent} {event : RunEvent}
    (h : byText events runId = before ++ event :: after) :
    (eventsOf events runId).countP (event.ts < ·.ts) ≤ before.length := by
  have hsorted := @sorted_byText events runId
  rw [h] at hsorted
  have hafter : (event :: after).countP (event.ts < ·.ts) = 0 := by
    have hle : ∀ other ∈ event :: after, other.ts ≤ event.ts :=
      List.forall_mem_cons.2 ⟨le_rfl, (List.pairwise_cons.1 (List.pairwise_append.1 hsorted).2.1).1⟩
    exact List.countP_eq_zero.2 fun other hother hlt =>
      absurd (of_decide_eq_true hlt) (not_lt.2 (hle other hother))
  rw [← perm_byText.countP_eq, h, List.countP_append, hafter]
  exact List.countP_le_length

/-! ## The result -/

theorem textsInOrder_of_split
    (h : ∀ before event after, byText events runId = before ++ event :: after →
      before.length < 8 → ∀ other ∈ after, other.instant out ≤ event.instant out) :
    TextsInOrder out events runId := by
  intro event hevent other hother hlt hcount
  obtain ⟨before, first, after, hsplit, hts, hbefore⟩ := exists_place hevent
  have hbeforeCount : before.countP (event.ts < ·.ts) = before.length :=
    List.countP_eq_length.2 fun other hother => decide_eq_true (hbefore other hother)
  have hlength : before.length < 8 := by
    rw [← perm_byText.countP_eq, hsplit, List.countP_append, hbeforeCount] at hcount
    exact lt_of_le_of_lt (Nat.le_add_right _ _) hcount
  have hafter : other ∈ after := by
    have hmem : other ∈ byText events runId := perm_byText.mem_iff.2 hother
    rw [hsplit, List.mem_append, List.mem_cons] at hmem
    rcases hmem with hmem | rfl | hmem
    · exact absurd (hbefore other hmem) hlt.asymm
    · exact absurd hts hlt.ne
    · exact hmem
  rw [← instant_congr hts]
  exact h before first after hsplit hlength other hafter

/-- **When the recent events are the most recent ones**: exactly when a later text is a later
instant, of the texts that come among the last eight. -/
theorem mostRecent_iff_textsInOrder (out : Outside τ) (events : List RunEvent) (runId : String) :
    MostRecent out events runId ↔ TextsInOrder out events runId := by
  rw [mostRecent_iff_split]
  refine ⟨textsInOrder_of_split, ?_⟩
  intro h before event after hsplit hlength other hother
  have hsorted := @sorted_byText events runId
  rw [hsplit] at hsorted
  rcases ((List.pairwise_cons.1 (List.pairwise_append.1 hsorted).2.1).1 other hother).lt_or_eq
    with hlt | heq
  · have hmem : ∀ e ∈ event :: after, e ∈ eventsOf events runId := fun e he =>
      perm_byText.mem_iff.1 (hsplit ▸ List.mem_append_right before he)
    exact h event (hmem event List.mem_cons_self) other
      (hmem other (List.mem_cons_of_mem _ hother)) hlt
      (lt_of_le_of_lt (countP_le_length hsplit) hlength)
  · exact (instant_congr heq).le

/-- Seconds of three digits, and of four. -/
def shorterSeconds : List RunEvent :=
  [⟨"999", some "r", "started", none, none⟩, ⟨"1000", some "r", "done", none, none⟩]

/-- Of two timestamps in seconds the older one comes first, being the later text. -/
theorem not_mostRecent_shorterSeconds : ¬ ∀ (τ : Type) (_ : LinearOrder τ) (out : Outside τ)
    (events : List RunEvent) (runId : String),
    (∀ event ∈ events, (parseTimestamp out event.ts).isSome = true) →
      MostRecent out events runId := by
  intro h
  have hrecent := h ℤ inferInstance epoch shorterSeconds "r" (by decide +kernel)
  have horder := textsInOrder_of_split (mostRecent_iff_split.1 hrecent)
  have hinstant := horder ⟨"999", some "r", "started", none, none⟩
    (mem_eventsOf.2 ⟨List.mem_cons_self, rfl⟩) ⟨"1000", some "r", "done", none, none⟩
    (mem_eventsOf.2 ⟨List.mem_cons_of_mem _ List.mem_cons_self, rfl⟩) (by decide +kernel)
    (by decide +kernel)
  revert hinstant
  decide +kernel

end Board

end VcOperator
