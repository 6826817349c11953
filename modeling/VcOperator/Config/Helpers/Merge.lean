import VcOperator.Config.Helpers.VariantNames
/-!
# What `merge_services` computes

The loop of `merge_services`, without its accumulators: the merged
services are, name by name in order, the one definition of a name under
that name, or the variants of a conflict under the names `variantName`
gives them (`mergeServices_services`). The set of used names plays no
part in the outcome: a name a conflict gives can only have been given by
the same conflict before, which is what `ensure_unique` then counts.
-/

namespace VcOperator

namespace Config

/-! ## Definitions of a name -/

/-- Every service of every scan, with its source. -/
def found (scans : List ScanResult) : List (HostFile × HostService) :=
  scans.flatMap fun scan => scan.services.map fun svc => (scan.host, svc)

/-- The definitions of a name, identical ones once. -/
def definitions (scans : List ScanResult) (name : String) : List (HostFile × HostService) :=
  unique ((found scans).filter fun v => v.2.name = name)

/-- Those of them that were first found by a client of a kind. -/
def variantsOf (scans : List ScanResult) (name : String) (kind : HostKind) :
    List (HostFile × HostService) :=
  (definitions scans name).filter fun v => v.1.kind = kind

/-- A name with two definitions that differ. -/
def Conflicting (scans : List ScanResult) (name : String) : Prop :=
  2 ≤ (definitions scans name).length

instance (scans : List ScanResult) (name : String) : Decidable (Conflicting scans name) :=
  inferInstanceAs (Decidable (2 ≤ _))

/-- The variants of a conflict under their new names; `seen` are the kinds of
those already named. -/
def renamed (name : String) :
    List HostKind → List (HostFile × HostService) → List HostService
  | _, [] => []
  | seen, v :: vs =>
    { v.2 with name := variantName name v.1.kind (seen.count v.1.kind) } ::
      renamed name (v.1.kind :: seen) vs

/-- What the merge makes of the definitions of a name. -/
def outcome (name : String) : List (HostFile × HostService) → List HostService
  | [(_, svc)] => [svc]
  | vs => renamed name [] vs

/-- Every definition under the name the merge gives it, name by name. -/
def named (scans : List ScanResult) : List HostService :=
  (byName scans).keys.flatMap fun n => outcome n (definitions scans n)

theorem mem_found {scans : List ScanResult} {v : HostFile × HostService} :
    v ∈ found scans ↔ ∃ scan ∈ scans, v.1 = scan.host ∧ v.2 ∈ scan.services := by
  simp only [found, List.mem_flatMap, List.mem_map]
  constructor
  · rintro ⟨scan, hscan, svc, hsvc, rfl⟩
    exact ⟨scan, hscan, rfl, hsvc⟩
  · rintro ⟨scan, hscan, hhost, hsvc⟩
    exact ⟨scan, hscan, v.2, hsvc, by rw [← hhost]⟩

theorem byName_eq_group (scans : List ScanResult) :
    byName scans = OrderedMap.group (fun v => v.2.name) (found scans) := by
  have hinner : ∀ (host : HostFile) (svcs : List HostService)
      (m : OrderedMap String (List (HostFile × HostService))),
      svcs.foldl (fun m svc => m.push svc.name (host, svc)) m =
        (svcs.map fun svc => (host, svc)).foldl (fun m v => m.push v.2.name v) m := by
    intro host svcs m
    rw [List.foldl_map]
  rw [byName, OrderedMap.group, found, List.foldl_flatMap]
  simp only [hinner]

/-- The names, in the order the merge takes them. -/
theorem mem_keys_byName {scans : List ScanResult} {name : String} :
    name ∈ (byName scans).keys ↔ ∃ v ∈ found scans, v.2.name = name := by
  rw [byName_eq_group]
  exact OrderedMap.mem_keys_group

theorem entries_byName (scans : List ScanResult) :
    (byName scans).entries =
      (byName scans).keys.map fun n => (n, (found scans).filter fun v => v.2.name = n) := by
  rw [byName_eq_group]
  exact OrderedMap.entries_group _ _

/-! ## Identical definitions -/

theorem servicesEquivalent_iff {a b : HostService} : servicesEquivalent a b = true ↔
    a.command = b.command ∧ a.args = b.args ∧ a.cwd = b.cwd ∧ a.env = b.env ∧
      a.socket = b.socket := by
  simp [servicesEquivalent, and_assoc]

theorem servicesEquivalent_refl (a : HostService) : servicesEquivalent a a = true :=
  servicesEquivalent_iff.2 ⟨rfl, rfl, rfl, rfl, rfl⟩

theorem servicesEquivalent_symm {a b : HostService} (h : servicesEquivalent a b = true) :
    servicesEquivalent b a = true := by
  obtain ⟨hc, ha, hw, he, hs⟩ := servicesEquivalent_iff.1 h
  exact servicesEquivalent_iff.2 ⟨hc.symm, ha.symm, hw.symm, he.symm, hs.symm⟩

theorem servicesEquivalent_trans {a b c : HostService} (hab : servicesEquivalent a b = true)
    (hbc : servicesEquivalent b c = true) : servicesEquivalent a c = true := by
  obtain ⟨hc, ha, hw, he, hs⟩ := servicesEquivalent_iff.1 hab
  obtain ⟨hc', ha', hw', he', hs'⟩ := servicesEquivalent_iff.1 hbc
  exact servicesEquivalent_iff.2
    ⟨hc.trans hc', ha.trans ha', hw.trans hw', he.trans he', hs.trans hs'⟩

/-- The one loop of `unique`, from any accumulator. -/
def keep (kept : List (HostFile × HostService)) (v : HostFile × HostService) :
    List (HostFile × HostService) :=
  if kept.any fun e => servicesEquivalent e.2 v.2 then kept else kept ++ [v]

theorem keep_extends (kept : List (HostFile × HostService)) (v : HostFile × HostService) :
    kept <+: keep kept v := by
  rw [keep]
  split_ifs
  · exact List.prefix_rfl
  · exact List.prefix_append _ _

theorem foldl_keep_extends (kept vs : List (HostFile × HostService)) :
    kept <+: vs.foldl keep kept := by
  induction vs generalizing kept with
  | nil => exact List.prefix_rfl
  | cons v vs ih => exact (keep_extends kept v).trans (ih _)

theorem mem_of_mem_foldl_keep {kept vs : List (HostFile × HostService)}
    {v : HostFile × HostService} (h : v ∈ vs.foldl keep kept) : v ∈ kept ∨ v ∈ vs := by
  induction vs generalizing kept with
  | nil => exact .inl h
  | cons w vs ih =>
    rcases ih h with hk | hv
    · rw [keep] at hk
      split_ifs at hk
      · exact .inl hk
      · rcases List.mem_append.1 hk with hk | hk
        · exact .inl hk
        · rw [List.mem_singleton] at hk
          exact .inr (hk ▸ List.mem_cons_self)
    · exact .inr (List.mem_cons_of_mem _ hv)

theorem mem_of_mem_unique {vs : List (HostFile × HostService)} {v : HostFile × HostService}
    (h : v ∈ unique vs) : v ∈ vs :=
  (mem_of_mem_foldl_keep h).resolve_left List.not_mem_nil

/-- **Every definition has a kept one it is identical to.** -/
theorem exists_mem_unique {vs : List (HostFile × HostService)} {v : HostFile × HostService}
    (h : v ∈ vs) : ∃ e ∈ unique vs, servicesEquivalent e.2 v.2 = true := by
  -- kept once, it is kept to the end
  have hfold : ∀ kept : List (HostFile × HostService),
      ∃ e ∈ vs.foldl keep kept, servicesEquivalent e.2 v.2 = true := by
    induction vs with
    | nil => cases h
    | cons w vs ih =>
      intro kept
      rcases List.mem_cons.1 h with rfl | h
      · have hkept : ∃ e ∈ keep kept v, servicesEquivalent e.2 v.2 = true := by
          rw [keep]
          split_ifs with hany
          · exact List.any_eq_true.1 hany
          · exact ⟨v, List.mem_append_right _ List.mem_cons_self, servicesEquivalent_refl _⟩
        obtain ⟨e, he, heq⟩ := hkept
        exact ⟨e, (foldl_keep_extends _ vs).subset he, heq⟩
      · exact ih h _
  exact hfold []

/-- And no two kept definitions are identical. -/
theorem unique_pairwise (vs : List (HostFile × HostService)) :
    (unique vs).Pairwise fun a b => servicesEquivalent a.2 b.2 = false := by
  have hkeep : ∀ (kept : List (HostFile × HostService)) (v : HostFile × HostService),
      (kept.Pairwise fun a b => servicesEquivalent a.2 b.2 = false) →
        (keep kept v).Pairwise fun a b => servicesEquivalent a.2 b.2 = false := by
    intro kept v h
    rw [keep]
    split_ifs with hany
    · exact h
    · refine List.pairwise_append.2 ⟨h, List.pairwise_singleton _ _, fun a ha b hb => ?_⟩
      rw [List.mem_singleton] at hb
      rw [hb, Bool.eq_false_iff]
      exact fun heq => hany (List.any_eq_true.2 ⟨a, ha, heq⟩)
  have hfold : ∀ kept : List (HostFile × HostService),
      (kept.Pairwise fun a b => servicesEquivalent a.2 b.2 = false) →
        (vs.foldl keep kept).Pairwise fun a b => servicesEquivalent a.2 b.2 = false := by
    induction vs with
    | nil => exact fun _ h => h
    | cons v vs ih => exact fun kept h => ih _ (hkeep kept v h)
  exact hfold [] .nil

theorem name_of_mem_definitions {scans : List ScanResult} {name : String}
    {v : HostFile × HostService} (h : v ∈ definitions scans name) :
    v ∈ found scans ∧ v.2.name = name := by
  have := List.mem_filter.1 (mem_of_mem_unique h)
  exact ⟨this.1, by simpa using this.2⟩

theorem exists_mem_definitions {scans : List ScanResult} {v : HostFile × HostService}
    (h : v ∈ found scans) :
    ∃ e ∈ definitions scans v.2.name, servicesEquivalent e.2 v.2 = true :=
  exists_mem_unique (List.mem_filter.2 ⟨h, by simp⟩)

/-- A name the merge meets has a definition. -/
theorem definitions_ne_nil {scans : List ScanResult} {name : String}
    (h : name ∈ (byName scans).keys) : definitions scans name ≠ [] := by
  obtain ⟨v, hv, rfl⟩ := mem_keys_byName.1 h
  obtain ⟨e, he, -⟩ := exists_mem_definitions hv
  exact List.ne_nil_of_mem he

/-! ## The loop -/

/-- **`ensure_unique`, within a conflict**, counts the variants of a kind that
were named before. -/
theorem ensureUnique_variantName {name : String} {used : List String} {seen : List HostKind}
    (hused : ∀ k i, variantName name k i ∈ used ↔ i < seen.count k) (kind : HostKind) :
    ensureUnique used (name ++ "-from-" ++ kind.asLabel) =
      variantName name kind (seen.count kind) := by
  have hbase : name ++ "-from-" ++ kind.asLabel = variantName name kind 0 := rfl
  rw [ensureUnique, hbase]
  have hmem := hused kind
  generalize seen.count kind = c at hmem
  cases c with
  | zero => rw [if_neg fun h => absurd ((hmem 0).1 h) (by omega)]
  | succ c =>
    have hrow : ∀ j, variantName name kind 0 ++ "-" ++ toString (2 + j) =
        variantName name kind (j + 1) := fun j => by
      rw [Nat.add_comm 2 j]
      rfl
    rw [if_pos ((hmem 0).2 (by omega)), ← hrow c]
    refine firstFree_eq_of_injective (numbered_row_injective _) (fun j hj => ?_) ?_
    · rw [hrow, hmem]
      omega
    · rw [hrow, hmem]
      omega

/-- The inner loop names the variants of one conflict. -/
theorem foldl_renameVariant {name : String} {seen : List HostKind}
    {vs : List (HostFile × HostService)} {m : Merging}
    (hused : ∀ k i, variantName name k i ∈ m.usedNames ↔ i < seen.count k) :
    (vs.foldl (renameVariant name) m).services = m.services ++ renamed name seen vs ∧
      ∀ x ∈ (vs.foldl (renameVariant name) m).usedNames,
        x ∈ m.usedNames ∨ ∃ k i, x = variantName name k i := by
  induction vs generalizing seen m with
  | nil => exact ⟨by simp [renamed], fun x hx => .inl hx⟩
  | cons v vs ih =>
    have hunique := ensureUnique_variantName hused v.1.kind
    -- the name given is of its own kind and next in the row, so the count is kept
    have hnext : ∀ k i, variantName name k i ∈ (renameVariant name m v).usedNames ↔
        i < (v.1.kind :: seen).count k := by
      intro k i
      simp only [renameVariant, hunique, List.mem_cons, hused, List.count_cons]
      constructor
      · rintro (h | h)
        · obtain ⟨-, rfl, rfl⟩ := variantName_injective h
          simp
        · omega
      · intro h
        by_cases hk : v.1.kind = k
        · subst hk
          rw [if_pos (beq_self_eq_true _)] at h
          rcases Nat.lt_succ_iff_lt_or_eq.1 h with hlt | rfl
          · exact .inr hlt
          · exact .inl rfl
        · rw [if_neg (by simpa using hk)] at h
          exact .inr h
    obtain ⟨hsvcs, hnames⟩ := ih hnext
    refine ⟨?_, fun x hx => ?_⟩
    · rw [List.foldl_cons, hsvcs, renamed]
      simp [renameVariant, hunique]
    · rcases hnames x hx with h | h
      · simp only [renameVariant, hunique, List.mem_cons] at h
        rcases h with rfl | h
        · exact .inr ⟨_, _, rfl⟩
        · exact .inl h
      · exact .inr h

/-- One round of the outer loop. -/
theorem mergeName_services {name : String} {variants : List (HostFile × HostService)}
    {m : Merging} (hused : ∀ k i, variantName name k i ∉ m.usedNames) :
    (mergeName m name variants).services = m.services ++ outcome name (unique variants) ∧
      ∀ x ∈ (mergeName m name variants).usedNames,
        x ∈ m.usedNames ∨ x = name ∨ ∃ k i, x = variantName name k i := by
  -- no definition is the same as a conflict without a variant
  have hfold : ∀ (vs : List (HostFile × HostService)) (conflicts : List ConflictReport),
      let m' := vs.foldl (renameVariant name) { m with conflicts := conflicts }
      m'.services = m.services ++ renamed name [] vs ∧
        ∀ x ∈ m'.usedNames, x ∈ m.usedNames ∨ x = name ∨ ∃ k i, x = variantName name k i := by
    intro vs conflicts
    have hnone : ∀ k i, variantName name k i ∈ m.usedNames ↔ i < List.count k [] :=
      fun k i => by simpa using hused k i
    obtain ⟨hsvcs, hnames⟩ :=
      @foldl_renameVariant name [] vs { m with conflicts := conflicts } hnone
    exact ⟨hsvcs, fun x hx => (hnames x hx).imp_right .inr⟩
  rw [mergeName]
  generalize unique variants = vs
  rcases vs with _ | ⟨v, _ | ⟨w, vs⟩⟩
  · exact hfold [] _
  · refine ⟨rfl, fun x hx => ?_⟩
    rcases List.mem_cons.1 hx with rfl | hx
    · exact .inr (.inl rfl)
    · exact .inl hx
  · exact hfold (v :: w :: vs) _

/-- **The merged services** are, name by name in order, the definition of a name,
or the renamed variants of its conflict. -/
theorem mergeServices_services (scans : List ScanResult) :
    (mergeServices scans).services = named scans := by
  have hloop : ∀ (ns : List String) (m : Merging), ns.Pairwise (· < ·) →
      (∀ n ∈ ns, ∀ k i, variantName n k i ∉ m.usedNames) →
      ((ns.map fun n => (n, (found scans).filter fun v => v.2.name = n)).foldl
          (fun m e => mergeName m e.1 e.2) m).services =
        m.services ++ ns.flatMap fun n => outcome n (definitions scans n) := by
    intro ns
    induction ns with
    | nil => simp
    | cons n ns ih =>
      intro m hsorted hused
      obtain ⟨hlt, hsorted⟩ := List.pairwise_cons.1 hsorted
      obtain ⟨hsvcs, hnames⟩ := @mergeName_services n
        ((found scans).filter fun v => v.2.name = n) m (hused n List.mem_cons_self)
      -- a later conflict gives neither this name nor what this conflict gave
      have hnext : ∀ n' ∈ ns, ∀ k i, variantName n' k i ∉ (mergeName m n
          ((found scans).filter fun v => v.2.name = n)).usedNames := by
        intro n' hn' k i hmem
        rcases hnames _ hmem with h | h | ⟨k', i', h⟩
        · exact hused n' (List.mem_cons_of_mem _ hn') k i h
        · exact not_variantName_lt n' k i (h ▸ hlt n' hn')
        · exact absurd (variantName_injective h).1 (ne_of_gt (hlt n' hn'))
      rw [List.map_cons, List.foldl_cons, ih _ hsorted hnext, hsvcs, List.flatMap_cons,
        List.append_assoc]
      rfl
  have hall := hloop (byName scans).keys ⟨[], [], []⟩ (OrderedMap.sorted_keys _)
    (fun _ _ _ _ => List.not_mem_nil)
  rw [mergeServices, entries_byName]
  exact hall

/-! ## The names of one conflict -/

/-- **What a conflict makes of its variants**: the `i`-th variant of a kind takes
the `i`-th name of that kind. -/
theorem mem_renamed {name : String} {svc : HostService} {seen : List HostKind}
    {vs : List (HostFile × HostService)} :
    svc ∈ renamed name seen vs ↔ ∃ (kind : HostKind) (i : ℕ) (v : HostFile × HostService),
      (vs.filter fun v => v.1.kind = kind)[i]? = some v ∧
      svc = { v.2 with name := variantName name kind (seen.count kind + i) } := by
  induction vs generalizing seen with
  | nil => simp [renamed]
  | cons w vs ih =>
    rw [renamed, List.mem_cons, ih]
    constructor
    · -- the first variant takes its kind's next name, and moves the others of its kind by one
      rintro (rfl | ⟨kind, i, v, hv, rfl⟩)
      · exact ⟨w.1.kind, 0, w, by simp, by simp⟩
      · by_cases hk : w.1.kind = kind
        · refine ⟨kind, i + 1, v, by simpa [hk] using hv, ?_⟩
          rw [hk, List.count_cons_self, Nat.add_right_comm, Nat.add_assoc]
        · exact ⟨kind, i, v, by simpa [hk] using hv, by rw [List.count_cons_of_ne hk]⟩
    · rintro ⟨kind, i, v, hv, rfl⟩
      by_cases hk : w.1.kind = kind
      · subst hk
        cases i with
        | zero =>
          rw [List.filter_cons_of_pos (by simp), List.getElem?_cons_zero, Option.some.injEq] at hv
          exact .inl (by rw [← hv, Nat.add_zero])
        | succ i =>
          refine .inr ⟨w.1.kind, i, v, by simpa using hv, ?_⟩
          rw [List.count_cons_self, Nat.add_right_comm, Nat.add_assoc]
      · exact .inr ⟨kind, i, v, by simpa [hk] using hv, by rw [List.count_cons_of_ne hk]⟩

theorem nodup_names_renamed (name : String) (seen : List HostKind)
    (vs : List (HostFile × HostService)) :
    ((renamed name seen vs).map HostService.name).Nodup := by
  induction vs generalizing seen with
  | nil => exact List.nodup_nil
  | cons v vs ih =>
    rw [renamed, List.map_cons, List.nodup_cons]
    refine ⟨fun hmem => ?_, ih _⟩
    obtain ⟨svc, hsvc, heq⟩ := List.mem_map.1 hmem
    obtain ⟨kind, i, u, -, rfl⟩ := mem_renamed.1 hsvc
    obtain ⟨-, rfl, hi⟩ := variantName_injective heq
    rw [List.count_cons_self] at hi
    omega

/-! ## The names of the outcome -/

/-- A name whose definitions agree is kept. -/
theorem outcome_of_not_conflicting {scans : List ScanResult} {name : String}
    (hname : name ∈ (byName scans).keys) (h : ¬ Conflicting scans name) :
    ∃ v, definitions scans name = [v] ∧ outcome name (definitions scans name) = [v.2] := by
  have hne := definitions_ne_nil hname
  have hlen : (definitions scans name).length = 1 := by
    have := List.length_pos_of_ne_nil hne
    unfold Conflicting at h
    omega
  obtain ⟨v, hv⟩ := List.length_eq_one_iff.1 hlen
  exact ⟨v, hv, by rw [hv]; rfl⟩

theorem not_conflicting_of_single {scans : List ScanResult} {name : String}
    {v : HostFile × HostService} (h : definitions scans name = [v]) : ¬ Conflicting scans name := by
  unfold Conflicting
  rw [h]
  exact lt_irrefl 1

theorem outcome_of_conflicting {scans : List ScanResult} {name : String}
    (h : Conflicting scans name) :
    outcome name (definitions scans name) = renamed name [] (definitions scans name) := by
  unfold Conflicting at h
  revert h
  generalize definitions scans name = vs
  intro h
  match vs, h with
  | _ :: _ :: _, _ => rfl

theorem names_of_not_conflicting {scans : List ScanResult} {name : String}
    (hname : name ∈ (byName scans).keys) (h : ¬ Conflicting scans name) :
    (outcome name (definitions scans name)).map HostService.name = [name] := by
  obtain ⟨v, hv, hout⟩ := outcome_of_not_conflicting hname h
  have hmem : v ∈ definitions scans name := hv ▸ List.mem_cons_self
  rw [hout, List.map_singleton, (name_of_mem_definitions hmem).2]

/-- The variants of a conflict under their new names. -/
theorem mem_outcome_of_conflicting {scans : List ScanResult} {name : String} {svc : HostService}
    (h : Conflicting scans name) : svc ∈ outcome name (definitions scans name) ↔
      ∃ (kind : HostKind) (i : ℕ) (v : HostFile × HostService),
        (variantsOf scans name kind)[i]? = some v ∧
        svc = { v.2 with name := variantName name kind i } := by
  rw [outcome_of_conflicting h, mem_renamed]
  simp only [List.count_nil, Nat.zero_add]
  rfl

theorem mem_names_of_conflicting {scans : List ScanResult} {name x : String}
    (h : Conflicting scans name) :
    x ∈ (outcome name (definitions scans name)).map HostService.name ↔
      ∃ kind i, i < (variantsOf scans name kind).length ∧ x = variantName name kind i := by
  simp only [List.mem_map, mem_outcome_of_conflicting h]
  constructor
  · rintro ⟨svc, ⟨kind, i, v, hv, rfl⟩, rfl⟩
    exact ⟨kind, i, (List.getElem?_eq_some_iff.1 hv).1, rfl⟩
  · rintro ⟨kind, i, hi, rfl⟩
    exact ⟨_, ⟨kind, i, _, List.getElem?_eq_getElem hi, rfl⟩, rfl⟩

theorem mem_keys_of_conflicting {scans : List ScanResult} {name : String}
    (h : Conflicting scans name) : name ∈ (byName scans).keys := by
  unfold Conflicting at h
  obtain ⟨v, hv⟩ := List.exists_mem_of_length_pos (l := definitions scans name) (by omega)
  obtain ⟨hfound, hname⟩ := name_of_mem_definitions hv
  exact mem_keys_byName.2 ⟨v, hfound, hname⟩

/-- **A name conflicts when two services found under it differ.** -/
theorem conflicting_iff {scans : List ScanResult} {name : String} :
    Conflicting scans name ↔ ∃ v ∈ found scans, ∃ w ∈ found scans,
      v.2.name = name ∧ w.2.name = name ∧ servicesEquivalent v.2 w.2 = false := by
  constructor
  · intro h
    have hpair : (definitions scans name).Pairwise fun a b =>
        servicesEquivalent a.2 b.2 = false := unique_pairwise _
    unfold Conflicting at h
    match hdefs : definitions scans name, h with
    | v :: w :: vs, _ =>
      rw [hdefs] at hpair
      have hv := name_of_mem_definitions (hdefs ▸ List.mem_cons_self :
        v ∈ definitions scans name)
      have hw := name_of_mem_definitions (hdefs ▸ List.mem_cons_of_mem _ List.mem_cons_self :
        w ∈ definitions scans name)
      exact ⟨v, hv.1, w, hw.1, hv.2, hw.2,
        (List.pairwise_cons.1 hpair).1 w List.mem_cons_self⟩
  · rintro ⟨v, hv, w, hw, rfl, hname, hdiff⟩
    obtain ⟨d, hd, hdv⟩ := exists_mem_definitions hv
    obtain ⟨e, he, hew⟩ := exists_mem_definitions hw
    rw [hname] at he
    -- one definition left would be identical to both
    by_contra hone
    obtain ⟨u, hu, -⟩ := outcome_of_not_conflicting (mem_keys_byName.2 ⟨v, hv, rfl⟩) hone
    rw [hu, List.mem_singleton] at hd he
    subst hd he
    rw [servicesEquivalent_trans (servicesEquivalent_symm hdv) hew] at hdiff
    cases hdiff

end Config

end VcOperator
