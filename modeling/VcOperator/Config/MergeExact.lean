import VcOperator.Common.Correspond
import VcOperator.Config.Helpers.Merge
/-!
# The merge neither loses nor invents a service

Every output of `merge_services` is a service that was found, under the
name it was found under or under a `-from-` rename of that name; every
service found is in the outcome, in that sense, up to
`services_equivalent`; and the reports name the conflicting names, each
once, with one variant for each definition that differs.
-/

namespace VcOperator

namespace Config

/-! ## The reports -/

/-- The report of a conflict. -/
def report (name : String) (vs : List (HostFile × HostService)) : ConflictReport :=
  ⟨name, vs.map fun v => ⟨v.1.path, v.1.kind, v.2⟩⟩

/-- Renaming variants reports nothing. -/
theorem foldl_renameVariant_conflicts (name : String) (vs : List (HostFile × HostService))
    (m : Merging) : (vs.foldl (renameVariant name) m).conflicts = m.conflicts := by
  induction vs generalizing m with
  | nil => rfl
  | cons v vs ih =>
    rw [List.foldl_cons, ih]
    rfl

/-- One round reports the name, unless its variants agree. -/
theorem mergeName_conflicts {name : String} {variants : List (HostFile × HostService)}
    (hne : unique variants ≠ []) (m : Merging) :
    (mergeName m name variants).conflicts = m.conflicts ++
      if 2 ≤ (unique variants).length then [report name (unique variants)] else [] := by
  rw [mergeName]
  generalize unique variants = vs at hne
  rcases vs with _ | ⟨v, _ | ⟨w, vs⟩⟩
  · exact absurd rfl hne
  · simp
  · have hfold := foldl_renameVariant_conflicts name (v :: w :: vs)
      { m with conflicts := m.conflicts ++ [report name (v :: w :: vs)] }
    have hlen : 2 ≤ (v :: w :: vs).length := by
      simp only [List.length_cons]
      omega
    rw [if_pos hlen]
    exact hfold

/-- **The reports** are those of the conflicting names, in order. -/
theorem mergeServices_conflicts (scans : List ScanResult) :
    (mergeServices scans).conflicts =
      ((byName scans).keys.filter (Conflicting scans ·)).map
        fun n => report n (definitions scans n) := by
  have hloop : ∀ (ns : List String) (m : Merging), (∀ n ∈ ns, n ∈ (byName scans).keys) →
      ((ns.map fun n => (n, (found scans).filter fun v => v.2.name = n)).foldl
          (fun m e => mergeName m e.1 e.2) m).conflicts =
        m.conflicts ++ (ns.filter (Conflicting scans ·)).map
          fun n => report n (definitions scans n) := by
    intro ns
    induction ns with
    | nil =>
      intro m _
      simp
    | cons n ns ih =>
      intro m hkeys
      have hdefs : unique ((found scans).filter fun v => v.2.name = n) = definitions scans n := rfl
      have hne : unique ((found scans).filter fun v => v.2.name = n) ≠ [] :=
        definitions_ne_nil (hkeys n List.mem_cons_self)
      rw [List.map_cons, List.foldl_cons, ih _ fun n' hn' => hkeys n' (List.mem_cons_of_mem _ hn'),
        mergeName_conflicts hne, hdefs, List.filter_cons, List.append_assoc]
      congr 1
      by_cases hconf : Conflicting scans n
      · have hlen : 2 ≤ (definitions scans n).length := hconf
        rw [if_pos hlen, if_pos (decide_eq_true hconf), List.map_cons, List.singleton_append]
      · have hlen : ¬ 2 ≤ (definitions scans n).length := hconf
        rw [if_neg hlen, if_neg (by simpa using hconf), List.nil_append]
  have hall := hloop (byName scans).keys ⟨[], [], []⟩ fun _ h => h
  rw [mergeServices, entries_byName]
  exact hall

/-! ## The origins -/

/-- An output made from a service found: the same service, under its name or under a
`-from-` rename of it, after the client it was found in. -/
def MadeFrom (v : HostFile × HostService) (svc : HostService) : Prop :=
  ∃ name, (name = v.2.name ∨ ∃ i, name = variantName v.2.name v.1.kind i) ∧
    svc = { v.2 with name := name }

/-- An output differs from what it was made of in its name alone. -/
theorem MadeFrom.equivalent {v : HostFile × HostService} {svc : HostService}
    (h : MadeFrom v svc) : servicesEquivalent svc v.2 = true := by
  obtain ⟨name, -, rfl⟩ := h
  exact servicesEquivalent_iff.2 ⟨rfl, rfl, rfl, rfl, rfl⟩

theorem MadeFrom.name {v : HostFile × HostService} {svc : HostService} (h : MadeFrom v svc) :
    svc.name = v.2.name ∨ ∃ kind i, svc.name = variantName v.2.name kind i := by
  obtain ⟨name, hname, rfl⟩ := h
  exact hname.imp_right fun ⟨i, hi⟩ => ⟨v.1.kind, i, hi⟩

/-- The variants of a conflict are renamed, one by one. -/
theorem forall₂_renamed (name : String) (seen : List HostKind)
    (vs : List (HostFile × HostService)) :
    List.Forall₂ (fun v svc => ∃ i, svc = { v.2 with name := variantName name v.1.kind i }) vs
      (renamed name seen vs) := by
  induction vs generalizing seen with
  | nil => exact .nil
  | cons v vs ih => exact .cons ⟨seen.count v.1.kind, rfl⟩ (ih _)

/-- What the merge makes of a name: each definition of it, under the name where it is the only
one, and under a `-from-` rename where there are others. -/
def OutcomeOf (name : String) (vs : List (HostFile × HostService)) (v : HostFile × HostService)
    (svc : HostService) : Prop :=
  if 2 ≤ vs.length then ∃ i, svc = { v.2 with name := variantName name v.1.kind i }
  else svc = v.2

theorem forall₂_outcome (name : String) (vs : List (HostFile × HostService)) :
    List.Forall₂ (OutcomeOf name vs) vs (outcome name vs) := by
  rcases vs with _ | ⟨v, _ | ⟨w, vs⟩⟩
  · exact .nil
  · exact .cons rfl .nil
  · refine (forall₂_renamed name [] (v :: w :: vs)).imp fun u svc h => ?_
    rw [OutcomeOf, if_pos (by simp)]
    exact h

/-- The service each output was made from: the definitions, name by name. -/
def origins (scans : List ScanResult) : List (HostFile × HostService) :=
  (byName scans).keys.flatMap (definitions scans)

/-- The name an output has: its own, or a rename of it where the name is conflicting. -/
structure NamedFrom (scans : List ScanResult) (v : HostFile × HostService) (svc : HostService) :
    Prop where
  made : MadeFrom v svc
  own : ¬ Conflicting scans v.2.name → svc.name = v.2.name
  variant : Conflicting scans v.2.name → ∃ kind i, svc.name = variantName v.2.name kind i

theorem namedFrom_origins (scans : List ScanResult) :
    List.Forall₂ (NamedFrom scans) (origins scans) (mergeServices scans).services := by
  rw [mergeServices_services, origins, named]
  induction (byName scans).keys with
  | nil => exact .nil
  | cons n ns ih =>
    rw [List.flatMap_cons, List.flatMap_cons]
    refine List.rel_append ?_ ih
    refine ((List.forall₂_and_left _ _).2 ⟨fun v hv => hv,
      forall₂_outcome n (definitions scans n)⟩).imp ?_
    rintro v svc ⟨hv, hout⟩
    obtain rfl := (name_of_mem_definitions hv).2
    by_cases hconf : Conflicting scans v.2.name
    · have hlen : 2 ≤ (definitions scans v.2.name).length := hconf
      rw [OutcomeOf, if_pos hlen] at hout
      obtain ⟨i, rfl⟩ := hout
      exact ⟨⟨_, .inr ⟨i, rfl⟩, rfl⟩, fun h => absurd hconf h, fun _ => ⟨_, i, rfl⟩⟩
    · have hlen : ¬ 2 ≤ (definitions scans v.2.name).length := hconf
      rw [OutcomeOf, if_neg hlen] at hout
      obtain rfl := hout
      exact ⟨⟨_, .inl rfl, rfl⟩, fun _ => rfl, fun h => absurd h hconf⟩

theorem madeFrom_origins (scans : List ScanResult) :
    List.Forall₂ MadeFrom (origins scans) (mergeServices scans).services :=
  (namedFrom_origins scans).imp fun _ _ => NamedFrom.made

/-- No two of them have one name and agree. -/
theorem pairwise_origins (scans : List ScanResult) : (origins scans).Pairwise fun v w =>
    v.2.name = w.2.name → servicesEquivalent v.2 w.2 = false := by
  rw [origins, List.pairwise_flatMap]
  constructor
  · intro n _
    have hdiff : (definitions scans n).Pairwise fun v w => servicesEquivalent v.2 w.2 = false :=
      unique_pairwise _
    exact hdiff.imp fun {v w} h (_ : v.2.name = w.2.name) => h
  · refine (OrderedMap.nodup_keys _).imp fun {n n'} hne v hv w hw heq => ?_
    rw [(name_of_mem_definitions hv).2, (name_of_mem_definitions hw).2] at heq
    exact absurd heq hne

/-- The origins of a list of outputs that differ, differ as the outputs do. -/
theorem pairwise_zip {vs : List (HostFile × HostService)} {svcs : List HostService}
    (hmade : List.Forall₂ MadeFrom vs svcs)
    (hvs : vs.Pairwise fun v w => v.2.name = w.2.name → servicesEquivalent v.2 w.2 = false) :
    (vs.zip svcs).Pairwise fun a b =>
      a.1.2.name = b.1.2.name → servicesEquivalent a.2 b.2 = false := by
  induction hmade with
  | nil => exact .nil
  | @cons v svc vs svcs hv hmade ih =>
    obtain ⟨hhead, htail⟩ := List.pairwise_cons.1 hvs
    refine List.pairwise_cons.2 ⟨fun b hb heq => ?_, ih htail⟩
    have hb' : MadeFrom b.1 b.2 := (List.forall₂_iff_zip.1 hmade).2 hb
    have hdiff : servicesEquivalent v.2 b.1.2 = false := hhead _ (List.of_mem_zip hb).1 heq
    rw [Bool.eq_false_iff] at hdiff ⊢
    intro heqv
    exact hdiff (servicesEquivalent_trans (servicesEquivalent_symm hv.equivalent)
      (servicesEquivalent_trans heqv hb'.equivalent))

/-! ## The outcome as a whole -/

/-- **Nothing lost, nothing invented.** -/
structure ExactMerge (scans : List ScanResult) (out : MergeOutcome) : Prop where
  /-- Every service found is there, under its name or a `-from-` rename of it. -/
  complete : ∀ v ∈ found scans, ∃ svc ∈ out.services, servicesEquivalent svc v.2 = true ∧
    (svc.name = v.2.name ∨ ∃ kind i, svc.name = variantName v.2.name kind i)
  /-- Every output is made from a service found, and no two from one name agree. -/
  sound : ∃ sources : List (HostFile × HostService), sources ⊆ found scans ∧
    List.Forall₂ MadeFrom sources out.services ∧
    (sources.zip out.services).Pairwise fun a b =>
      a.1.2.name = b.1.2.name → servicesEquivalent a.2 b.2 = false
  /-- The names reported are those with two definitions that differ, each once. -/
  reported : (out.conflicts.map ConflictReport.name).Nodup ∧ ∀ name,
    name ∈ out.conflicts.map ConflictReport.name ↔ ∃ v ∈ found scans, ∃ w ∈ found scans,
      v.2.name = name ∧ w.2.name = name ∧ servicesEquivalent v.2 w.2 = false
  /-- A report holds one variant for each definition of its name, with its source. -/
  variants : ∀ r ∈ out.conflicts,
    (r.variants.Pairwise fun a b => servicesEquivalent a.service b.service = false) ∧
    (∀ a ∈ r.variants, ∃ v ∈ found scans, v.2.name = r.name ∧ a = ⟨v.1.path, v.1.kind, v.2⟩) ∧
    ∀ v ∈ found scans, v.2.name = r.name →
      ∃ a ∈ r.variants, servicesEquivalent a.service v.2 = true

theorem found_of_mem_origins {scans : List ScanResult} : origins scans ⊆ found scans := by
  intro v hv
  obtain ⟨n, -, hv⟩ := List.mem_flatMap.1 hv
  exact (name_of_mem_definitions hv).1

/-- A service found has a definition among the origins. -/
theorem exists_mem_origins {scans : List ScanResult} {v : HostFile × HostService}
    (h : v ∈ found scans) :
    ∃ e ∈ origins scans, e.2.name = v.2.name ∧ servicesEquivalent e.2 v.2 = true := by
  obtain ⟨e, he, heq⟩ := exists_mem_definitions h
  have hkey : v.2.name ∈ (byName scans).keys := mem_keys_byName.2 ⟨v, h, rfl⟩
  exact ⟨e, List.mem_flatMap.2 ⟨_, hkey, he⟩, (name_of_mem_definitions he).2, heq⟩

/-- **Every service found is in the outcome**: the definition it agrees with is kept, and made
into an output. -/
theorem exists_merged_of_found {scans : List ScanResult} {v : HostFile × HostService}
    (h : v ∈ found scans) : ∃ svc ∈ (mergeServices scans).services,
      servicesEquivalent svc v.2 = true ∧
        (svc.name = v.2.name ∨ ∃ kind i, svc.name = variantName v.2.name kind i) := by
  obtain ⟨e, he, hname, heq⟩ := exists_mem_origins h
  obtain ⟨svc, hsvc, hfrom⟩ := exists_right_of_forall₂ (madeFrom_origins scans) he
  refine ⟨svc, hsvc, servicesEquivalent_trans hfrom.equivalent heq, ?_⟩
  rw [← hname]
  exact hfrom.name

theorem mem_reported {scans : List ScanResult} {name : String} :
    name ∈ (mergeServices scans).conflicts.map ConflictReport.name ↔ Conflicting scans name := by
  rw [mergeServices_conflicts, List.map_map]
  simp only [List.mem_map, List.mem_filter, Function.comp_apply, report, decide_eq_true_eq]
  constructor
  · rintro ⟨n, ⟨-, hconf⟩, rfl⟩
    exact hconf
  · intro hconf
    exact ⟨name, ⟨mem_keys_of_conflicting hconf, hconf⟩, rfl⟩

/-- **`merge_services` neither loses nor invents a service**, and reports the names
that have definitions that differ, for every list of scans. -/
theorem mergeServices_exact (scans : List ScanResult) :
    ExactMerge scans (mergeServices scans) := by
  have hmade := madeFrom_origins scans
  refine ⟨fun v hv => ?_, ⟨origins scans, found_of_mem_origins, hmade,
    pairwise_zip hmade (pairwise_origins scans)⟩, ⟨?_, fun name => ?_⟩, fun r hr => ?_⟩
  · exact exists_merged_of_found hv
  · rw [mergeServices_conflicts, List.map_map]
    have hid : (ConflictReport.name ∘ fun n => report n (definitions scans n)) = id := rfl
    rw [hid, List.map_id]
    exact (OrderedMap.nodup_keys _).filter _
  · rw [mem_reported, conflicting_iff]
  · rw [mergeServices_conflicts] at hr
    obtain ⟨n, -, rfl⟩ := List.mem_map.1 hr
    refine ⟨?_, fun a ha => ?_, fun v hv hname => ?_⟩
    · exact List.pairwise_map.2 (unique_pairwise _)
    · obtain ⟨v, hv, rfl⟩ := List.mem_map.1 ha
      obtain ⟨hfound, hname⟩ := name_of_mem_definitions hv
      exact ⟨v, hfound, hname, rfl⟩
    · have hname : v.2.name = n := hname
      subst hname
      obtain ⟨e, he, heq⟩ := exists_mem_definitions hv
      exact ⟨_, List.mem_map.2 ⟨e, he, rfl⟩, heq⟩

end Config

end VcOperator
