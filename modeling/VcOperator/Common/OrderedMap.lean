import Mathlib.Data.List.Sort
import Mathlib.Order.Basic
/-!
# Maps held in key order

`std::collections::BTreeMap`: a list of entries whose keys strictly
increase, which is the order the map is iterated in. Two such maps are
equal as soon as their lookups agree (`OrderedMap.ext_get`), so the
structure also serves where only the lookups of a map matter and maps
are compared with `==`.
-/

namespace VcOperator

/-- A map whose entries stand in key order, one for each key. -/
structure OrderedMap (κ α : Type*) [LinearOrder κ] where
  /-- The entries, in the order the map is iterated. -/
  entries : List (κ × α)
  /-- The keys strictly increase. -/
  sorted : entries.Pairwise fun a b => a.1 < b.1

namespace OrderedMap

variable {κ α : Type*} [LinearOrder κ]

theorem eq_of_entries {m m' : OrderedMap κ α} (h : m.entries = m'.entries) : m = m' := by
  cases m
  cases m'
  cases h
  rfl

instance [DecidableEq α] : DecidableEq (OrderedMap κ α) := fun m m' =>
  decidable_of_iff (m.entries = m'.entries) ⟨eq_of_entries, fun h => h ▸ rfl⟩

/-- The map without entries. -/
def empty : OrderedMap κ α := ⟨[], .nil⟩

instance : EmptyCollection (OrderedMap κ α) := ⟨empty⟩

/-- The keys, in order. -/
def keys (m : OrderedMap κ α) : List κ := m.entries.map Prod.fst

/-- What a list of entries holds under a key. -/
def lookup (k : κ) : List (κ × α) → Option α
  | [] => none
  | (l, a) :: es => if l = k then some a else lookup k es

/-- `BTreeMap::get`. -/
def get (m : OrderedMap κ α) (k : κ) : Option α := lookup k m.entries

/-- Insertion into entries held in key order; an entry with the key is replaced. -/
def insertEntry (k : κ) (a : α) : List (κ × α) → List (κ × α)
  | [] => [(k, a)]
  | (l, b) :: es =>
    if k < l then (k, a) :: (l, b) :: es
    else if k = l then (k, a) :: es
    else (l, b) :: insertEntry k a es

theorem mem_insertEntry {k : κ} {a : α} {e : κ × α} {es : List (κ × α)}
    (h : e ∈ insertEntry k a es) : e = (k, a) ∨ e ∈ es := by
  induction es with
  | nil =>
    simp only [insertEntry, List.mem_singleton] at h
    exact .inl h
  | cons e' es ih =>
    obtain ⟨l, b⟩ := e'
    rw [insertEntry] at h
    split_ifs at h with hlt heq
    · rw [List.mem_cons] at h
      exact h
    · rw [List.mem_cons] at h
      exact h.imp_right (List.mem_cons_of_mem _)
    · rw [List.mem_cons] at h
      rcases h with rfl | h
      · exact .inr List.mem_cons_self
      · exact (ih h).imp_right (List.mem_cons_of_mem _)

theorem sorted_insertEntry {es : List (κ × α)} (h : es.Pairwise fun a b => a.1 < b.1)
    (k : κ) (a : α) : (insertEntry k a es).Pairwise fun a b => a.1 < b.1 := by
  induction es with
  | nil => simp [insertEntry]
  | cons e es ih =>
    obtain ⟨l, b⟩ := e
    obtain ⟨htail, hes⟩ := List.pairwise_cons.1 h
    rw [insertEntry]
    -- before the first entry, in its place, or after it
    split_ifs with hlt heq
    · refine h.cons fun e' he' => ?_
      rcases List.mem_cons.1 he' with rfl | he'
      · exact hlt
      · exact hlt.trans (htail e' he')
    · subst heq
      exact hes.cons htail
    · refine (ih hes).cons fun e' he' => ?_
      rcases mem_insertEntry he' with rfl | he'
      · exact lt_of_le_of_ne (not_lt.1 hlt) (Ne.symm heq)
      · exact htail e' he'

/-- `BTreeMap::insert`. -/
def insert (m : OrderedMap κ α) (k : κ) (a : α) : OrderedMap κ α :=
  ⟨insertEntry k a m.entries, sorted_insertEntry m.sorted k a⟩

/-- The entries a predicate keeps. -/
def filter (m : OrderedMap κ α) (p : κ → α → Bool) : OrderedMap κ α :=
  ⟨m.entries.filter fun e => p e.1 e.2, m.sorted.sublist List.filter_sublist⟩

/-- The map with its values changed. -/
def mapValues {β : Type*} (f : α → β) (m : OrderedMap κ α) : OrderedMap κ β :=
  ⟨m.entries.map fun e => (e.1, f e.2), List.pairwise_map.2 m.sorted⟩

/-- A map into which each element of a list is inserted in turn. -/
def insertAll {β : Type*} (m : OrderedMap κ α) (key : β → κ) (val : β → α) (l : List β) :
    OrderedMap κ α :=
  l.foldl (fun m b => m.insert (key b) (val b)) m

/-- The map a list of entries builds, a later entry replacing an earlier one. -/
def ofList (es : List (κ × α)) : OrderedMap κ α :=
  insertAll ∅ Prod.fst Prod.snd es

/-! ## Lookup -/

@[simp] theorem get_empty (k : κ) : OrderedMap.get (∅ : OrderedMap κ α) k = none := rfl

theorem lookup_insertEntry (k : κ) (a : α) (es : List (κ × α)) :
    lookup k (insertEntry k a es) = some a := by
  induction es with
  | nil => simp [insertEntry, lookup]
  | cons e es ih =>
    obtain ⟨l, b⟩ := e
    rw [insertEntry]
    split_ifs with hlt heq
    · simp [lookup]
    · simp [lookup]
    · rw [lookup, if_neg (Ne.symm heq), ih]

theorem lookup_insertEntry_ne {k k' : κ} (h : k' ≠ k) (a : α) (es : List (κ × α)) :
    lookup k' (insertEntry k a es) = lookup k' es := by
  induction es with
  | nil => simp [insertEntry, lookup, Ne.symm h]
  | cons e es ih =>
    obtain ⟨l, b⟩ := e
    rw [insertEntry]
    split_ifs with hlt heq
    · simp [lookup, Ne.symm h]
    · subst heq
      simp [lookup, Ne.symm h]
    · rw [lookup, lookup, ih]

@[simp] theorem get_insert (m : OrderedMap κ α) (k : κ) (a : α) :
    (m.insert k a).get k = some a :=
  lookup_insertEntry k a m.entries

theorem get_insert_ne {m : OrderedMap κ α} {k k' : κ} (h : k' ≠ k) (a : α) :
    (m.insert k a).get k' = m.get k' :=
  lookup_insertEntry_ne h a m.entries

theorem get_insert_eq_ite (m : OrderedMap κ α) (k k' : κ) (a : α) :
    (m.insert k a).get k' = if k' = k then some a else m.get k' := by
  split_ifs with h
  · rw [h, get_insert]
  · exact get_insert_ne h a

theorem lookup_eq_some_iff {es : List (κ × α)} (h : es.Pairwise fun a b => a.1 < b.1) {k : κ}
    {a : α} : lookup k es = some a ↔ (k, a) ∈ es := by
  induction es with
  | nil => simp [lookup]
  | cons e es ih =>
    obtain ⟨l, b⟩ := e
    obtain ⟨htail, hes⟩ := List.pairwise_cons.1 h
    rw [lookup, List.mem_cons]
    split_ifs with hlk
    · subst hlk
      refine ⟨fun hb => .inl (by rw [Option.some.inj hb]), fun hmem => ?_⟩
      rcases hmem with heq | hmem
      · rw [(Prod.mk.inj heq).2]
      · exact absurd (htail _ hmem) (lt_irrefl _)
    · rw [ih hes]
      refine ⟨.inr, fun hmem => hmem.resolve_left fun heq => hlk (Prod.mk.inj heq).1.symm⟩

theorem get_eq_some_iff {m : OrderedMap κ α} {k : κ} {a : α} :
    m.get k = some a ↔ (k, a) ∈ m.entries :=
  lookup_eq_some_iff m.sorted

theorem mem_keys_iff {m : OrderedMap κ α} {k : κ} : k ∈ m.keys ↔ ∃ a, m.get k = some a := by
  simp only [keys, List.mem_map, get_eq_some_iff]
  constructor
  · rintro ⟨⟨l, a⟩, h, rfl⟩
    exact ⟨a, h⟩
  · rintro ⟨a, h⟩
    exact ⟨(k, a), h, rfl⟩

theorem get_filter {m : OrderedMap κ α} {p : κ → α → Bool} {k : κ} {a : α} :
    (m.filter p).get k = some a ↔ m.get k = some a ∧ p k a = true := by
  rw [get_eq_some_iff, get_eq_some_iff]
  exact List.mem_filter

/-- The keys increase along the entries. -/
theorem sorted_keys (m : OrderedMap κ α) : m.keys.Pairwise (· < ·) :=
  List.pairwise_map.2 m.sorted

theorem nodup_keys (m : OrderedMap κ α) : m.keys.Nodup :=
  m.sorted_keys.imp fun h => h.ne

/-- **Two maps with the same lookups are equal.** -/
theorem ext_get {m m' : OrderedMap κ α} (h : ∀ k, m.get k = m'.get k) : m = m' := by
  have hmem : ∀ e : κ × α, e ∈ m.entries ↔ e ∈ m'.entries := fun e => by
    rw [← get_eq_some_iff, ← get_eq_some_iff, h]
  have hnodup : ∀ n : OrderedMap κ α, n.entries.Nodup := fun n => n.nodup_keys.of_map _
  -- two lists in key order with the same entries are one list
  have hperm : m.entries.Perm m'.entries :=
    (List.perm_ext_iff_of_nodup (hnodup m) (hnodup m')).2 hmem
  refine eq_of_entries (hperm.eq_of_pairwise (fun a b _ _ hab hba => ?_) m.sorted m'.sorted)
  exact absurd (hab.trans hba) (lt_irrefl _)

@[simp] theorem insert_insert (m : OrderedMap κ α) (k : κ) (a b : α) :
    (m.insert k a).insert k b = m.insert k b := by
  refine ext_get fun l => ?_
  simp only [get_insert_eq_ite]
  split_ifs <;> rfl

section InsertAll

variable {β : Type*} {key : β → κ} {val : β → α} {l : List β} {m : OrderedMap κ α} {k : κ}

/-- **The last element with a key decides**, and else the map that was there. -/
theorem get_insertAll : (m.insertAll key val l).get k =
    (((l.filter (key · = k)).getLast?).map val).or (m.get k) := by
  induction l generalizing m with
  | nil => rfl
  | cons b l ih =>
    rw [insertAll, List.foldl_cons, ← insertAll, ih, List.filter_cons]
    -- the element is shadowed by a later one with its key, if there is one
    by_cases hb : key b = k
    · subst hb
      simp only [decide_true, if_true, get_insert, List.getLast?_cons]
      cases (List.filter (fun x => decide (key x = key b)) l).getLast? <;> rfl
    · simp [hb, get_insert_ne (Ne.symm hb)]

theorem get_insertAll_of_notMem (h : k ∉ l.map key) :
    (m.insertAll key val l).get k = m.get k := by
  have hnil : l.filter (key · = k) = [] :=
    List.filter_eq_nil_iff.2 fun b hb => by simpa using fun heq => h (List.mem_map.2 ⟨b, hb, heq⟩)
  rw [get_insertAll, hnil]
  rfl

theorem get_insertAll_of_nodup (h : (l.map key).Nodup) {b : β} (hb : b ∈ l) :
    (m.insertAll key val l).get (key b) = some (val b) := by
  have hfilter : ∀ b' ∈ l.filter (key · = key b), b' = b := by
    intro b' hb'
    have := List.mem_filter.1 hb'
    exact List.inj_on_of_nodup_map h this.1 hb (by simpa using this.2)
  rw [get_insertAll]
  cases hlast : (l.filter (key · = key b)).getLast? with
  | none =>
    rw [List.getLast?_eq_none_iff] at hlast
    exact absurd (List.mem_filter.2 ⟨hb, by simp⟩) (hlast ▸ List.not_mem_nil)
  | some b' => rw [hfilter b' (List.mem_of_getLast? hlast), Option.map_some, Option.some_or]

/-- A map is the one its entries build. -/
@[simp] theorem ofList_entries (m : OrderedMap κ α) : ofList m.entries = m := by
  refine ext_get fun k => ?_
  cases hk : m.get k with
  | some a =>
    have hmem : (k, a) ∈ m.entries := get_eq_some_iff.1 hk
    exact get_insertAll_of_nodup m.nodup_keys hmem
  | none =>
    rw [ofList, get_insertAll_of_notMem, get_empty]
    intro hmem
    obtain ⟨a, ha⟩ := mem_keys_iff.1 hmem
    rw [ha] at hk
    cases hk

end InsertAll

/-! ## Grouping -/

/-- `entry(k).or_default().push(a)`. -/
def push (m : OrderedMap κ (List α)) (k : κ) (a : α) : OrderedMap κ (List α) :=
  m.insert k ((m.get k).getD [] ++ [a])

/-- The elements of a list, grouped by a key of theirs. -/
def group (key : α → κ) (l : List α) : OrderedMap κ (List α) :=
  l.foldl (fun m a => m.push (key a) a) ∅

theorem getD_get_push (m : OrderedMap κ (List α)) (k k' : κ) (a : α) :
    ((m.push k a).get k').getD [] = (m.get k').getD [] ++ if k = k' then [a] else [] := by
  rw [push]
  split_ifs with h
  · subst h
    simp
  · rw [get_insert_ne (Ne.symm h), List.append_nil]

/-- A group holds the elements with its key, in the order of the list. -/
theorem getD_get_group (key : α → κ) (l : List α) (k : κ) :
    ((group key l).get k).getD [] = l.filter (key · = k) := by
  have hfold : ∀ (l : List α) (m : OrderedMap κ (List α)),
      ((l.foldl (fun m a => m.push (key a) a) m).get k).getD [] =
        (m.get k).getD [] ++ l.filter (key · = k) := by
    intro l
    induction l with
    | nil => simp
    | cons a l ih =>
      intro m
      rw [List.foldl_cons, ih, getD_get_push, List.filter_cons, List.append_assoc]
      by_cases h : key a = k <;> simp [h]
  rw [group, hfold, get_empty, Option.getD_none, List.nil_append]

theorem mem_keys_push {m : OrderedMap κ (List α)} {k k' : κ} {a : α} :
    k' ∈ (m.push k a).keys ↔ k' = k ∨ k' ∈ m.keys := by
  rw [mem_keys_iff, mem_keys_iff, push]
  rcases eq_or_ne k' k with rfl | hne
  · simp
  · simp [get_insert_ne hne, hne]

/-- The keys of the groups are the keys of the elements. -/
theorem mem_keys_group {key : α → κ} {l : List α} {k : κ} :
    k ∈ (group key l).keys ↔ ∃ a ∈ l, key a = k := by
  have hfold : ∀ (l : List α) (m : OrderedMap κ (List α)),
      k ∈ (l.foldl (fun m a => m.push (key a) a) m).keys ↔
        k ∈ m.keys ∨ ∃ a ∈ l, key a = k := by
    intro l
    induction l with
    | nil => simp
    | cons a l ih =>
      intro m
      rw [List.foldl_cons, ih, mem_keys_push, List.exists_mem_cons_iff, or_comm (a := k = key a),
        or_assoc, eq_comm (a := k)]
  rw [group, hfold]
  exact or_iff_right (List.not_mem_nil)

/-- A map is its keys, each with what is found under it. -/
theorem entries_eq_map_keys (m : OrderedMap κ α) (d : α) :
    m.entries = m.keys.map fun k => (k, (m.get k).getD d) := by
  rw [keys, List.map_map]
  conv_lhs => rw [← List.map_id m.entries]
  refine List.map_congr_left fun e he => ?_
  have hget : m.get e.1 = some e.2 := get_eq_some_iff.2 he
  simp [hget]

/-- **The groups of a list, in key order.** -/
theorem entries_group (key : α → κ) (l : List α) :
    (group key l).entries = (group key l).keys.map fun k => (k, l.filter (key · = k)) := by
  rw [entries_eq_map_keys _ []]
  simp only [getD_get_group]

end OrderedMap

end VcOperator
