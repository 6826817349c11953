import Mathlib.Data.List.AList
import Mathlib.Data.List.Dedup
import Mathlib.Data.List.Perm.Basic
/-!
# Hash maps, and what enumerating their values gives

`std::collections::HashMap` is Mathlib's `AList` at a constant family:
the keys are distinct by construction. What the standard library leaves
open, the order in which a map is enumerated, is left open here as well:
a loop over a map takes the order of the keys as an argument, and
`valuesIn` reads the values in that order.

The lemmas are about the values as a list: what insertion, removal and
`retain` do to it, and that every order enumerates the same values.
-/

namespace VcOperator

/-- A hash map. -/
abbrev HashMap (κ α : Type*) := AList fun _ : κ => α

namespace HashMap

variable {κ α : Type*}

/-- The values of a map, in the order its entries are held. -/
def values (m : HashMap κ α) : List α := m.entries.map Sigma.snd

/-- `HashMap::retain`. -/
def retain (m : HashMap κ α) (p : κ → α → Bool) : HashMap κ α where
  entries := m.entries.filter fun e => p e.1 e.2
  nodupKeys := List.Nodup.sublist (List.filter_sublist.map _) m.nodupKeys

/-- The number of entries. -/
def len (m : HashMap κ α) : ℕ := m.entries.length

@[simp] theorem values_empty : HashMap.values (∅ : HashMap κ α) = [] := rfl

variable [DecidableEq κ]

/-- `HashMap::get`. -/
def get (m : HashMap κ α) (k : κ) : Option α := AList.lookup k m

/-- `HashMap::insert`. -/
def insert (m : HashMap κ α) (k : κ) (a : α) : HashMap κ α := AList.insert k a m

/-- `HashMap::remove`. -/
def remove (m : HashMap κ α) (k : κ) : HashMap κ α := AList.erase k m

/-- The values of a map, in a given order of its keys. -/
def valuesIn (m : HashMap κ α) (order : List κ) : List α := order.filterMap m.get

/-! ## Lookup -/

@[simp] theorem get_empty (k : κ) : HashMap.get (∅ : HashMap κ α) k = none :=
  AList.lookup_empty k

@[simp] theorem get_insert (m : HashMap κ α) (k : κ) (a : α) : (m.insert k a).get k = some a :=
  AList.lookup_insert m

theorem get_insert_ne {m : HashMap κ α} {k k' : κ} (h : k' ≠ k) (a : α) :
    (m.insert k a).get k' = m.get k' :=
  AList.lookup_insert_ne h

@[simp] theorem get_remove (m : HashMap κ α) (k : κ) : (m.remove k).get k = none :=
  AList.lookup_erase k m

theorem get_remove_ne {m : HashMap κ α} {k k' : κ} (h : k' ≠ k) :
    (m.remove k).get k' = m.get k' :=
  AList.lookup_erase_ne h

theorem mem_entries_iff {m : HashMap κ α} {k : κ} {a : α} :
    (⟨k, a⟩ : Sigma fun _ : κ => α) ∈ m.entries ↔ m.get k = some a :=
  AList.mem_lookup_iff.symm

theorem get_of_get_remove {m : HashMap κ α} {k k' : κ} {a : α}
    (h : (m.remove k).get k' = some a) : m.get k' = some a := by
  rcases eq_or_ne k' k with rfl | hne
  · rw [get_remove] at h; cases h
  · rwa [get_remove_ne hne] at h

theorem get_of_get_retain {m : HashMap κ α} {p : κ → α → Bool} {k : κ} {a : α}
    (h : (m.retain p).get k = some a) : m.get k = some a :=
  mem_entries_iff.1 (List.mem_filter.1 (mem_entries_iff.2 h)).1

/-- What `retain` keeps. -/
theorem get_retain_of_pos {m : HashMap κ α} {p : κ → α → Bool} {k : κ} {a : α}
    (h : m.get k = some a) (hp : p k a = true) : (m.retain p).get k = some a :=
  mem_entries_iff.1 (List.mem_filter.2 ⟨mem_entries_iff.2 h, hp⟩)

/-- And what it does not. -/
theorem get_retain_of_neg {m : HashMap κ α} {p : κ → α → Bool} {k : κ}
    (h : ∀ a, m.get k = some a → p k a = false) : (m.retain p).get k = none := by
  cases hget : (m.retain p).get k with
  | none => rfl
  | some a =>
    have hkeep : p k a = true := (List.mem_filter.1 (mem_entries_iff.2 hget)).2
    rw [h a (get_of_get_retain hget)] at hkeep
    cases hkeep

/-! ## The values -/

theorem mem_values_iff {m : HashMap κ α} {a : α} : a ∈ m.values ↔ ∃ k, m.get k = some a := by
  simp only [values, List.mem_map]
  constructor
  · rintro ⟨⟨k, b⟩, hk, rfl⟩
    exact ⟨k, mem_entries_iff.1 hk⟩
  · rintro ⟨k, hk⟩
    exact ⟨⟨k, a⟩, mem_entries_iff.2 hk, rfl⟩

theorem mem_values_of_get {m : HashMap κ α} {k : κ} {a : α} (h : m.get k = some a) :
    a ∈ m.values :=
  mem_values_iff.2 ⟨k, h⟩

/-- A fresh key's value joins the values. -/
theorem values_insert {m : HashMap κ α} {k : κ} (hk : m.get k = none) (a : α) :
    (m.insert k a).values = a :: m.values := by
  have hk' : k ∉ m := fun hmem => by
    have := AList.lookup_isSome.2 hmem
    rw [show AList.lookup k m = none from hk] at this
    cases this
  have herase : List.kerase k m.entries = m.entries := List.kerase_of_notMem_keys hk'
  simp [values, insert, herase]

/-- Whatever the key, insertion brings in no other value. -/
theorem mem_values_insert {m : HashMap κ α} {k : κ} {a b : α} (h : b ∈ (m.insert k a).values) :
    b = a ∨ b ∈ m.values := by
  obtain ⟨k', hk'⟩ := mem_values_iff.1 h
  rcases eq_or_ne k' k with rfl | hne
  · rw [get_insert, Option.some.injEq] at hk'
    exact .inl hk'.symm
  · rw [get_insert_ne hne] at hk'
    exact .inr (mem_values_of_get hk')

theorem mem_values_of_mem_remove {m : HashMap κ α} {k : κ} {a : α}
    (h : a ∈ (m.remove k).values) : a ∈ m.values := by
  obtain ⟨k', hk'⟩ := mem_values_iff.1 h
  exact mem_values_of_get (get_of_get_remove hk')

theorem mem_values_of_mem_retain {m : HashMap κ α} {p : κ → α → Bool} {a : α}
    (h : a ∈ (m.retain p).values) : a ∈ m.values := by
  obtain ⟨k, hk⟩ := mem_values_iff.1 h
  exact mem_values_of_get (get_of_get_retain hk)

/-- Removing a key takes its value out of the values, once. -/
theorem values_remove {m : HashMap κ α} {k : κ} {a : α} (h : m.get k = some a) :
    m.values.Perm (a :: (m.remove k).values) := by
  have key : ∀ l : List (Sigma fun _ : κ => α), l.NodupKeys → ⟨k, a⟩ ∈ l →
      l.Perm (⟨k, a⟩ :: l.kerase k) := by
    intro l
    induction l with
    | nil => intro _ hmem; cases hmem
    | cons e l ih =>
      intro hnd hmem
      rw [List.nodupKeys_cons] at hnd
      rcases eq_or_ne k e.1 with hke | hke
      · rw [List.kerase_cons_eq hke]
        rcases List.mem_cons.1 hmem with heq | hmem'
        · rw [heq]
        · exact absurd (List.mem_keys_of_mem hmem') (hke ▸ hnd.1)
      · rw [List.kerase_cons_ne hke]
        rcases List.mem_cons.1 hmem with heq | hmem'
        · exact absurd (congrArg Sigma.fst heq) hke
        · exact ((ih hnd.2 hmem').cons e).trans (List.Perm.swap _ _ _)
  exact (key m.entries m.nodupKeys (mem_entries_iff.2 h)).map Sigma.snd

omit [DecidableEq κ] in
/-- Where the predicate reads the value alone, `retain` filters the values. -/
theorem values_retain (m : HashMap κ α) (p : α → Bool) :
    (m.retain fun _ a => p a).values = m.values.filter p := by
  simp only [values, retain, List.filter_map]
  rfl

/-- **Every order enumerates the same values.** -/
theorem valuesIn_perm {m : HashMap κ α} {order : List κ} (h : order.Perm m.keys) :
    (m.valuesIn order).Perm m.values := by
  have hget : ∀ l : List (Sigma fun _ : κ => α), (∀ e ∈ l, m.get e.1 = some e.2) →
      l.keys.filterMap m.get = l.map Sigma.snd := by
    intro l
    induction l with
    | nil => intro _; rfl
    | cons e l ih =>
      intro hl
      rw [List.keys_cons, List.filterMap_cons_some (hl e (by simp)), List.map_cons,
        ih fun e' he' => hl e' (List.mem_cons_of_mem _ he')]
  have hall := hget m.entries fun e he => mem_entries_iff.1 he
  have hperm : (order.filterMap m.get).Perm (m.keys.filterMap m.get) := h.filterMap _
  rw [show m.keys = m.entries.keys from rfl, hall] at hperm
  exact hperm

theorem mem_values_of_mem_valuesIn {m : HashMap κ α} {order : List κ} {a : α}
    (h : a ∈ m.valuesIn order) : a ∈ m.values := by
  obtain ⟨k, -, hk⟩ := List.mem_filterMap.1 h
  exact mem_values_of_get hk

/-! ## The number of entries -/

omit [DecidableEq κ] in
theorem len_eq_length_keys (m : HashMap κ α) : m.len = m.keys.length :=
  (List.length_map ..).symm

theorem mem_keys_iff_get {m : HashMap κ α} {k : κ} : k ∈ m.keys ↔ (m.get k).isSome := by
  rw [← AList.mem_keys, ← AList.lookup_isSome]
  rfl

/-- A map that has no keys another has not has no more entries than it. -/
theorem len_le {m m' : HashMap κ α} (h : ∀ k, (m'.get k).isSome → (m.get k).isSome) :
    m'.len ≤ m.len := by
  have hsub : m'.keys ⊆ m.keys := fun k hk => mem_keys_iff_get.2 (h k (mem_keys_iff_get.1 hk))
  have hnodup : m'.keys.Nodup := m'.nodupKeys
  rw [len_eq_length_keys, len_eq_length_keys]
  exact (List.subperm_of_subset hnodup hsub).length_le

/-- An insertion adds at most one entry. -/
theorem len_insert_le (m : HashMap κ α) (k : κ) (a : α) : (m.insert k a).len ≤ m.len + 1 := by
  have herase := List.length_erase_le (a := k) (l := m.keys)
  rw [len_eq_length_keys, len_eq_length_keys, insert, AList.keys_insert, List.length_cons]
  omega

/-! ## Filling a map from a list -/

section Fill

variable {β : Type*} {key : β → κ} {val : β → α} {l : List β} {k : κ}

/-- The map a loop fills that inserts each element of a list in turn. -/
def fill (key : β → κ) (val : β → α) (l : List β) : HashMap κ α :=
  l.foldl (fun m b => m.insert (key b) (val b)) ∅

theorem get_foldl_insert (l : List β) (m : HashMap κ α) :
    (l.foldl (fun m b => m.insert (key b) (val b)) m).get k =
      (((l.filter (key · = k)).getLast?).map val).or (m.get k) := by
  induction l generalizing m with
  | nil => rfl
  | cons b l ih =>
    rw [List.foldl_cons, ih, List.filter_cons]
    by_cases hb : key b = k
    · subst hb
      simp only [decide_true, if_true, get_insert, List.getLast?_cons]
      cases (List.filter (fun x => decide (key x = key b)) l).getLast? <;> rfl
    · simp [hb, get_insert_ne (Ne.symm hb)]

/-- **A later element replaces an earlier one with the same key.** -/
theorem get_fill : (fill key val l).get k = ((l.filter (key · = k)).getLast?).map val := by
  rw [fill, get_foldl_insert, get_empty, Option.or_none]

/-- What a filled map holds comes from an element with the key. -/
theorem exists_of_get_fill {a : α} (h : (fill key val l).get k = some a) :
    ∃ b ∈ l, key b = k ∧ val b = a := by
  rw [get_fill, Option.map_eq_some_iff] at h
  obtain ⟨b, hb, rfl⟩ := h
  have hmem := List.mem_filter.1 (List.mem_of_getLast? hb)
  exact ⟨b, hmem.1, by simpa using hmem.2, rfl⟩

/-- Where the keys are those of the values, the values tell them. -/
theorem map_values_fill {key : α → κ} {l : List α} :
    (fill key id l).values.map key = (fill key id l).keys := by
  rw [values, List.map_map]
  refine List.map_congr_left fun e he => ?_
  obtain ⟨a, -, hkey, ha⟩ := exists_of_get_fill (mem_entries_iff.1 he)
  rw [Function.comp_apply, ← ha, id_eq, hkey]

theorem mem_keys_fill : k ∈ (fill key val l).keys ↔ k ∈ l.map key := by
  rw [mem_keys_iff_get, get_fill, Option.isSome_map, List.getLast?_isSome, List.mem_map]
  constructor
  · intro h
    obtain ⟨b, hb⟩ := List.exists_mem_of_ne_nil _ h
    have := List.mem_filter.1 hb
    exact ⟨b, this.1, by simpa using this.2⟩
  · rintro ⟨b, hb, rfl⟩
    exact List.ne_nil_of_mem (List.mem_filter.2 ⟨hb, by simp⟩)

/-- A filled map has an entry for each key of the list. -/
theorem len_fill : (fill key val l).len = (l.map key).dedup.length := by
  have hnodup : (fill key val l).keys.Nodup := (fill key val l).nodupKeys
  rw [len_eq_length_keys]
  refine List.Perm.length_eq ((List.perm_ext_iff_of_nodup hnodup (List.nodup_dedup _)).2 ?_)
  intro k
  rw [mem_keys_fill, List.mem_dedup]

/-- **No element is lost exactly when no two share a key.** -/
theorem len_fill_eq_length_iff : (fill key val l).len = l.length ↔ (l.map key).Nodup := by
  rw [len_fill]
  constructor
  · intro h
    have heq : (l.map key).dedup = l.map key :=
      (List.dedup_sublist _).eq_of_length (by rw [h, List.length_map])
    rw [← heq]
    exact List.nodup_dedup _
  · intro h
    rw [h.dedup, List.length_map]

/-- And then every element is found under its key. -/
theorem get_fill_of_nodup (h : (l.map key).Nodup) {b : β} (hb : b ∈ l) :
    (fill key val l).get (key b) = some (val b) := by
  have hfilter : ∀ b' ∈ l.filter (key · = key b), b' = b := by
    intro b' hb'
    have := List.mem_filter.1 hb'
    exact List.inj_on_of_nodup_map h this.1 hb (by simpa using this.2)
  rw [get_fill]
  cases hlast : (l.filter (key · = key b)).getLast? with
  | none =>
    rw [List.getLast?_eq_none_iff] at hlast
    exact absurd (List.mem_filter.2 ⟨hb, by simp⟩) (hlast ▸ List.not_mem_nil)
  | some b' => rw [hfilter b' (List.mem_of_getLast? hlast), Option.map_some]

/-- **Where a key is inserted only if it is absent**, the first element with the key stays. -/
theorem get_foldl_orInsert (l : List β) (m : HashMap κ α) :
    (l.foldl (fun m b => if (m.get (key b)).isSome then m else m.insert (key b) (val b)) m).get k =
      (m.get k).or ((l.find? (key · = k)).map val) := by
  induction l generalizing m with
  | nil => exact (Option.or_none).symm
  | cons b l ih =>
    rw [List.foldl_cons, ih, List.find?_cons]
    by_cases hb : key b = k
    · subst hb
      cases hget : m.get (key b) with
      | none => simp
      | some a => simp [hget]
    · rw [decide_eq_false hb]
      split_ifs with hsome
      · rfl
      · rw [get_insert_ne (Ne.symm hb)]

end Fill

end HashMap

end VcOperator
