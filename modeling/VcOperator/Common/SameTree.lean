import Mathlib.Data.List.Perm.Basic
import VcOperator.Common.FileTree
/-!
# Trees of the same files

Two file trees are the same when every list of names leads to the same in
both of them, and directories have the same names, in whatever order. No
path is resolved otherwise in one than in the other; only the order in which
a directory is listed depends on the tree.

A tree is reordered at a directory by a function that keeps what each name
stands for.
-/

namespace VcOperator

namespace Node

/-- **What a node is**, seen from outside. -/
inductive Alike : Node → Node → Prop
  | file (text : Option String) : Alike (file text) (file text)
  | link (absolute : Bool) (target : List Component) : Alike (link absolute target)
      (link absolute target)
  /-- The names are the same, in some order. -/
  | dir {entries entries' : List (String × Node)} :
      (entries.map Prod.fst).Perm (entries'.map Prod.fst) → Alike (dir entries) (dir entries')

/-- **The same files.** -/
def Same (fs fs' : Node) : Prop := ∀ path, Option.Rel Alike (fs.lookup path) (fs'.lookup path)

theorem Alike.refl (n : Node) : Alike n n := by
  cases n with
  | file text => exact .file text
  | link absolute target => exact .link absolute target
  | dir entries => exact .dir (List.Perm.refl _)

theorem Alike.symm {n n' : Node} (h : Alike n n') : Alike n' n := by
  cases h with
  | file text => exact .file text
  | link absolute target => exact .link absolute target
  | dir hnames => exact .dir hnames.symm

theorem Alike.isLink_eq {n n' : Node} (h : Alike n n') : n.isLink = n'.isLink := by
  cases h <;> rfl

theorem Same.refl (fs : Node) : Same fs fs := by
  intro path
  cases fs.lookup path with
  | none => exact .none
  | some n => exact .some (.refl n)

theorem Same.symm {fs fs' : Node} (h : Same fs fs') : Same fs' fs := by
  intro path
  have hrel := h path
  generalize fs.lookup path = found at hrel ⊢
  generalize fs'.lookup path = found' at hrel ⊢
  cases hrel with
  | none => exact .none
  | some halike => exact .some halike.symm

/-! ## Resolution -/

variable {fs fs' : Node} (h : Same fs fs')

include h

theorem walk_congr (follow : List String → List Component → Option (List String))
    (cur : List String) (rest : List Component) :
    fs.walk follow cur rest = fs'.walk follow cur rest := by
  induction rest generalizing cur with
  | nil => rw [walk, walk]
  | cons c rest ih =>
    cases c with
    | parent => rw [walk, walk, ih]
    | name s =>
      have hrel := h (cur ++ [s])
      rw [walk, walk]
      generalize fs.lookup (cur ++ [s]) = found at hrel ⊢
      generalize fs'.lookup (cur ++ [s]) = found' at hrel ⊢
      cases hrel with
      | none => rfl
      | some hn =>
        cases hn with
        | file text => rfl
        | link absolute target => rfl
        | dir hnames => exact ih _

theorem resolve_congr (n : ℕ) : fs.resolve n = fs'.resolve n := by
  induction n with
  | zero =>
    funext cur rest
    exact walk_congr h _ cur rest
  | succ n ih =>
    funext cur rest
    rw [resolve, resolve, ih]
    exact walk_congr h _ cur rest

theorem canonicalize_congr (path : List Component) :
    fs.canonicalize path = fs'.canonicalize path := by
  rw [canonicalize, canonicalize, resolve_congr h]

theorem pathExists_congr (path : List Component) : fs.pathExists path = fs'.pathExists path := by
  rw [pathExists, pathExists, canonicalize_congr h]

theorem metadata_rel (path : List Component) :
    Option.Rel Alike (fs.metadata path) (fs'.metadata path) := by
  rw [metadata, metadata, canonicalize_congr h]
  cases fs'.canonicalize path with
  | none => exact .none
  | some cur => exact h cur

theorem symlinkMetadata_rel (path : List String) :
    Option.Rel Alike (fs.symlinkMetadata path) (fs'.symlinkMetadata path) := by
  rw [symlinkMetadata, symlinkMetadata]
  split
  · have hroot := h []
    rwa [lookup, lookup] at hroot
  · rw [canonicalize_congr h]
    cases fs'.canonicalize (names path.dropLast) with
    | none => exact .none
    | some cur => exact h _

theorem linkMetadata_rel (path : List Component) :
    Option.Rel Alike (fs.linkMetadata path) (fs'.linkMetadata path) := by
  rw [linkMetadata, linkMetadata]
  split
  · rw [canonicalize_congr h]
    cases fs'.canonicalize path.dropLast with
    | none => exact .none
    | some cur => exact h _
  · exact metadata_rel h path

/-- **Only the order** of a listing is another. -/
theorem readDir_rel (path : List Component) :
    Option.Rel List.Perm (fs.readDir path) (fs'.readDir path) := by
  have hrel := metadata_rel h path
  rw [readDir, readDir]
  generalize fs.metadata path = found at hrel ⊢
  generalize fs'.metadata path = found' at hrel ⊢
  cases hrel with
  | none => exact .none
  | some hn =>
    cases hn with
    | file text => exact .none
    | link absolute target => exact .none
    | dir hnames => exact .some hnames

theorem readToString_congr (path : List Component) :
    fs.readToString path = fs'.readToString path := by
  have hrel := metadata_rel h path
  rw [readToString, readToString]
  generalize fs.metadata path = found at hrel ⊢
  generalize fs'.metadata path = found' at hrel ⊢
  cases hrel with
  | none => rfl
  | some hn => cases hn <;> rfl

theorem Same.real {path : List String} (hreal : fs.Real path) : fs'.Real path := by
  intro q hq
  obtain ⟨n, hn, hlink⟩ := hreal q hq
  have hrel := h q
  rw [hn] at hrel
  generalize fs'.lookup q = found at hrel ⊢
  cases hrel with
  | some halike => exact ⟨_, rfl, halike.isLink_eq ▸ hlink⟩

omit h

/-! ## Reordering a directory -/

/-- A tree with the entries of one directory in another order. -/
def reorder (order : List (String × Node) → List (String × Node)) : List String → Node → Node
  | [], dir entries => dir (order entries)
  | s :: path, dir entries =>
    dir (entries.map fun entry =>
      if entry.1 = s then (entry.1, reorder order path entry.2) else entry)
  | _, n => n

/-- **An order of the same entries**, that keeps what each name stands for. -/
structure Reorders (order : List (String × Node) → List (String × Node)) : Prop where
  perm : ∀ entries, (order entries).Perm entries
  lookup : ∀ entries s, (order entries).lookup s = entries.lookup s

theorem lookup_map_entry (entries : List (String × Node)) (s t : String) (f : Node → Node) :
    (entries.map fun entry => if entry.1 = s then (entry.1, f entry.2) else entry).lookup t =
      (entries.lookup t).map fun n => if t = s then f n else n := by
  induction entries with
  | nil => rfl
  | cons entry entries ih =>
    obtain ⟨name, n⟩ := entry
    rw [List.map_cons]
    by_cases hname : name = s
    · subst hname
      rw [if_pos rfl, List.lookup_cons, List.lookup_cons]
      by_cases ht : t = name
      · subst ht
        simp
      · rw [beq_eq_false_iff_ne.2 ht]
        exact ih
    · rw [if_neg hname, List.lookup_cons, List.lookup_cons]
      by_cases ht : t = name
      · subst ht
        simp [hname]
      · rw [beq_eq_false_iff_ne.2 ht]
        exact ih

variable {order : List (String × Node) → List (String × Node)}

/-- **A reordered tree has the same files.** -/
theorem Reorders.same (horder : Reorders order) (path : List String) (fs : Node) :
    Same fs (reorder order path fs) := by
  induction path generalizing fs with
  | nil =>
    cases fs with
    | file text => exact .refl _
    | link absolute target => exact .refl _
    | dir entries =>
      intro q
      cases q with
      | nil => exact .some (.dir ((horder.perm entries).symm.map Prod.fst))
      | cons t q =>
        rw [reorder, Node.lookup, Node.lookup, horder.lookup]
        exact Same.refl (dir entries) (t :: q)
  | cons s path ih =>
    cases fs with
    | file text => exact .refl _
    | link absolute target => exact .refl _
    | dir entries =>
      intro q
      cases q with
      | nil =>
        refine .some (.dir (List.Perm.of_eq ?_))
        rw [List.map_map]
        refine List.map_congr_left fun entry _ => ?_
        by_cases hname : entry.1 = s <;> simp [hname]
      | cons t q =>
        rw [reorder, Node.lookup, Node.lookup, lookup_map_entry]
        cases entries.lookup t with
        | none => exact .none
        | some n =>
          rw [Option.map_some, Option.bind_some, Option.bind_some]
          split_ifs
          · exact ih n q
          · exact Same.refl n q

/-- What is found of the directory itself. -/
theorem lookup_reorder {path : List String} {fs : Node} {entries : List (String × Node)}
    (h : fs.lookup path = some (dir entries)) :
    (reorder order path fs).lookup path = some (dir (order entries)) := by
  induction path generalizing fs with
  | nil =>
    rw [lookup, Option.some.injEq] at h
    subst h
    rw [reorder, lookup]
  | cons s path ih =>
    cases fs with
    | file text => cases h
    | link absolute target => cases h
    | dir fsEntries =>
      rw [lookup] at h
      obtain ⟨n, hn, hpath⟩ := Option.bind_eq_some_iff.1 h
      rw [reorder, lookup, lookup_map_entry, hn, Option.map_some, if_pos rfl, Option.bind_some]
      exact ih hpath

/-- The entries of one name come last. -/
def moveLast (name : String) (entries : List (String × Node)) : List (String × Node) :=
  entries.filter (·.1 ≠ name) ++ entries.filter (·.1 = name)

theorem lookup_filter_fst (p : String → Bool) (entries : List (String × Node)) (s : String) :
    (entries.filter fun entry => p entry.1).lookup s =
      if p s then entries.lookup s else none := by
  induction entries with
  | nil => simp
  | cons entry entries ih =>
    obtain ⟨name, n⟩ := entry
    rw [List.filter_cons, List.lookup_cons]
    by_cases hs : s = name
    · subst hs
      by_cases hp : p s = true <;> simp [hp, ih]
    · rw [beq_eq_false_iff_ne.2 hs]
      split_ifs with hp hps hps <;> simp [List.lookup_cons, beq_eq_false_iff_ne.2 hs, ih, hps]

theorem reorders_moveLast (name : String) : Reorders (moveLast name) where
  perm entries := by
    have hperm := List.filter_append_perm (fun entry : String × Node => decide (entry.1 ≠ name))
      entries
    simpa [moveLast] using hperm
  lookup entries s := by
    rw [moveLast, List.lookup_append, lookup_filter_fst (fun t => decide (t ≠ name)),
      lookup_filter_fst (fun t => decide (t = name))]
    by_cases hs : s = name <;> simp [hs]

end Node

end VcOperator
