import Mathlib.Data.List.Infix
/-!
# File trees with symbolic links

A tree of files, directories and symbolic links, as one moment shows it,
and how a path is resolved in it: component by component, following each
link, and at most so many of them. Nothing here fails for want of a
permission, and a file has a text unless it is not UTF-8.

A path starts at the root of the tree. A list of names without links on it
is a *real* path: resolving leads to real paths, and a real path resolves
to itself.
-/

namespace VcOperator

/-- A component of a path. -/
inductive Component where
  | name (s : String)
  /-- `..`. -/
  | parent
  deriving DecidableEq

/-- A node of a file tree. -/
inductive Node where
  | file (text : Option String)
  /-- A symbolic link, to a path from the root or from the directory it is in. -/
  | link (absolute : Bool) (target : List Component)
  | dir (entries : List (String × Node))

namespace Node

/-- The node is a symbolic link. -/
def isLink : Node → Bool
  | link _ _ => true
  | _ => false

/-- The node at the end of a list of names. Links are not followed. -/
def lookup : Node → List String → Option Node
  | n, [] => some n
  | dir entries, s :: path => (entries.lookup s).bind fun n => n.lookup path
  | _, _ :: _ => none

/-- The components of a path, one after the other, from a directory. `follow` resolves what a
link leaves to resolve. -/
def walk (fs : Node) (follow : List String → List Component → Option (List String)) :
    List String → List Component → Option (List String)
  | cur, [] => some cur
  | cur, .parent :: rest => fs.walk follow cur.dropLast rest
  | cur, .name s :: rest =>
    match fs.lookup (cur ++ [s]) with
    | none => none
    | some (.link absolute target) => follow (if absolute then [] else cur) (target ++ rest)
    | some (.dir _) => fs.walk follow (cur ++ [s]) rest
    | some (.file _) => if rest = [] then some (cur ++ [s]) else none

/-- Resolution of a path from a directory, over at most so many links. -/
def resolve (fs : Node) : ℕ → List String → List Component → Option (List String)
  | 0 => fs.walk fun _ _ => none
  | n + 1 => fs.walk (fs.resolve n)

/-- The links that are followed before a path is refused. -/
def linkLimit : ℕ := 40

/-- `fs::canonicalize`. -/
def canonicalize (fs : Node) (path : List Component) : Option (List String) :=
  fs.resolve linkLimit [] path

/-- A list of names as a path. -/
def names (path : List String) : List Component := path.map .name

/-- `Path::exists`. -/
def pathExists (fs : Node) (path : List Component) : Bool := (fs.canonicalize path).isSome

/-- The node a path leads to. -/
def metadata (fs : Node) (path : List Component) : Option Node :=
  (fs.canonicalize path).bind fs.lookup

/-- `fs::symlink_metadata` of a path of names: the last of them is not followed. -/
def symlinkMetadata (fs : Node) (path : List String) : Option Node :=
  match path.getLast? with
  | none => some fs
  | some s => (fs.canonicalize (names path.dropLast)).bind fun cur => fs.lookup (cur ++ [s])

/-- `Path::file_name`. -/
def fileName (path : List Component) : Option String :=
  match path.getLast? with
  | some (.name s) => some s
  | _ => none

/-- `fs::symlink_metadata` of any path: a last name is not followed. -/
def linkMetadata (fs : Node) (path : List Component) : Option Node :=
  match fileName path with
  | some s => (fs.canonicalize path.dropLast).bind fun cur => fs.lookup (cur ++ [s])
  | none => fs.metadata path

/-- `fs::read_dir`: the names of the entries. -/
def readDir (fs : Node) (path : List Component) : Option (List String) :=
  match fs.metadata path with
  | some (.dir entries) => some (entries.map Prod.fst)
  | _ => none

/-- `fs::read_to_string`. -/
def readToString (fs : Node) (path : List Component) : Option String :=
  match fs.metadata path with
  | some (.file text) => text
  | _ => none

/-- A tree with a node that is no link at the end of a path of names is no link. -/
theorem isLink_of_lookup {fs n : Node} {path : List String} (h : fs.lookup path = some n)
    (hn : n.isLink = false) : fs.isLink = false := by
  cases path with
  | nil =>
    rw [lookup, Option.some.injEq] at h
    exact h ▸ hn
  | cons s path =>
    cases fs with
    | dir entries => rfl
    | file _ => cases h
    | link _ _ => cases h

/-! ## Real paths -/

/-- **No name on the path is a link**, and there is a node at its end. -/
def Real (fs : Node) (path : List String) : Prop :=
  ∀ q, q <+: path → ∃ n, fs.lookup q = some n ∧ n.isLink = false

variable {fs : Node} {path cur : List String}

theorem Real.ofPrefix {q : List String} (h : fs.Real path) (hq : q <+: path) : fs.Real q :=
  fun r hr => h r (hr.trans hq)

theorem Real.append {s : String} {n : Node} (h : fs.Real cur)
    (hn : fs.lookup (cur ++ [s]) = some n) (hlink : n.isLink = false) : fs.Real (cur ++ [s]) := by
  intro q hq
  rcases List.prefix_concat_iff.1 hq with rfl | hq
  · exact ⟨n, hn, hlink⟩
  · exact h q hq

theorem real_nil (h : fs.isLink = false) : fs.Real [] := by
  intro q hq
  obtain rfl := List.prefix_nil.1 hq
  exact ⟨fs, by rw [lookup], h⟩

/-- A walk from a real path leads to one. -/
theorem walk_real {follow : List String → List Component → Option (List String)}
    (hroot : fs.isLink = false)
    (hfollow : ∀ cur rest p, fs.Real cur → follow cur rest = some p → fs.Real p)
    {rest : List Component} (h : fs.Real cur) (hwalk : fs.walk follow cur rest = some path) :
    fs.Real path := by
  induction rest generalizing cur with
  | nil =>
    rw [walk, Option.some.injEq] at hwalk
    exact hwalk ▸ h
  | cons c rest ih =>
    cases c with
    | parent => exact ih (h.ofPrefix (List.dropLast_prefix cur)) hwalk
    | name s =>
      rw [walk] at hwalk
      cases hn : fs.lookup (cur ++ [s]) with
      | none => rw [hn] at hwalk; cases hwalk
      | some n =>
        rw [hn] at hwalk
        cases n with
        | link absolute target =>
          refine hfollow _ _ _ ?_ hwalk
          cases absolute
          · exact h
          · exact real_nil hroot
        | dir entries => exact ih (h.append hn rfl) hwalk
        | file text =>
          dsimp only at hwalk
          split_ifs at hwalk
          obtain rfl := Option.some.inj hwalk
          exact h.append hn rfl

/-- **What a path resolves to is real.** -/
theorem resolve_real (hroot : fs.isLink = false) {n : ℕ} {rest : List Component}
    (h : fs.Real cur) (hres : fs.resolve n cur rest = some path) : fs.Real path := by
  induction n generalizing cur rest path with
  | zero => exact walk_real hroot (fun _ _ _ _ hnone => by cases hnone) h hres
  | succ n ih => exact walk_real hroot (fun _ _ _ => ih) h hres

theorem canonicalize_real {p : List Component} (hroot : fs.isLink = false)
    (h : fs.canonicalize p = some path) : fs.Real path :=
  resolve_real hroot (real_nil hroot) h

/-- A path is looked up piece by piece. -/
theorem lookup_append (fs : Node) (p q : List String) :
    fs.lookup (p ++ q) = (fs.lookup p).bind fun n => n.lookup q := by
  induction p generalizing fs with
  | nil => rw [List.nil_append, lookup, Option.bind_some]
  | cons t p ih =>
    cases fs with
    | dir entries =>
      simp only [List.cons_append, lookup, Option.bind_assoc]
      exact congrArg _ (funext fun n => ih n)
    | file _ => rfl
    | link _ _ => rfl

/-- A longer path goes through directories. -/
theorem lookup_append_singleton {s : String} {n : Node}
    (h : fs.lookup (cur ++ [s]) = some n) :
    ∃ entries, fs.lookup cur = some (.dir entries) ∧ entries.lookup s = some n := by
  rw [lookup_append] at h
  obtain ⟨m, hm, hs⟩ := Option.bind_eq_some_iff.1 h
  cases m with
  | dir entries => exact ⟨entries, hm, by simpa [lookup] using hs⟩
  | file _ => cases hs
  | link _ _ => cases hs

/-- An entry of a directory. -/
theorem lookup_entry {entries : List (String × Node)} (h : fs.lookup cur = some (.dir entries))
    (s : String) : fs.lookup (cur ++ [s]) = entries.lookup s := by
  rw [lookup_append, h, Option.bind_some, lookup]
  cases entries.lookup s with
  | none => rfl
  | some n => rw [Option.bind_some, lookup]

/-- **A real path resolves to itself.** -/
theorem walk_of_real (follow : List String → List Component → Option (List String))
    {rest : List String} (h : fs.Real (cur ++ rest)) :
    fs.walk follow cur (names rest) = some (cur ++ rest) := by
  induction rest generalizing cur with
  | nil => rw [names, List.map_nil, walk, List.append_nil]
  | cons s rest ih =>
    have hsplit : cur ++ s :: rest = cur ++ [s] ++ rest := by simp
    rw [hsplit] at h ⊢
    obtain ⟨n, hn, hlink⟩ := h (cur ++ [s]) (List.prefix_append _ _)
    rw [names, List.map_cons, walk, hn]
    cases n with
    | link absolute target => cases hlink
    | dir entries => exact ih h
    | file text =>
      cases rest with
      | nil => simp
      | cons t rest =>
        -- a file has nothing below it
        have hpre : cur ++ [s] ++ [t] <+: cur ++ [s] ++ t :: rest :=
          ⟨rest, by simp⟩
        obtain ⟨m, hm, -⟩ := h _ hpre
        obtain ⟨entries, hdir, -⟩ := lookup_append_singleton hm
        rw [hn] at hdir
        cases hdir

theorem canonicalize_of_real (h : fs.Real path) : fs.canonicalize (names path) = some path := by
  rw [canonicalize, linkLimit, resolve]
  exact walk_of_real _ h

/-- So its last name is no link either. -/
theorem symlinkMetadata_of_real (h : fs.Real path) : fs.symlinkMetadata path = fs.lookup path := by
  rw [symlinkMetadata]
  split
  · rename_i hlast
    rw [List.getLast?_eq_none_iff.1 hlast, lookup]
  · rename_i s hlast
    have hsplit : path.dropLast ++ [s] = path :=
      List.dropLast_append_getLast? s (Option.mem_def.2 hlast)
    rw [canonicalize_of_real (h.ofPrefix (List.dropLast_prefix path)), Option.bind_some, hsplit]

theorem metadata_of_real (h : fs.Real path) : fs.metadata (names path) = fs.lookup path := by
  rw [metadata, canonicalize_of_real h, Option.bind_some]

/-- The last name of a path is looked up in its directory, and not followed. -/
theorem symlinkMetadata_entry (h : fs.Real cur) (s : String) :
    fs.symlinkMetadata (cur ++ [s]) = fs.lookup (cur ++ [s]) := by
  rw [symlinkMetadata, List.getLast?_concat, List.dropLast_concat, canonicalize_of_real h]
  rfl

theorem linkMetadata_entry (path : List Component) (s : String) :
    fs.linkMetadata (path ++ [.name s]) =
      (fs.canonicalize path).bind fun cur => fs.lookup (cur ++ [s]) := by
  rw [linkMetadata, fileName, List.getLast?_concat, List.dropLast_concat]

/-- What lies below a directory without links is found below whatever leads to it. -/
theorem walk_append_of_real {follow : List String → List Component → Option (List String)}
    {rest : List String} {p : List Component} {start : List String}
    (hfollow : ∀ start p, follow start p = some cur →
      follow start (p ++ names rest) = some (cur ++ rest))
    (hreal : fs.Real (cur ++ rest)) (hdir : ∃ entries, fs.lookup cur = some (.dir entries))
    (h : fs.walk follow start p = some cur) :
    fs.walk follow start (p ++ names rest) = some (cur ++ rest) := by
  induction p generalizing start with
  | nil =>
    rw [walk, Option.some.injEq] at h
    rw [List.nil_append, h]
    exact walk_of_real follow hreal
  | cons c p ih =>
    cases c with
    | parent => exact ih h
    | name s =>
      rw [walk] at h
      rw [List.cons_append, walk]
      cases hn : fs.lookup (start ++ [s]) with
      | none =>
        rw [hn] at h
        cases h
      | some n =>
        rw [hn] at h
        cases n with
        | link absolute target =>
          dsimp only at h ⊢
          rw [← List.append_assoc]
          exact hfollow _ _ h
        | dir entries => exact ih h
        | file text =>
          -- a file is no directory
          dsimp only at h
          split_ifs at h
          obtain rfl := Option.some.inj h
          obtain ⟨entries, hentries⟩ := hdir
          rw [hn] at hentries
          cases hentries

theorem canonicalize_append_of_real {rest : List String} {p : List Component}
    (hreal : fs.Real (cur ++ rest)) (hdir : ∃ entries, fs.lookup cur = some (.dir entries))
    (h : fs.canonicalize p = some cur) :
    fs.canonicalize (p ++ names rest) = some (cur ++ rest) := by
  have hresolve (n : ℕ) : ∀ start p, fs.resolve n start p = some cur →
      fs.resolve n start (p ++ names rest) = some (cur ++ rest) := by
    induction n with
    | zero =>
      intro start p h
      exact walk_append_of_real nofun hreal hdir h
    | succ n ih =>
      intro start p h
      exact walk_append_of_real ih hreal hdir h
  exact hresolve linkLimit [] p h

end Node

end VcOperator
