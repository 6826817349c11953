import VcOperator.Polarize.Model
/-!
# Which prisms are found

Exactly the plain files `prism.json`, so many levels below the artifacts at
most, that no link leads to and that stand in a run of a directory
`polarize`. What is found of a tree depends on its files, not on the order
in which its directories list them.
-/

namespace VcOperator

namespace Polarize

variable {fs fs' : Node} {base home : List Component} {root path : List String} {s : String}

/-! ## A directory -/

theorem isPlainDir_iff :
    isPlainDir fs base = true ↔ ∃ entries, fs.linkMetadata base = some (.dir entries) := by
  unfold isPlainDir
  cases hnode : fs.linkMetadata base with
  | none => exact ⟨nofun, nofun⟩
  | some node => cases node <;> simp

/-- An entry of a directory, as it is found below what leads there. -/
theorem linkMetadata_of_canonicalize (hbase : fs.canonicalize base = some root) (s : String) :
    fs.linkMetadata (base ++ [.name s]) = fs.lookup (root ++ [s]) := by
  rw [Node.linkMetadata_entry, hbase, Option.bind_some]

theorem canonicalize_entry {n : Node} (hroot : fs.Real root)
    (hbase : fs.canonicalize base = some root) (hn : fs.lookup (root ++ [s]) = some n)
    (hlink : n.isLink = false) :
    fs.canonicalize (base ++ [.name s]) = some (root ++ [s]) := by
  obtain ⟨entries, hentries, -⟩ := Node.lookup_append_singleton hn
  have hreal := hroot.append hn hlink
  exact Node.canonicalize_append_of_real hreal ⟨entries, hentries⟩ hbase

theorem readDir_of_canonicalize {entries : List (String × Node)}
    (hbase : fs.canonicalize base = some root) (hdir : fs.lookup root = some (.dir entries)) :
    fs.readDir base = some (entries.map Prod.fst) := by
  rw [Node.readDir, Node.metadata, hbase, Option.bind_some, hdir]

/-- What `safe_prism_file` makes of an entry. -/
theorem safePrismFile_eq_some_iff (hroot : fs.Real root)
    (hbase : fs.canonicalize base = some root) :
    safePrismFile fs (base ++ [.name s]) = some path ↔ s = "prism.json" ∧ path = root ++ [s] ∧
      (∃ text, fs.lookup path = some (.file text)) ∧ isPolarizePrism path = true := by
  have hname : Node.fileName (base ++ [.name s]) = some s := by
    rw [Node.fileName, List.getLast?_concat]
  simp only [safePrismFile, hname, linkMetadata_of_canonicalize hbase, Option.some.injEq]
  constructor
  · intro h
    split_ifs at h with hs
    · cases hnode : fs.lookup (root ++ [s]) with
      | none =>
        rw [hnode] at h
        cases h
      | some node =>
        rw [hnode] at h
        cases node with
        | file text =>
          dsimp only at h
          rw [canonicalize_entry hroot hbase hnode rfl, Option.filter_eq_some_iff,
            Option.some.injEq] at h
          obtain ⟨rfl, hprism⟩ := h
          exact ⟨hs, rfl, ⟨text, hnode⟩, hprism⟩
        | link _ _ => cases h
        | dir _ => cases h
  · rintro ⟨hs, rfl, ⟨text, htext⟩, hprism⟩
    rw [if_pos hs, htext]
    dsimp only
    rw [canonicalize_entry hroot hbase htext rfl, Option.filter_eq_some_iff]
    exact ⟨rfl, hprism⟩

/-! ## The descent -/

/-- **A prism**, in less than so many directories below one. -/
structure IsPrism (fs : Node) (root : List String) (levels : ℕ) (path : List String) : Prop where
  below : ∃ dirs, path = root ++ dirs ++ ["prism.json"] ∧ dirs.length < levels ∧
    "prism.json" ∉ dirs
  /-- No component of the path is a link. -/
  real : fs.Real path
  file : ∃ text, fs.lookup path = some (.file text)
  polarize : isPolarizePrism path = true

theorem IsPrism.succ_of_entry {levels : ℕ} (hs : s ≠ "prism.json")
    (h : IsPrism fs (root ++ [s]) levels path) : IsPrism fs root (levels + 1) path := by
  obtain ⟨⟨dirs, hpath, hlevels, hnot⟩, hreal, hfile, hpolarize⟩ := h
  refine ⟨⟨s :: dirs, ?_, ?_, ?_⟩, hreal, hfile, hpolarize⟩
  · rw [hpath]
    simp
  · rw [List.length_cons]
    omega
  · rw [List.mem_cons]
    rintro (heq | hmem)
    · exact hs heq.symm
    · exact hnot hmem

/-- What a prism is below is a directory. -/
theorem IsPrism.dir {levels : ℕ} (h : IsPrism fs root levels path) :
    fs.Real root ∧ ∃ entries, fs.lookup root = some (.dir entries) := by
  obtain ⟨dirs, hpath, -, -⟩ := h.below
  obtain ⟨next, rest, hrest⟩ : ∃ next rest, dirs ++ ["prism.json"] = next :: rest :=
    List.exists_cons_of_ne_nil (List.append_ne_nil_of_right_ne_nil _ (List.cons_ne_nil _ _))
  have hnext : root ++ [next] <+: path := by
    rw [hpath, List.append_assoc, hrest]
    exact ⟨rest, by simp⟩
  obtain ⟨n, hn, -⟩ := h.real _ hnext
  obtain ⟨entries, hentries, -⟩ := Node.lookup_append_singleton hn
  exact ⟨h.real.ofPrefix ((List.prefix_append _ _).trans hnext), entries, hentries⟩

/-- A prism is in the directory itself, or below a directory in it. -/
theorem IsPrism.cases_entry {levels : ℕ} (h : IsPrism fs root (levels + 1) path) :
    path = root ++ ["prism.json"] ∨
      ∃ s, s ≠ "prism.json" ∧ IsPrism fs (root ++ [s]) levels path := by
  obtain ⟨⟨dirs, hpath, hlevels, hnot⟩, hreal, hfile, hpolarize⟩ := h
  cases dirs with
  | nil => exact .inl (by simpa using hpath)
  | cons s dirs =>
    right
    rw [List.mem_cons, not_or] at hnot
    rw [List.length_cons] at hlevels
    refine ⟨s, Ne.symm hnot.1, ⟨dirs, ?_, by omega, hnot.2⟩, hreal, hfile, hpolarize⟩
    rw [hpath]
    simp

/-- A node of a directory has a name in it. -/
theorem mem_names_of_lookup {entries : List (String × Node)} {n : Node}
    (hdir : fs.lookup root = some (.dir entries)) (hn : fs.lookup (root ++ [s]) = some n) :
    s ∈ entries.map Prod.fst := by
  rw [Node.lookup_entry hdir] at hn
  obtain ⟨before, after, rfl, -⟩ := List.lookup_eq_some_iff.1 hn
  simp

/-- **What the descent collects** in a directory without links. -/
theorem mem_collectPrisms_iff {levels : ℕ} {entries : List (String × Node)}
    (hroot : fs.Real root) (hbase : fs.canonicalize base = some root)
    (hdir : fs.lookup root = some (.dir entries)) (hplain : isPlainDir fs base = true) :
    path ∈ collectPrisms fs levels base ↔ IsPrism fs root levels path := by
  induction levels generalizing base root entries with
  | zero =>
    refine ⟨nofun, fun h => ?_⟩
    obtain ⟨dirs, -, hlt, -⟩ := h.below
    exact absurd hlt (Nat.not_lt_zero _)
  | succ levels ih =>
    rw [collectPrisms, if_pos hplain, readDir_of_canonicalize hbase hdir, Option.getD_some,
      List.mem_flatMap]
    constructor
    · rintro ⟨s, -, hpath⟩
      dsimp only at hpath
      split_ifs at hpath with hs hentry
      · obtain ⟨-, rfl, ⟨text, htext⟩, hprism⟩ :=
          (safePrismFile_eq_some_iff hroot hbase).1 (Option.mem_toList.1 hpath)
        exact ⟨⟨[], by rw [hs, List.append_nil], Nat.succ_pos _, List.not_mem_nil⟩,
          hroot.append htext rfl, ⟨text, htext⟩, hprism⟩
      · obtain ⟨below, hbelow⟩ := isPlainDir_iff.1 hentry
        rw [linkMetadata_of_canonicalize hbase] at hbelow
        exact ((ih (hroot.append hbelow rfl) (canonicalize_entry hroot hbase hbelow rfl) hbelow
          hentry).1 hpath).succ_of_entry hs
      · cases hpath
    · intro h
      rcases h.cases_entry with hpath | ⟨s, hs, hprism⟩
      · obtain ⟨text, htext⟩ := h.file
        refine ⟨"prism.json", mem_names_of_lookup hdir (hpath ▸ htext), ?_⟩
        dsimp only
        rw [if_pos rfl, Option.mem_toList, safePrismFile_eq_some_iff hroot hbase]
        exact ⟨rfl, hpath, ⟨text, htext⟩, h.polarize⟩
      · obtain ⟨hreal, below, hbelow⟩ := hprism.dir
        have hentry : isPlainDir fs (base ++ [.name s]) = true := by
          rw [isPlainDir_iff, linkMetadata_of_canonicalize hbase]
          exact ⟨below, hbelow⟩
        refine ⟨s, mem_names_of_lookup hdir hbelow, ?_⟩
        dsimp only
        rw [if_neg hs, if_pos hentry]
        exact (ih hreal (canonicalize_entry hroot hbase hbelow rfl) hbelow hentry).2 hprism

/-- **The prisms of a home directory**: those less than seven directories below its artifacts. -/
theorem mem_discoverPrismFiles_iff : path ∈ discoverPrismFiles fs home ↔
    ∃ root, fs.canonicalize home = some root ∧ IsPrism fs (root ++ ["artifacts"]) 7 path := by
  rw [discoverPrismFiles, List.mem_mergeSort]
  constructor
  · intro h
    rw [collectPrisms] at h
    split_ifs at h with hplain
    · obtain ⟨entries, hentries⟩ := isPlainDir_iff.1 hplain
      rw [Node.linkMetadata_entry] at hentries
      obtain ⟨root, hhome, hartifacts⟩ := Option.bind_eq_some_iff.1 hentries
      have hroot : fs.Real root :=
        Node.canonicalize_real (Node.isLink_of_lookup hartifacts rfl) hhome
      refine ⟨root, hhome, ?_⟩
      rw [← mem_collectPrisms_iff (hroot.append hartifacts rfl)
        (canonicalize_entry hroot hhome hartifacts rfl) hartifacts hplain, collectPrisms,
        if_pos hplain]
      exact h
    · cases h
  · rintro ⟨root, hhome, hprism⟩
    obtain ⟨hreal, entries, hentries⟩ := hprism.dir
    have hroot : fs.Real root := hreal.ofPrefix (List.prefix_append _ _)
    refine (mem_collectPrisms_iff hreal (canonicalize_entry hroot hhome hentries rfl) hentries
      ?_).2 hprism
    rw [isPlainDir_iff, linkMetadata_of_canonicalize hhome]
    exact ⟨entries, hentries⟩

/-! ## Trees of the same files -/

section Same

variable (h : Node.Same fs fs')

include h

theorem isPlainDir_congr (path : List Component) : isPlainDir fs path = isPlainDir fs' path := by
  have hrel := Node.linkMetadata_rel h path
  rw [isPlainDir, isPlainDir]
  generalize fs.linkMetadata path = found at hrel ⊢
  generalize fs'.linkMetadata path = found' at hrel ⊢
  cases hrel with
  | none => rfl
  | some halike => cases halike <;> rfl

theorem safePrismFile_congr (path : List Component) :
    safePrismFile fs path = safePrismFile fs' path := by
  have hrel := Node.linkMetadata_rel h path
  rw [safePrismFile, safePrismFile, Node.canonicalize_congr h]
  generalize fs.linkMetadata path = found at hrel ⊢
  generalize fs'.linkMetadata path = found' at hrel ⊢
  cases hrel with
  | none => rfl
  | some halike => cases halike <;> rfl

/-- **Only the order** of what is collected is another. -/
theorem perm_collectPrisms (levels : ℕ) (path : List Component) :
    (collectPrisms fs levels path).Perm (collectPrisms fs' levels path) := by
  induction levels generalizing path with
  | zero => exact .refl _
  | succ levels ih =>
    rw [collectPrisms, collectPrisms, isPlainDir_congr h]
    split_ifs with hplain
    · have hentries : ((fs.readDir path).getD []).Perm ((fs'.readDir path).getD []) := by
        have hrel := Node.readDir_rel h path
        generalize fs.readDir path = found at hrel ⊢
        generalize fs'.readDir path = found' at hrel ⊢
        cases hrel with
        | none => exact .refl _
        | some hperm => exact hperm
      refine (hentries.flatMap_right _).trans (List.Perm.flatMap_left _ fun entry _ => ?_)
      dsimp only
      rw [safePrismFile_congr h, isPlainDir_congr h]
      split_ifs
      · exact .refl _
      · exact ih _
      · exact .refl _
    · exact .refl _

/-- Once sorted, it is the same. -/
theorem discoverPrismFiles_congr (home : List Component) :
    discoverPrismFiles fs home = discoverPrismFiles fs' home := by
  have hsorted (paths : List (List String)) :
      (paths.mergeSort fun left right => left ≤ right).Pairwise (· ≤ ·) := by
    refine (List.pairwise_mergeSort ?_ ?_ paths).imp of_decide_eq_true
    · intro a b c hab hbc
      exact decide_eq_true ((of_decide_eq_true hab).trans (of_decide_eq_true hbc))
    · intro a b
      simpa using le_total a b
  have hperm : (discoverPrismFiles fs home).Perm (discoverPrismFiles fs' home) :=
    (List.mergeSort_perm _ _).trans
      ((perm_collectPrisms h 7 _).trans (List.mergeSort_perm _ _).symm)
  exact hperm.eq_of_pairwise (fun _ _ _ _ hle hge => le_antisymm hle hge) (hsorted _) (hsorted _)

theorem readIntent_congr (floats : Json.Floats) (path : List Component) :
    readIntent fs floats path = readIntent fs' floats path := by
  rw [readIntent, readIntent, safePrismFile_congr h]
  simp only [Node.readToString_congr h]

end Same

end Polarize

end VcOperator
