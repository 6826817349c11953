import VcOperator.Config.Helpers.Sockets
import VcOperator.Config.Model.Params
import VcOperator.Config.Model.Rewire
/-!
# Are the sockets of the generated servers distinct?

A mux removes what is at its socket before it binds there. The servers of a
generated config are told apart by name; their sockets are the services' own, or
made from the names. Variants of a conflict keep the socket they were found with
under their new names, and then two servers have one.
-/

namespace VcOperator

namespace Config

variable {home : Option String} {dir name : String} {services : List HostService}

/-- Where a mux with this socket binds. -/
def listensAt (home : Option String) (socket : String) : List String :=
  components (expandPath home socket)

/-- **No two servers of a config have one socket.** -/
def DistinctSockets (home : Option String) (config : DaemonConfig) : Prop :=
  ∀ name name' s s', config.servers.get name = some s → config.servers.get name' = some s' →
    name ≠ name' → ∀ x y, s.socket = some x → s'.socket = some y →
      listensAt home x ≠ listensAt home y

/-! ## The condition -/

/-- A service that is in a config made of the list: the last one of its name. -/
def Survives (services : List HostService) (w : HostService) : Prop :=
  (services.filter fun svc => svc.name = w.name).getLast? = some w

/-- The socket of a service that has none of its own. -/
def defaultSocket (dir name : String) : String := joinPath dir (name ++ ".sock")

/-- **The services share no socket**: not their own, not one's own and the default of another,
and not two defaults. -/
structure NoneShared (home : Option String) (dir : String) (services : List HostService) :
    Prop where
  own : ∀ w w', Survives services w → Survives services w' → w.name ≠ w'.name →
    ∀ x y, w.socket = some x → w'.socket = some y → listensAt home x ≠ listensAt home y
  ownDefault : ∀ w w', Survives services w → Survives services w' → w.name ≠ w'.name →
    ∀ x, w.socket = some x → w'.socket = none →
      listensAt home x ≠ listensAt home (defaultSocket dir w'.name)
  default : ∀ w w', Survives services w → Survives services w' → w.name ≠ w'.name →
    w.socket = none → w'.socket = none →
      listensAt home (defaultSocket dir w.name) ≠ listensAt home (defaultSocket dir w'.name)

/-! ## The servers -/

theorem socketOf_of_some {w : HostService} {x : String} (h : w.socket = some x) :
    socketOf dir w = x := by
  rw [socketOf, h, Option.getD_some]

theorem socketOf_of_none {w : HostService} (h : w.socket = none) :
    socketOf dir w = defaultSocket dir w.name := by
  rw [socketOf, h, Option.getD_none, defaultSocket]

/-- The servers of a config are the services that survive. -/
theorem get_daemon_iff_survives {cfg : ServerConfig} :
    (buildDaemonConfig services dir).servers.get name = some cfg ↔
      ∃ w, Survives services w ∧ w.name = name ∧ cfg = serverConfig dir w := by
  rw [buildDaemonConfig, HashMap.get_fill, Option.map_eq_some_iff]
  constructor
  · rintro ⟨w, hw, rfl⟩
    have hname : w.name = name := by
      simpa using (List.mem_filter.1 (List.mem_of_getLast? hw)).2
    exact ⟨w, by rw [Survives, hname]; exact hw, hname, rfl⟩
  · rintro ⟨w, hw, rfl, rfl⟩
    exact ⟨w, hw, rfl⟩

/-- **The sockets of a daemon config are distinct** where the services share none. -/
theorem distinctSockets_daemon_iff :
    DistinctSockets home (buildDaemonConfig services dir) ↔ NoneShared home dir services := by
  constructor
  · intro h
    have hapart : ∀ w w', Survives services w → Survives services w' → w.name ≠ w'.name →
        listensAt home (socketOf dir w) ≠ listensAt home (socketOf dir w') := by
      intro w w' hw hw' hne
      exact h w.name w'.name _ _ (get_daemon_iff_survives.2 ⟨w, hw, rfl, rfl⟩)
        (get_daemon_iff_survives.2 ⟨w', hw', rfl, rfl⟩) hne _ _ rfl rfl
    refine ⟨fun w w' hw hw' hne x y hx hy => ?_, fun w w' hw hw' hne x hx hy => ?_,
      fun w w' hw hw' hne hx hy => ?_⟩
    · rw [← socketOf_of_some hx, ← socketOf_of_some hy]
      exact hapart w w' hw hw' hne
    · rw [← socketOf_of_some hx, ← socketOf_of_none hy]
      exact hapart w w' hw hw' hne
    · rw [← socketOf_of_none hx, ← socketOf_of_none hy]
      exact hapart w w' hw hw' hne
  · intro h name name' s s' hs hs' hne x y hx hy
    obtain ⟨w, hw, rfl, rfl⟩ := get_daemon_iff_survives.1 hs
    obtain ⟨w', hw', rfl, rfl⟩ := get_daemon_iff_survives.1 hs'
    obtain rfl := Option.some.inj hx
    obtain rfl := Option.some.inj hy
    -- either has a socket of its own, or the default one
    cases hown : w.socket with
    | some x =>
      rw [socketOf_of_some hown]
      cases hown' : w'.socket with
      | some y =>
        rw [socketOf_of_some hown']
        exact h.own w w' hw hw' hne x y hown hown'
      | none =>
        rw [socketOf_of_none hown']
        exact h.ownDefault w w' hw hw' hne x hown hown'
    | none =>
      rw [socketOf_of_none hown]
      cases hown' : w'.socket with
      | some y =>
        rw [socketOf_of_some hown']
        exact (h.ownDefault w' w hw' hw hne.symm y hown' hown).symm
      | none =>
        rw [socketOf_of_none hown']
        exact h.default w w' hw hw' hne hown hown'

/-! ## Default sockets -/

/-- A name that is that of a file: it has no slash. -/
def PlainName (name : String) : Prop := '/' ∉ name.toList

/-- A path that ends in a file. -/
def EndsIn (file path : String) : Prop :=
  ∃ before : List Char, path.toList = before ++ file.toList ∧
    (before = [] ∨ before.getLast? = some '/')

/-- The file is the last component. -/
theorem EndsIn.components {file path : String} (h : EndsIn file path) (hplain : '/' ∉ file.toList)
    (hne : file ≠ "") (hdot : file ≠ ".") : ∃ cs, components path = cs ++ [file] := by
  obtain ⟨before, hpath, hend⟩ := h
  have hchars : file.toList ≠ [] := fun h => hne (String.toList_eq_nil_iff.1 h)
  have hdotChars : file.toList ≠ ['.'] := fun h => hdot (String.toList_injective h)
  have hfile : file.toList.splitOn '/' = [file.toList] := List.splitOn_eq_singleton hplain
  rcases hend with rfl | hlast
  · refine ⟨[], ?_⟩
    rw [List.nil_append] at hpath
    rw [Config.components, hpath, hfile]
    simp [hchars]
  · obtain ⟨q, rfl⟩ := List.getLast?_eq_some_iff.1 hlast
    have hsplit : path.toList.splitOn '/' = q.splitOn '/' ++ [file.toList] := by
      rw [hpath, List.append_assoc, List.singleton_append, List.splitOn_append_cons_self, hfile]
    rw [Config.components, hsplit]
    cases hq : q.splitOn '/' with
    | nil => exact absurd hq (List.splitOn_ne_nil _ _)
    | cons first rest =>
      refine ⟨(if first ≠ [] then [String.ofList first] else ["/"]) ++
        (rest.filter fun part => part ≠ [] ∧ part ≠ ['.']).map String.ofList, ?_⟩
      simp [hchars, hdotChars]

theorem endsIn_joinPath {dir file : String} (h : '/' ∉ file.toList) :
    EndsIn file (joinPath dir file) := by
  have hhead : file.toList.head? ≠ some '/' := fun hhead => h (List.mem_of_head? hhead)
  rw [joinPath, if_neg hhead]
  split_ifs with hdir
  · refine ⟨dir.toList, String.toList_append, ?_⟩
    rcases hdir with hlast | rfl
    · exact .inr hlast
    · exact .inl rfl
  · refine ⟨dir.toList ++ ['/'], ?_, .inr List.getLast?_concat⟩
    rw [String.toList_append, String.toList_append]
    rfl

/-- Where `~` is expanded, the path still ends in the file. -/
theorem EndsIn.expandPath {file path : String} (h : EndsIn file path) (hplain : '/' ∉ file.toList) :
    EndsIn file (Config.expandPath home path) := by
  obtain ⟨before, hpath, hend⟩ := h
  unfold Config.expandPath
  split
  · rename_i stripped homeDir htilde
    -- the file has no slash, so that `~/` is before it
    obtain ⟨q, rfl, hstripped⟩ : ∃ q, before = '~' :: '/' :: q ∧ stripped = q ++ file.toList := by
      rw [hpath] at htilde
      match before with
      | [] =>
        rw [List.nil_append] at htilde
        exact absurd (htilde ▸ by simp) hplain
      | [c] =>
        obtain ⟨rfl, -⟩ := List.cons.inj htilde
        simp at hend
      | c :: d :: q =>
        obtain ⟨rfl, htail⟩ := List.cons.inj htilde
        obtain ⟨rfl, hq⟩ := List.cons.inj htail
        exact ⟨q, rfl, hq.symm⟩
    have hq : q = [] ∨ q.getLast? = some '/' := by
      cases q with
      | nil => exact .inl rfl
      | cons c q => exact .inr (by simpa using hend)
    split_ifs with hhead
    · exact ⟨q, by rw [String.toList_ofList, hstripped], hq⟩
    · rw [joinPath, String.toList_ofList, if_neg hhead]
      split_ifs with hdir
      · refine ⟨homeDir.toList ++ q, ?_, ?_⟩
        · rw [String.toList_append, String.toList_ofList, hstripped, List.append_assoc]
        · rcases hq with rfl | hlast
          · rw [List.append_nil]
            exact hdir.symm.imp_left fun h => by rw [h]; rfl
          · exact .inr (by rw [List.getLast?_append, hlast]; rfl)
      · refine ⟨homeDir.toList ++ '/' :: q, ?_, .inr ?_⟩
        · rw [String.toList_append, String.toList_append, String.toList_ofList, hstripped]
          simp
        · rcases hq with rfl | hlast
          · exact List.getLast?_concat
          · rw [List.getLast?_append, List.getLast?_cons, hlast]
            rfl
  · exact ⟨before, hpath, hend⟩

/-- **Plain names have default sockets of their own.** -/
theorem defaultSocket_injective {n n' : String} (h : PlainName n) (h' : PlainName n')
    (heq : listensAt home (defaultSocket dir n) = listensAt home (defaultSocket dir n')) :
    n = n' := by
  have hlast : ∀ {n : String}, PlainName n →
      ∃ cs, listensAt home (defaultSocket dir n) = cs ++ [n ++ ".sock"] := by
    intro n h
    have hplain : '/' ∉ (n ++ ".sock").toList := by
      rw [String.toList_append, List.mem_append]
      rintro (hmem | hmem)
      · exact h hmem
      · revert hmem
        decide
    have hlong : 5 ≤ (n ++ ".sock").length := by
      rw [String.length_append]
      exact Nat.le_add_left 5 _
    refine ((endsIn_joinPath hplain).expandPath hplain).components hplain ?_ ?_
    · intro h
      rw [h] at hlong
      revert hlong
      decide
    · intro h
      rw [h] at hlong
      revert hlong
      decide
  obtain ⟨cs, hcs⟩ := hlast h
  obtain ⟨cs', hcs'⟩ := hlast h'
  rw [hcs, hcs'] at heq
  have hfile : n ++ ".sock" = n' ++ ".sock" := (List.cons.inj (List.append_inj_right' heq rfl)).1
  have hchars := congrArg String.toList hfile
  rw [String.toList_append, String.toList_append] at hchars
  exact String.toList_injective (List.append_cancel_right hchars)

/-- **Services that leave the choice to the mux share no socket**, if their names are plain. -/
theorem noneShared_of_plain (hplain : ∀ svc ∈ services, PlainName svc.name)
    (hnone : ∀ svc ∈ services, svc.socket = none) : NoneShared home dir services := by
  have hmem : ∀ {w}, Survives services w → w ∈ services := fun hw =>
    (List.mem_filter.1 (List.mem_of_getLast? hw)).1
  refine ⟨fun w w' hw _ _ x y hx _ => ?_, fun w w' hw _ _ x hx _ => ?_,
    fun w w' hw hw' hne _ _ heq => ?_⟩
  · rw [hnone w (hmem hw)] at hx
    cases hx
  · rw [hnone w (hmem hw)] at hx
    cases hx
  · exact hne (defaultSocket_injective (hplain w (hmem hw)) (hplain w' (hmem hw')) heq)

/-! ## Every list of services -/

/-- **The sockets are distinct exactly where the services share none**: for every list of
services, merged or selected, in the daemon config and in the manifest. -/
theorem distinctSockets_iff (home : Option String) (dir : String) :
    (∀ services, DistinctSockets home (buildDaemonConfig services dir) ↔
      NoneShared home dir services) ∧
    ∀ scans, DistinctSockets home (buildManifest scans dir) ↔
      NoneShared home dir (mergeServices scans).services :=
  ⟨fun _ => distinctSockets_daemon_iff, fun _ => distinctSockets_daemon_iff⟩

/-- Claude and Codex define `memory` differently, on one socket. -/
def sharingScans : List ScanResult :=
  [⟨sampleHost .claude ".claude.json",
      [{ sampleService "memory" "npx" with socket := some "~/mcp/memory.sock" }]⟩,
    ⟨sampleHost .codex "config.toml",
      [{ sampleService "memory" "uvx" with socket := some "~/mcp/memory.sock" }]⟩]

/-- **Two servers, one socket.** -/
theorem not_distinctSockets_sharingScans : ¬ ∀ (home : Option String) (dir : String)
    (scans : List ScanResult),
      DistinctSockets home (buildDaemonConfig (mergeServices scans).services dir) ∧
        DistinctSockets home (buildManifest scans dir) := by
  intro h
  have hserver : ∀ name, name = "memory-from-claude" ∨ name = "memory-from-codex" →
      ((buildManifest sharingScans "/s").servers.get name).bind (·.socket) =
        some "~/mcp/memory.sock" := by
    rintro name (rfl | rfl)
    · decide +kernel
    · decide +kernel
  obtain ⟨s, hs, hx⟩ := Option.bind_eq_some_iff.1 (hserver _ (.inl rfl))
  obtain ⟨s', hs', hy⟩ := Option.bind_eq_some_iff.1 (hserver _ (.inr rfl))
  exact (h none "/s" sharingScans).2 _ _ s s' hs hs' (by decide) _ _ hx hy rfl

end Config

end VcOperator
