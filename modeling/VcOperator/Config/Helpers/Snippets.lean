import VcOperator.Config.Helpers.Documents
import VcOperator.Config.Helpers.Sockets
import VcOperator.Config.Model.Rewire
/-!
# What a snippet holds

The snippet of a single host has one entry for each service found in its file,
under the service's name, and the entry describes the proxy on the service's
socket. `toml` makes a table with the same entries of it.
-/

namespace VcOperator

/-! ## JSON maps as TOML -/

namespace Toml

/-- Entries whose values `toml` takes are a table with the same keys. -/
theorem ofMembers_of_isSome {es : List (String × Value)} (h : ∀ e ∈ es, (ofValue e.2).isSome) :
    ∃ es', ofMembers es = some es' ∧ es'.map Prod.fst = es.map Prod.fst ∧
      ∀ k, OrderedMap.lookup k es' = (OrderedMap.lookup k es).bind ofValue := by
  induction es with
  | nil => exact ⟨[], rfl, rfl, fun _ => rfl⟩
  | cons e es ih =>
    obtain ⟨key, v⟩ := e
    obtain ⟨hv, hrest⟩ := List.forall_mem_cons.1 h
    obtain ⟨t, ht⟩ := Option.isSome_iff_exists.1 hv
    obtain ⟨es', hes', hkeys, hlookup⟩ := ih hrest
    refine ⟨(key, t) :: es', ?_, ?_, fun k => ?_⟩
    · rw [ofMembers, ht, hes']
      rfl
    · rw [List.map_cons, List.map_cons, hkeys]
    · rw [OrderedMap.lookup, OrderedMap.lookup]
      split_ifs
      · exact ht.symm
      · exact hlookup k

/-- `toml` takes every value of a map. -/
def Takes (m : OrderedMap String Value) : Prop := ∀ k v, m.get k = some v → (ofValue v).isSome

theorem Takes.insert {m : OrderedMap String Value} (h : Takes m) (key : String) {v : Value}
    (hv : (ofValue v).isSome) : Takes (m.insert key v) := by
  intro k w hw
  rcases eq_or_ne k key with rfl | hne
  · rw [OrderedMap.get_insert] at hw
    exact Option.some.inj hw ▸ hv
  · rw [OrderedMap.get_insert_ne hne] at hw
    exact h k w hw

/-- **A JSON map is a TOML map** with the values it has there. -/
theorem Takes.ofMembers {m : OrderedMap String Value} (h : Takes m) :
    ∃ m' : OrderedMap String Toml, ofMembers m.entries = some m'.entries ∧
      ∀ k, m'.get k = (m.get k).bind ofValue := by
  have hsome : ∀ e ∈ m.entries, (ofValue e.2).isSome := fun e he =>
    h e.1 e.2 (OrderedMap.get_eq_some_iff.2 he)
  obtain ⟨es', hes', hkeys, hlookup⟩ := ofMembers_of_isSome hsome
  have hsorted : (es'.map Prod.fst).Pairwise (· < ·) := by
    rw [hkeys]
    exact m.sorted_keys
  exact ⟨⟨es', List.pairwise_map.1 hsorted⟩, hes', hlookup⟩

/-- Strings are taken as they are. -/
theorem ofValue_strings (ss : List String) :
    ofValue (.array (ss.map .string)) = some (.array (ss.map .string)) := by
  have hvalues : ofValues (ss.map .string) = some (ss.map .string) := by
    induction ss with
    | nil => rfl
    | cons s ss ih =>
      rw [List.map_cons, ofValues, ih]
      rfl
  rw [ofValue, hvalues]
  rfl

theorem ofValue_stringMap (env : Config.Env) :
    ofValue (.object (env.mapValues Value.string).entries) =
      some (.table (env.mapValues Toml.string).entries) := by
  have hmembers : ∀ es : List (String × String),
      ofMembers (es.map fun e => (e.1, .string e.2)) =
        some (es.map fun e => (e.1, .string e.2)) := by
    intro es
    induction es with
    | nil => rfl
    | cons e es ih =>
      rw [List.map_cons, ofMembers, ih]
      rfl
  rw [ofValue, OrderedMap.mapValues, hmembers]
  rfl

end Toml

namespace Config

/-! ## One entry -/

section Entry

variable {dir proxyCmd : String} {args : List String} {svc : HostService}

/-- The server an entry of a snippet describes. -/
def snippeted (dir proxyCmd : String) (args : List String) (svc : HostService) : RawServer where
  command := some proxyCmd
  args := some (proxyArgs args (socketOf dir svc))
  cwd := svc.cwd
  socket := none
  env := svc.env
  enabled := none

/-- The members of an entry, one by one. -/
theorem get_snippetMembers (key : String) : (snippetMembers dir proxyCmd args svc).get key =
    if key = "command" then some (.string proxyCmd)
    else if key = "args" then some (.array ((proxyArgs args (socketOf dir svc)).map .string))
    else if key = "cwd" then svc.cwd.map .string
    else if key = "env" then svc.env.map fun env => .object (env.mapValues Value.string).entries
    else none := by
  have hapart : "cwd" ≠ "command" ∧ "cwd" ≠ "args" ∧ "env" ≠ "command" ∧ "env" ≠ "args" ∧
      "env" ≠ "cwd" ∧ "args" ≠ "command" := by decide
  unfold snippetMembers
  cases svc.cwd <;> cases svc.env <;>
    simp only [OrderedMap.get_insert_eq_ite, OrderedMap.get_empty, Option.map_none,
      Option.map_some] <;> grind

/-- **A JSON entry describes the proxy.** -/
theorem raw_snippetEntry : rawServerOfJson (snippetEntry dir proxyCmd args svc) =
    some (snippeted dir proxyCmd args svc) := by
  have hstr : ∀ s, Value.asStr (.string s) = some s := fun _ => rfl
  have hget := @get_snippetMembers dir proxyCmd args svc
  have hcommand : jsonField Value.asStr ((snippetMembers dir proxyCmd args svc).get "command") =
      some (some proxyCmd) := by
    rw [hget]
    rfl
  have hargs : jsonField jsonStrings ((snippetMembers dir proxyCmd args svc).get "args") =
      some (some (proxyArgs args (socketOf dir svc))) := by
    simp [hget, jsonField, jsonStrings, mapM_map hstr]
  have hcwd : jsonField Value.asStr ((snippetMembers dir proxyCmd args svc).get "cwd") =
      some svc.cwd := by
    rw [hget]
    cases svc.cwd <;> rfl
  have hsocket : jsonField Value.asStr ((snippetMembers dir proxyCmd args svc).get "socket") =
      some none := by
    rw [hget]
    rfl
  have henv : jsonField jsonEnv ((snippetMembers dir proxyCmd args svc).get "env") =
      some svc.env := by
    cases henv : svc.env <;> simp [hget, henv, jsonField, jsonEnv, stringMap_mapValues hstr]
  have henabled : jsonField jsonBool ((snippetMembers dir proxyCmd args svc).get "enabled") =
      some none := by
    rw [hget]
    rfl
  simp only [rawServerOfJson, snippetEntry, Value.asObject_object, Option.bind_some, rawServerOf]
  rw [hcommand, hargs, hcwd, hsocket, henv, henabled]
  rfl

/-- `toml` takes an entry. -/
theorem takes_snippetMembers : Toml.Takes (snippetMembers dir proxyCmd args svc) := by
  intro key v hv
  rw [get_snippetMembers] at hv
  split_ifs at hv
  · obtain rfl := Option.some.inj hv
    rfl
  · obtain rfl := Option.some.inj hv
    rw [Toml.ofValue_strings]
    rfl
  · obtain ⟨cwd, -, rfl⟩ := Option.map_eq_some_iff.1 hv
    rfl
  · obtain ⟨env, -, rfl⟩ := Option.map_eq_some_iff.1 hv
    rw [Toml.ofValue_stringMap]
    rfl

/-- **What `toml` makes of it describes the proxy too.** -/
theorem ofValue_snippetEntry : ∃ t, Toml.ofValue (snippetEntry dir proxyCmd args svc) = some t ∧
    tomlRaw t = some (snippeted dir proxyCmd args svc) := by
  have hstr : ∀ s, tomlString (.string s) = some s := fun _ => rfl
  obtain ⟨m, hm, hget⟩ := (@takes_snippetMembers dir proxyCmd args svc).ofMembers
  simp only [get_snippetMembers] at hget
  refine ⟨.table m.entries, by rw [snippetEntry, Toml.ofValue, hm]; rfl, ?_⟩
  have hcommand : tomlField tomlString (m.get "command") = some (some proxyCmd) := by
    rw [hget]
    rfl
  have hargs : tomlField tomlStrings (m.get "args") =
      some (some (proxyArgs args (socketOf dir svc))) := by
    simp [hget, Toml.ofValue_strings, tomlField, tomlStrings, mapM_map hstr]
  have hcwd : tomlField tomlString (m.get "cwd") = some svc.cwd := by
    rw [hget]
    cases svc.cwd <;> rfl
  have hsocket : tomlField tomlString (m.get "socket") = some none := by
    rw [hget]
    rfl
  have henv : tomlField tomlEnv (m.get "env") = some svc.env := by
    cases henv : svc.env <;>
      simp [hget, henv, Toml.ofValue_stringMap, tomlField, tomlEnv, stringMap_mapValues hstr]
  have henabled : tomlField tomlBool (m.get "enabled") = some none := by
    rw [hget]
    rfl
  rw [tomlRaw, Toml.asTable_table, Option.bind_some, rawServerOfToml, hcommand, hargs, hcwd,
    hsocket, henv, henabled]
  rfl

end Entry

/-! ## The server map of one host -/

section OneHost

variable {host : HostFile} {services : List HostService} {dir proxyCmd : String}
  {args : List String}

/-- In one file a name is defined once. -/
theorem not_conflicting_single (hnodup : (services.map HostService.name).Nodup) (name : String) :
    ¬ Conflicting [⟨host, services⟩] name := by
  have hfound : ∀ v, v ∈ found [⟨host, services⟩] → v.2 ∈ services := by
    intro v hv
    obtain ⟨scan, hscan, -, hsvc⟩ := mem_found.1 hv
    obtain rfl := List.mem_singleton.1 hscan
    exact hsvc
  intro hconf
  obtain ⟨v, hv, u, hu, rfl, hname, hdiff⟩ := conflicting_iff.1 hconf
  have hsame : v.2 = u.2 := List.inj_on_of_nodup_map hnodup (hfound v hv) (hfound u hu) hname.symm
  rw [hsame, servicesEquivalent_refl] at hdiff
  cases hdiff

/-- **The merge of one scan** has the services of the scan. -/
theorem mem_merge_single {w : HostService} (hnodup : (services.map HostService.name).Nodup) :
    w ∈ (mergeServices [⟨host, services⟩]).services ↔ w ∈ services := by
  rw [mergeServices_services]
  constructor
  · intro hw
    rcases mem_named hw with ⟨v, hv, rfl⟩ | ⟨n, -, -, -, hconf, -⟩
    · have hmem : v ∈ definitions [⟨host, services⟩] v.2.name := hv ▸ List.mem_cons_self
      obtain ⟨scan, hscan, -, hsvc⟩ := mem_found.1 (name_of_mem_definitions hmem).1
      obtain rfl := List.mem_singleton.1 hscan
      exact hsvc
    · exact absurd hconf (not_conflicting_single hnodup n)
  · intro hw
    have hmem : (host, w) ∈ found [⟨host, services⟩] :=
      mem_found.2 ⟨_, List.mem_cons_self, rfl, hw⟩
    obtain ⟨v, hv, -⟩ := exists_mem_definitions hmem
    have hdef := name_of_mem_definitions hv
    obtain ⟨scan, hscan, -, hsvc⟩ := mem_found.1 hdef.1
    obtain rfl := List.mem_singleton.1 hscan
    have heq : v.2 = w := List.inj_on_of_nodup_map hnodup hsvc hw hdef.2
    rw [← heq] at hv ⊢
    exact mem_named_of_single hv (not_conflicting_single hnodup _)

theorem nodup_merge_single (hnodup : (services.map HostService.name).Nodup) :
    ((mergeServices [⟨host, services⟩]).services.map HostService.name).Nodup :=
  (nodup_names_iff _).2 fun _ name _ _ _ _ hconf =>
    absurd hconf (not_conflicting_single hnodup name)

/-- **The snippet of one host** has an entry for each service. -/
theorem get_snippetServers {svc : HostService} (hnodup : (services.map HostService.name).Nodup)
    (h : svc ∈ services) : (snippetServers [⟨host, services⟩] dir proxyCmd args).get svc.name =
      some (snippetEntry dir proxyCmd args svc) :=
  OrderedMap.get_insertAll_of_nodup (nodup_merge_single hnodup) ((mem_merge_single hnodup).2 h)

/-- And no other. -/
theorem get_snippetServers_of_notMem {name : String}
    (hnodup : (services.map HostService.name).Nodup) (h : name ∉ services.map HostService.name) :
    (snippetServers [⟨host, services⟩] dir proxyCmd args).get name = none := by
  rw [snippetServers, OrderedMap.get_insertAll_of_notMem, OrderedMap.get_empty]
  intro hmem
  obtain ⟨w, hw, rfl⟩ := List.mem_map.1 hmem
  exact h (List.mem_map_of_mem ((mem_merge_single hnodup).1 hw))

theorem takes_snippetServers (hnodup : (services.map HostService.name).Nodup) :
    Toml.Takes (snippetServers [⟨host, services⟩] dir proxyCmd args) := by
  intro name v hv
  by_cases hname : name ∈ services.map HostService.name
  · obtain ⟨svc, hsvc, rfl⟩ := List.mem_map.1 hname
    rw [get_snippetServers hnodup hsvc] at hv
    obtain rfl := Option.some.inj hv
    obtain ⟨t, ht, -⟩ := @ofValue_snippetEntry dir proxyCmd args svc
    rw [ht]
    rfl
  · rw [get_snippetServers_of_notMem hnodup hname] at hv
    cases hv

/-! ## What a scan finds in it -/

/-- **The services found run the proxy**, under the names they had. -/
structure AllProxied (proxyCmd : String) (before after : List HostService) : Prop where
  names : ∀ name, name ∈ after.map HostService.name ↔ name ∈ before.map HostService.name
  command : ∀ svc ∈ after, svc.command = proxyCmd

/-- A map with the entries of a snippet is scanned as the proxies. -/
theorem allProxied_servicesOf {α : Type} {read : α → Option RawServer} {m : OrderedMap String α}
    (hnone : ∀ name ∉ services.map HostService.name, m.get name = none)
    (hentry : ∀ svc ∈ services, ∃ v, m.get svc.name = some v ∧
      read v = some (snippeted dir proxyCmd args svc)) :
    AllProxied proxyCmd services (servicesOf read m.entries) := by
  have hfound : ∀ w ∈ servicesOf read m.entries, w.name ∈ services.map HostService.name ∧
      w.command = proxyCmd := by
    intro w hw
    obtain ⟨v, hv, hraw⟩ := mem_servicesOf.1 hw
    by_cases hname : w.name ∈ services.map HostService.name
    · obtain ⟨svc, hsvc, hn⟩ := List.mem_map.1 hname
      obtain ⟨v', hv', hread⟩ := hentry svc hsvc
      rw [← hn, hv'] at hv
      obtain rfl := Option.some.inj hv
      rw [hread] at hraw
      exact ⟨hname, congrArg HostService.command (Option.some.inj hraw).symm⟩
    · rw [hnone _ hname] at hv
      cases hv
  refine ⟨fun name => ⟨fun h => ?_, fun h => ?_⟩, fun w hw => (hfound w hw).2⟩
  · obtain ⟨w, hw, rfl⟩ := List.mem_map.1 h
    exact (hfound w hw).1
  · obtain ⟨svc, hsvc, rfl⟩ := List.mem_map.1 h
    obtain ⟨v, hv, hread⟩ := hentry svc hsvc
    obtain ⟨w, hw⟩ : ∃ w, (snippeted dir proxyCmd args svc).toHostService svc.name = some w :=
      ⟨_, rfl⟩
    have hname := name_of_toHostService hw
    rw [← hname] at hv hw ⊢
    exact List.mem_map_of_mem (mem_servicesOf.2 ⟨v, hv, by rw [hread]; exact hw⟩)

end OneHost

end Config

end VcOperator
