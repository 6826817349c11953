import VcOperator.Config.Helpers.Merge
import VcOperator.Config.Model.Generate
/-!
# Are the names of the merged services distinct?

`merge_services` keeps a name whose definitions all agree, and asks
`ensure_unique` only for the names it gives the variants of a conflict.
Names are taken in order, so the conflict comes first: where the kept
name is itself one the conflict gave, both are in the outcome, and the
maps keyed by name that are built from it lose a service.
-/

namespace VcOperator

namespace Config

/-- No name whose definitions all agree is one of the names a conflict gives: not
`<name>-from-<kind>` for a conflicting name with a definition first found by
a client of that kind, nor `<name>-from-<kind>-<i>` for `i` up to the number
of those. -/
def NoneReused (scans : List ScanResult) : Prop :=
  ∀ s name kind i, (∃ v ∈ found scans, v.2.name = s) → ¬ Conflicting scans s →
    Conflicting scans name → i < (variantsOf scans name kind).length →
      s ≠ variantName name kind i

/-- **The merged names are distinct exactly where none is reused.** -/
theorem nodup_names_iff (scans : List ScanResult) :
    ((mergeServices scans).services.map HostService.name).Nodup ↔ NoneReused scans := by
  rw [mergeServices_services, named, List.map_flatMap, List.nodup_flatMap]
  constructor
  · rintro ⟨-, hdisj⟩ s name kind i hs hsingle hconf hi heq
    have hsk : s ∈ (byName scans).keys := mem_keys_byName.2 hs
    have hne : s ≠ name := fun h => hsingle (h ▸ hconf)
    have hsym : Std.Symm (Function.onFun List.Disjoint fun n =>
        (outcome n (definitions scans n)).map HostService.name) := ⟨fun _ _ h => h.symm⟩
    have hapart := hdisj.forall hsk (mem_keys_of_conflicting hconf) hne
    have hkept : s ∈ (outcome s (definitions scans s)).map HostService.name := by
      rw [names_of_not_conflicting hsk hsingle]
      exact List.mem_cons_self
    exact hapart hkept ((mem_names_of_conflicting hconf).2 ⟨kind, i, hi, heq⟩)
  · intro h
    refine ⟨fun n hn => ?_, (OrderedMap.sorted_keys _).imp_of_mem ?_⟩
    · by_cases hconf : Conflicting scans n
      · rw [outcome_of_conflicting hconf]
        exact nodup_names_renamed n [] _
      · rw [names_of_not_conflicting hn hconf]
        exact List.nodup_singleton n
    · intro a b ha hb hab x hxa hxb
      simp only at hxa hxb
      -- a name of each of two groups: kept or given, on either side
      by_cases hca : Conflicting scans a <;> by_cases hcb : Conflicting scans b
      · obtain ⟨_, _, -, rfl⟩ := (mem_names_of_conflicting hca).1 hxa
        obtain ⟨_, _, -, heq⟩ := (mem_names_of_conflicting hcb).1 hxb
        exact hab.ne (variantName_injective heq).1
      · obtain ⟨kind, i, hi, rfl⟩ := (mem_names_of_conflicting hca).1 hxa
        rw [names_of_not_conflicting hb hcb, List.mem_singleton] at hxb
        exact h b a kind i (mem_keys_byName.1 hb) hcb hca hi hxb.symm
      · obtain ⟨kind, i, hi, rfl⟩ := (mem_names_of_conflicting hcb).1 hxb
        rw [names_of_not_conflicting ha hca, List.mem_singleton] at hxa
        exact h a b kind i (mem_keys_byName.1 ha) hca hcb hi hxa.symm
      · rw [names_of_not_conflicting ha hca, List.mem_singleton] at hxa
        rw [names_of_not_conflicting hb hcb, List.mem_singleton] at hxb
        exact hab.ne (hxa.symm.trans hxb)

/-- The names of the merged services are pairwise distinct, and the maps built
from them hold an entry for each. -/
structure KeepsAll (scans : List ScanResult) (socketDir proxyCmd : String)
    (args : List String) : Prop where
  distinct : ((mergeServices scans).services.map HostService.name).Nodup
  daemon : (buildDaemonConfig (mergeServices scans).services socketDir).servers.len =
    (mergeServices scans).services.length
  json : (buildClientJson (mergeServices scans).services socketDir proxyCmd args).mcpServers.len =
    (mergeServices scans).services.length
  toml : (buildClientToml (mergeServices scans).services socketDir proxyCmd args).mcpServers.len =
    (mergeServices scans).services.length

/-- **The merge loses no service exactly where no name is reused**: for every list
of scans, the merged services have pairwise distinct names, and the daemon
config and the client files built from them hold every one of them, if and
only if no name whose definitions agree is a name that a conflict gives. -/
theorem keepsAll_iff (scans : List ScanResult) (socketDir proxyCmd : String)
    (args : List String) : KeepsAll scans socketDir proxyCmd args ↔ NoneReused scans := by
  rw [← nodup_names_iff]
  refine ⟨KeepsAll.distinct, fun h => ⟨h, ?_, ?_, ?_⟩⟩
  · exact HashMap.len_fill_eq_length_iff.2 h
  · exact HashMap.len_fill_eq_length_iff.2 h
  · exact HashMap.len_fill_eq_length_iff.2 h

/-- A client's own config file, for the examples. -/
def sampleHost (kind : HostKind) (fileName : String) : HostFile where
  kind := kind
  path := ⟨"/home/u", some fileName⟩
  format := .json
  schema := .mcpServersJson
  eligibleForDanger := true

/-- A service without arguments, for the examples. -/
def sampleService (name command : String) : HostService where
  name := name
  command := command
  args := []
  cwd := none
  socket := none
  env := none
  enabled := none

/-- Claude and Codex define `memory` differently, and Claude has a server called
`memory-from-claude`. -/
def reusingScans : List ScanResult :=
  [⟨sampleHost .claude ".claude.json",
      [sampleService "memory" "npx", sampleService "memory-from-claude" "node"]⟩,
    ⟨sampleHost .codex "config.toml", [sampleService "memory" "uvx"]⟩]

/-- **Three services, two names**: the merge of `reusingScans` has the name
`memory-from-claude` twice. -/
theorem not_keepsAll_reusingScans :
    ¬ ∀ (scans : List ScanResult) (socketDir proxyCmd : String) (args : List String),
      KeepsAll scans socketDir proxyCmd args := by
  intro h
  have hdistinct := (h reusingScans "/home/u/.config/mux/sockets" "rust-mux-proxy" []).distinct
  exact absurd hdistinct (by decide +kernel)

end Config

end VcOperator
