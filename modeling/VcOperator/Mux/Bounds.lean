import VcOperator.Mux.Helpers.Ids
import VcOperator.Mux.Helpers.Sound
import Mathlib.Order.Basic
/-!
# Bounds and ids

What holds of `MuxState` whatever its operations are and whoever calls
them: the table of pending requests never grows past its bound and no
entry of it is overwritten, the two maps of clients have the same keys,
and no id is issued twice.
-/

namespace VcOperator

namespace Mux

variable {sh sh' : Shared}

/-! ## The table of pending requests -/

theorem Shrinks.len_le (h : Shrinks sh sh') : sh'.st.pending.len ≤ sh.st.pending.len := by
  refine HashMap.len_le fun k hk => ?_
  obtain ⟨p, hp⟩ := Option.isSome_iff_exists.1 hk
  rw [h.pending k p hp]
  rfl

/-- An id is only issued below the bound, so its entry does not exceed it. -/
theorem Issues.len_le {c : ℕ} (h : Issues c sh sh') (hlen : sh.st.pending.len ≤ maxPending) :
    sh'.st.pending.len ≤ maxPending := by
  rcases h with h | ⟨h, hroom, rfl⟩
  · exact h.len_le.trans hlen
  · exact (HashMap.len_insert_le ..).trans hroom

/-- **No entry is replaced.** What stands under a key stays there, or goes. -/
def NoneReplaced (sh sh' : Shared) : Prop :=
  ∀ k p p', sh.st.pending.get k = some p → sh'.st.pending.get k = some p' → p' = p

theorem Shrinks.noneReplaced (h : Shrinks sh sh') : NoneReplaced sh sh' := by
  intro k p p' hp hp'
  have hsame := h.pending k p' hp'
  rw [hp, Option.some.injEq] at hsame
  exact hsame.symm

theorem Issues.noneReplaced {c : ℕ} (h : Issues c sh sh') (hk : sh.Keyed) :
    NoneReplaced sh sh' := by
  rcases h with h | ⟨h, hroom, rfl⟩
  · exact h.noneReplaced
  · rename_i sh₀ lid isInitialize
    intro k p p' hp hp'
    rcases eq_or_ne k (globalId c sh₀.st.nextGlobalId) with rfl | hne
    · -- the id that is issued is fresh, so it was no key
      rw [h.nextGlobalId, hk.fresh c] at hp
      cases hp
    · replace hp' : (sh₀.st.pending.insert (globalId c sh₀.st.nextGlobalId)
          ⟨c, lid, isInitialize, sh₀.now⟩).get k = some p' := hp'
      rw [HashMap.get_insert_ne hne] at hp'
      exact h.noneReplaced k p p' hp hp'

variable {cfg : Config} {ok : System → Label → Prop} {s s' : System} {l : Label}

theorem Routed.noneReplaced (h : Routed cfg s s') (hk : s.shared.Keyed) :
    NoneReplaced s.shared s'.shared := by
  obtain ⟨c, hissues⟩ := h.issues
  exact hissues.noneReplaced hk

/-- **The table of pending requests stays within its bound.** -/
theorem Reachable.pending_len_le (h : Reachable cfg ok s) :
    s.shared.st.pending.len ≤ maxPending := by
  refine h.invariant (I := fun s => s.shared.st.pending.len ≤ maxPending) (Nat.zero_le _) ?_
  intro s l s' _ hlen hstep
  obtain ⟨c, hissues⟩ := (routed_of_step hstep).issues
  exact hissues.len_le hlen

/-! ## The ids of the clients -/

/-- No step takes a client's id back. -/
theorem Routed.nextClientId_le (h : Routed cfg s s') (hs : s.Sound) :
    s.shared.st.nextClientId ≤ s'.shared.st.nextClientId := by
  rcases h.record hs with rfl | ⟨_, _, -, rfl⟩ | hrecord
  · exact Nat.le_succ _
  · exact le_refl _
  · exact hrecord.nextClientId.ge

/-- **An id that was issued stays below the next one**, in every run that goes on from there. -/
theorem nextClientId_le_of_reach {t : System} (hs : s.Sound)
    (h : Run.Reach (System.step cfg) Run.Any s t) :
    s.shared.st.nextClientId ≤ t.shared.st.nextClientId := by
  have hboth : t.Sound ∧ s.shared.st.nextClientId ≤ t.shared.st.nextClientId := by
    refine h.invariant (I := fun t => t.Sound ∧ s.shared.st.nextClientId ≤ t.shared.st.nextClientId)
      ⟨hs, le_refl _⟩ ?_
    intro t l t' _ ht hstep
    have hrouted := routed_of_step hstep
    exact ⟨hrouted.sound ht.1, ht.2.trans (hrouted.nextClientId_le ht.1)⟩
  exact hboth.2

/-- **Bounds and id discipline.** In every reachable state `pending` is
within its bound, its keys are ids that were issued, no step replaces an
entry, and the id that is issued next is none of its keys. The two maps
of clients have the same keys; and a client's id, once issued, is below
the next one for ever. -/
theorem resources_bounded (cfg : Config) (s : System) (h : Reachable cfg Run.Any s) :
    s.shared.st.pending.len ≤ maxPending ∧
    (∀ k p, s.shared.st.pending.get k = some p →
      ∃ n, k = globalId p.clientId n ∧ n < s.shared.st.nextGlobalId) ∧
    (∀ l s', s.step cfg l = some s' → NoneReplaced s.shared s'.shared) ∧
    (∀ c, s.shared.st.pending.get (globalId c s.shared.st.nextGlobalId) = none) ∧
    (∀ c, c ∈ s.shared.st.clients ↔ (s.shared.st.clientHandshakes.get c).isSome) ∧
    ∀ s', s.step cfg .connect = some s' → s.shared.st.nextClientId ∈ s'.shared.st.clients ∧
      ∀ t, Run.Reach (System.step cfg) Run.Any s' t →
        s.shared.st.nextClientId < t.shared.st.nextClientId := by
  have hs := Reachable.sound h
  have hk := Reachable.keyed h
  refine ⟨Reachable.pending_len_le h, fun k p hp => ?_, fun l s' hstep => ?_, fun c => hk.fresh c,
    hs.shared.handshake, fun s' hstep => ?_⟩
  · obtain ⟨i, hi, hid, hclient, -⟩ := hk.pending k p hp
    exact ⟨i.n, by rw [hid, hclient], hk.below i hi⟩
  · exact (routed_of_step hstep).noneReplaced hk
  · cases stepped_of_step hstep with
    | connect =>
      refine ⟨List.mem_insert_self, fun t ht => ?_⟩
      have hs' : s.connect.Sound := hs.connect
      exact Nat.lt_of_lt_of_le (Nat.lt_succ_self _) (nextClientId_le_of_reach hs' ht)

/-- Two clients connect, and one of them sends its `initialize`. -/
def askedRun : List Label :=
  [.connect, .handler 1, .connect, .handler 2,
    .receive 1 (.object [("id", .number (.posInt 7)), ("method", .string "initialize")]),
    .handler 1, .handler 1]

/-- One entry is pending there, within the bound, and the next id is free. -/
theorem resources_bounded_askedRun :
    (Config.small.after askedRun).shared.st.pending.keys = ["c1:1"] ∧
      (Config.small.after askedRun).shared.st.pending.len ≤ maxPending ∧
      ∀ c, (Config.small.after askedRun).shared.st.pending.get
        (globalId c (Config.small.after askedRun).shared.st.nextGlobalId) = none := by
  have hruns : Config.small.runs askedRun = true := by decide +kernel
  have hreach := Config.small.reachable_after hruns
  obtain ⟨hlen, -, -, hfresh, -⟩ := resources_bounded .small _ hreach
  exact ⟨by decide +kernel, hlen, hfresh⟩

end Mux

end VcOperator
