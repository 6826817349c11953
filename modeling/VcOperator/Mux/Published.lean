import Mathlib.Data.Set.Card
import VcOperator.Mux.Cleanup
import VcOperator.Mux.Helpers.Publishing
/-!
# What the snapshots say of the clients

The semaphore counts the calls of `handle_client`: its free permits and the
calls that run are as many as the mux has seats, however a call ends. So
the active clients of a snapshot are the calls that run when it is taken.
-/

namespace VcOperator

namespace Mux

variable {cfg : Config} {ok : System → Label → Prop} {s s' : System} {l : Label}

/-- The calls of `handle_client` that run. -/
noncomputable def System.running (s : System) : ℕ := {c | s.Holds c}.ncard

/-- **A snapshot keeps to the bounds** of its mux. -/
structure StatusSnapshot.Bounded (cfg : Config) (snapshot : StatusSnapshot) : Prop where
  serviceName : snapshot.serviceName = cfg.state.serviceName
  maxActiveClients : snapshot.maxActiveClients = cfg.state.maxActiveClients
  active_le : snapshot.activeClients ≤ cfg.state.maxActiveClients
  pending_le : snapshot.pendingRequests ≤ maxPending
  maxRestarts : snapshot.maxRestarts = cfg.state.maxRestarts

/-- **No permit is lost.** -/
theorem Reachable.running_add_permits (h : Reachable cfg ok s) :
    s.running + s.shared.availablePermits = cfg.state.maxActiveClients := by
  obtain ⟨holders, hnodup, hmem, -, hcount⟩ := (Reachable.seated h).permits
  have hset : {c | s.Holds c} = (holders.toFinset : Set ℕ) := by
    ext c
    simp [hmem]
  rw [System.running, hset, Set.ncard_coe_finset, List.toFinset_card_of_nodup hnodup]
  exact hcount

/-- The snapshot of a reachable state. -/
theorem Reachable.snapshot_eq (h : Reachable cfg ok s) :
    snapshotForState s.shared.st s.shared.now
        (s.shared.st.maxActiveClients - s.shared.availablePermits) =
      snapshotForState s.shared.st s.shared.now s.running := by
  have hpermits := h.running_add_permits
  have hmax : s.shared.st.maxActiveClients = cfg.state.maxActiveClients :=
    congrArg Settings.maxActiveClients h.settings_eq
  have hactive : s.shared.st.maxActiveClients - s.shared.availablePermits = s.running := by
    omega
  rw [hactive]

theorem Reachable.bounded_snapshot (h : Reachable cfg ok s) :
    (snapshotForState s.shared.st s.shared.now s.running).Bounded cfg where
  serviceName := congrArg Settings.serviceName h.settings_eq
  maxActiveClients := congrArg Settings.maxActiveClients h.settings_eq
  active_le := by
    have hpermits := h.running_add_permits
    show s.running ≤ _
    omega
  pending_le := Reachable.pending_len_le h
  maxRestarts := congrArg Settings.maxRestarts h.settings_eq

/-- What a step publishes. -/
theorem Reachable.published_step (h : Reachable cfg ok s) (hstep : s.step cfg l = some s') :
    s'.shared.published = s.shared.published ∨ s'.shared.published =
      s.shared.published ++ [snapshotForState s.shared.st s.shared.now s.running] := by
  cases (stepped_of_step hstep).publishes with
  | aside hpublished => exact .inl hpublished
  | snapshot heq =>
    right
    rw [heq, Shared.publishStatus, h.snapshot_eq]

/-- **Snapshots count the clients exactly.** In every reachable state the calls of
`handle_client` that run and the free permits are as many as `max_active_clients`; a snapshot is
published with the number of those calls; and all that were published keep to the bounds. -/
theorem snapshots_exact (h : Reachable cfg ok s) :
    s.running + s.shared.availablePermits = cfg.state.maxActiveClients ∧
      (∀ l s', s.step cfg l = some s' → s'.shared.published = s.shared.published ∨
        s'.shared.published =
          s.shared.published ++ [snapshotForState s.shared.st s.shared.now s.running]) ∧
      ∀ snapshot ∈ s.shared.published, snapshot.Bounded cfg := by
  refine ⟨h.running_add_permits, fun l s' hstep => h.published_step hstep, ?_⟩
  refine h.invariant_of (I := fun s => ∀ snapshot ∈ s.shared.published, snapshot.Bounded cfg)
    (J := Reachable cfg ok) (fun _ hr => hr) (fun _ hmem => absurd hmem List.not_mem_nil) ?_
  intro s l s' _ hr hs hstep snapshot hmem
  rcases hr.published_step hstep with heq | heq
  · exact hs snapshot (heq ▸ hmem)
  · rw [heq, List.mem_append, List.mem_singleton] at hmem
    rcases hmem with hmem | rfl
    · exact hs snapshot hmem
    · exact hr.bounded_snapshot

/-- A client connects to a mux with four seats. -/
theorem snapshots_exact_handshakeRun :
    (Config.small.after handshakeRun).running = 1 := by
  have hruns : Config.small.runs handshakeRun = true := by decide +kernel
  have hpermits : (Config.small.after handshakeRun).shared.availablePermits = 3 := by
    decide +kernel
  have hsum := (snapshots_exact (Config.small.reachable_after hruns)).1
  rw [hpermits] at hsum
  exact Nat.add_right_cancel hsum

end Mux

end VcOperator
