import VcOperator.Mux.Helpers.Apart
import VcOperator.Mux.Helpers.ManagerMoves
/-!
# The probes of the heartbeat inspector

The inspector is one task. While it waits for the answer to a probe it
takes no event of `heartbeat_rx`, and the answer comes as such an event:
so every wait ends on its timeout, whatever the child does.
`credited_iff_none_concluded` counts them. Each probe that is concluded
is a failure, none is ever a success, and a run credits its probes when
it has concluded none of them.
-/

namespace VcOperator

namespace Mux

variable {cfg : Config} {ok : System → Label → Prop} {s s' : System} {l : Label}

/-! ## The turn of the inspector -/

namespace HeartbeatOp

/-- **Where the inspector is with its probes.** Only the probe in hand is
pending, and every one before it has failed. -/
inductive Turn (hb : HeartbeatState) : List HeartbeatOp → Prop
  | settled {ops : List HeartbeatOp} (hpending : ∀ id, hb.pending.get id = none)
      (hnext : hb.nextHeartbeatId = hb.metrics.totalFailures + 1)
      (hops : ops = [.probe] ∨ ops <:+ conclude)
      (hfailed : .checkRestart ∈ ops → 0 < hb.metrics.totalFailures) : Turn hb ops
  | asks {n t : ℕ} (hpending : ∀ id, id ≠ heartbeatId n → hb.pending.get id = none)
      (hnext : hb.nextHeartbeatId = hb.metrics.totalFailures + 2) : Turn hb [.sendProbe n t]
  | waits {n t d : ℕ} (hpending : ∀ id, id ≠ heartbeatId n → hb.pending.get id = none)
      (hnext : hb.nextHeartbeatId = hb.metrics.totalFailures + 2) :
      Turn hb [.awaitResponse n t d]

/-- The operation concludes its probe. -/
def endsProbe (sh : Shared) : HeartbeatOp → Bool
  | awaitResponse _ _ _ => true
  | sendProbe _ _ => !sh.toServerOpen
  | _ => false

variable {hb hb' : HeartbeatState} {sh sh' : Shared} {op : HeartbeatOp}
  {rest ops : List HeartbeatOp}

/-- A probe that has failed leaves the inspector settled. -/
theorem turn_recordFailure {n : ℕ} (hpending : ∀ id, id ≠ heartbeatId n → hb.pending.get id = none)
    (hnext : hb.nextHeartbeatId = hb.metrics.totalFailures + 2) :
    Turn { hb with pending := hb.pending.remove (heartbeatId n) }.recordFailure conclude := by
  refine .settled (fun id => ?_) hnext (.inr List.suffix_rfl) fun _ => Nat.succ_pos _
  by_cases hid : id = heartbeatId n
  · rw [hid]
    exact HashMap.get_remove ..
  · exact (HashMap.get_remove_ne hid).trans (hpending id hid)

/-- **What an operation of the inspector does to its metrics**: it counts a
failure where it concludes a probe, and nothing else. -/
structure Counted (hb : HeartbeatState) (sh : Shared) (op : HeartbeatOp) (hb' : HeartbeatState) :
    Prop where
  config : hb'.config = hb.config
  fired : hb'.fired = hb.fired
  success : hb'.metrics.totalSuccess = hb.metrics.totalSuccess
  failures : hb'.metrics.totalFailures = hb.metrics.totalFailures + (op.endsProbe sh).toNat
  consecutive : hb'.metrics.consecutiveFailures =
    hb.metrics.consecutiveFailures + (op.endsProbe sh).toNat

theorem counted_run (h : op.run hb sh = some (hb', sh', ops)) (hfired : hb.fired = []) :
    Counted hb sh op hb' := by
  cases op with
  | probe =>
    simp only [run] at h
    split at h <;> cases h <;> exact ⟨rfl, rfl, rfl, rfl, rfl⟩
  | sendProbe n t =>
    simp only [run] at h
    split at h
    · rename_i hclosed
      cases h
      exact ⟨rfl, rfl, rfl, by simp [endsProbe, hclosed]; rfl, by simp [endsProbe, hclosed]; rfl⟩
    · rename_i hopen
      split at h <;> cases h
      exact ⟨rfl, rfl, rfl, by simp [endsProbe, hopen], by simp [endsProbe, hopen]⟩
  | awaitResponse n t d =>
    -- the inspector itself would have to take the event that tells it
    simp only [run, hfired, List.not_mem_nil, if_false] at h
    split at h <;> cases h
    exact ⟨rfl, hfired.symm, rfl, rfl, rfl⟩
  | checkRestart =>
    simp only [run] at h
    split at h <;> cases h <;> exact ⟨rfl, rfl, rfl, rfl, rfl⟩
  | updateStateMetrics | publishStatus => cases h; exact ⟨rfl, rfl, rfl, rfl, rfl⟩

theorem Turn.run (h : op.run hb sh = some (hb', sh', ops)) (hfired : hb.fired = [])
    (hturn : Turn hb (op :: rest)) : Turn hb' (ops ++ rest) := by
  cases hturn with
  | settled hpending hnext hops hfailed =>
    rcases hops with hprobe | hconclude
    · cases hprobe
      simp only [HeartbeatOp.run] at h
      split at h <;> cases h
      · refine .asks (fun id hid => ?_) (congrArg (· + 1) hnext)
        exact (HashMap.get_insert_ne hid _).trans (hpending id)
      · exact .settled hpending hnext (.inr (List.nil_suffix ..))
          fun hop => absurd hop List.not_mem_nil
    · -- what concludes a probe leaves the inspector's own state alone
      have hsame : hb' = hb ∧ ops = [] := by
        have hop : op ∈ conclude := hconclude.subset (List.mem_cons_self ..)
        simp only [conclude, List.mem_cons, List.not_mem_nil, or_false] at hop
        rcases hop with rfl | rfl | rfl
        · cases h; exact ⟨rfl, rfl⟩
        · cases h; exact ⟨rfl, rfl⟩
        · simp only [HeartbeatOp.run] at h
          split at h <;> cases h <;> exact ⟨rfl, rfl⟩
      obtain ⟨rfl, rfl⟩ := hsame
      exact .settled hpending hnext (.inr ((List.suffix_cons op rest).trans hconclude))
        fun hop => hfailed (List.mem_cons_of_mem _ hop)
  | @asks n t hpending hnext =>
    simp only [HeartbeatOp.run] at h
    split at h
    · cases h
      exact turn_recordFailure hpending hnext
    · split at h <;> cases h
      exact .waits hpending hnext
  | @waits n t d hpending hnext =>
    simp only [HeartbeatOp.run, hfired, List.not_mem_nil, if_false] at h
    split at h <;> cases h
    rw [← hfired]
    exact turn_recordFailure hpending hnext

/-- Between its turns the inspector has no probe pending, so an event tells
it nothing. -/
theorem Turn.handleEvent (hturn : Turn hb []) (id : String) : handleEvent hb id = hb := by
  cases hturn with
  | settled hpending => rw [HeartbeatOp.handleEvent, hpending id]

end HeartbeatOp

/-! ## Every probe that is concluded has failed -/

/-- **The inspector's books.** -/
structure System.Probing (cfg : Config) (s : System) : Prop where
  config : s.inspector.config = cfg.heartbeat
  fired : s.inspector.fired = []
  success : s.inspector.metrics.totalSuccess = 0
  consecutive : s.inspector.metrics.consecutiveFailures = s.inspector.metrics.totalFailures
  turn : HeartbeatOp.Turn s.inspector s.heartbeat
  restarts : s.shared.restartRx ≠ [] → 0 < s.inspector.metrics.totalFailures

/-- The step concludes a probe of the inspector: the wait for its answer
ends, or it cannot be sent. -/
def System.concludesProbe (s : System) : Label → Bool
  | .heartbeat =>
    match s.heartbeat with
    | op :: _ => op.endsProbe s.shared
    | [] => false
  | _ => false

/-- The restart signals are left alone by all but the inspector and the manager. -/
theorem Stepped.restartRx_eq (h : Stepped cfg s l s') (hl : l ≠ .heartbeat)
    (hl' : ∀ choice, l ≠ .manager choice) : s'.shared.restartRx = s.shared.restartRx := by
  cases h with
  | heartbeat => exact absurd rfl hl
  | manager => exact absurd rfl (hl' _)
  | handler hops hrun | writer hops hrun => exact (ClientOp.apart_run hrun).restartRx
  | @routerTurn event rest => exact (apart_dispatch event rest s.shared).restartRx
  | router hops hrun => exact (RouterOp.apart_run hrun).restartRx
  | reaper hops hrun => exact (ReaperOp.apart_run hrun).restartRx
  | connect | receive | disconnect | decodeError | handshakeTimeout | handshakeTick
  | writerFails | reaperTick | heartbeatTick | heartbeatEvent | childOutput | readerEnds
  | childExits | shutdown | elapse => rfl

/-- The other tasks ask for no restart. -/
theorem Stepped.restartRx (h : Stepped cfg s l s') (hl : l ≠ .heartbeat) :
    s'.shared.restartRx ⊆ s.shared.restartRx := by
  by_cases hl' : ∃ choice, l = .manager choice
  · obtain ⟨choice, rfl⟩ := hl'
    cases h with
    | manager hops hlock hrun => exact (ManagerOp.moved_run hrun).restartRx
  · rw [h.restartRx_eq hl fun choice heq => hl' ⟨choice, heq⟩]
    exact List.Subset.refl _

/-- An operation of the inspector asks for a restart only after a failure. -/
theorem HeartbeatOp.restartRx_run {hb hb' : HeartbeatState} {sh sh' : Shared} {op : HeartbeatOp}
    {ops : List HeartbeatOp} (h : op.run hb sh = some (hb', sh', ops)) :
    sh'.restartRx = sh.restartRx ∨
      op = .checkRestart ∧ sh'.restartRx = sh.restartRx ++ [restartReason hb] := by
  cases op with
  | checkRestart =>
    simp only [run] at h
    split at h <;> cases h
    · exact .inr ⟨rfl, rfl⟩
    · exact .inl rfl
  | probe =>
    simp only [run] at h
    split at h <;> cases h <;> exact .inl rfl
  | sendProbe n t | awaitResponse n t d =>
    simp only [run] at h
    split at h
    · cases h; exact .inl rfl
    · split at h <;> cases h
      exact .inl rfl
  | updateStateMetrics | publishStatus => cases h; exact .inl rfl

/-- A step that is not the inspector's, but for the beginning of a turn. -/
theorem Stepped.inspector_cases (h : Stepped cfg s l s') :
    (∃ op rest ops, l = .heartbeat ∧ s.heartbeat = op :: rest ∧ s'.heartbeat = ops ++ rest ∧
      op.run s.inspector s.shared = some (s'.inspector, s'.shared, ops)) ∨
    l ≠ .heartbeat ∧ (s'.inspector = s.inspector ∧ s'.heartbeat = s.heartbeat ∨
      s.heartbeat = [] ∧ (s'.inspector = s.inspector ∧ s'.heartbeat = [.probe] ∨
        s'.heartbeat = [] ∧ ∃ id, s'.inspector = HeartbeatOp.handleEvent s.inspector id)) := by
  cases h with
  | heartbeat hops hrun => exact .inl ⟨_, _, _, rfl, hops, rfl, hrun⟩
  | heartbeatTick hidle => exact .inr ⟨nofun, .inr ⟨hidle, .inl ⟨rfl, rfl⟩⟩⟩
  | @heartbeatEvent id rest hidle hevents =>
    exact .inr ⟨nofun, .inr ⟨hidle, .inr ⟨hidle, id, rfl⟩⟩⟩
  | connect | receive | disconnect | decodeError | handshakeTimeout | handshakeTick
  | writerFails | handler | writer | routerTurn | router | reaperTick | reaper | manager
  | childOutput | readerEnds | childExits | shutdown | elapse =>
    exact .inr ⟨nofun, .inl ⟨rfl, rfl⟩⟩

theorem System.concludesProbe_of_ne (hl : l ≠ .heartbeat) : s.concludesProbe l = false := by
  cases l <;> first | rfl | exact absurd rfl hl

theorem HeartbeatOp.Turn.start {hb : HeartbeatState} (hturn : Turn hb []) : Turn hb [.probe] := by
  cases hturn with
  | settled hpending hnext => exact .settled hpending hnext (.inl rfl) (by simp)

theorem Stepped.probing (h : Stepped cfg s l s') (hs : s.Probing cfg) : s'.Probing cfg := by
  rcases h.inspector_cases with ⟨op, rest, ops, rfl, hops, hops', hrun⟩ | ⟨hl, hcases⟩
  · have hturn : HeartbeatOp.Turn s.inspector (op :: rest) := hops ▸ hs.turn
    obtain ⟨hconfig, hfired, hsuccess, hfailures, hconsecutive⟩ :=
      HeartbeatOp.counted_run hrun hs.fired
    refine ⟨hconfig.trans hs.config, hfired.trans hs.fired, hsuccess.trans hs.success, ?_,
      hops' ▸ hturn.run hrun hs.fired, fun hne => ?_⟩
    · rw [hconsecutive, hfailures, hs.consecutive]
    · have hbefore : 0 < s.inspector.metrics.totalFailures := by
        rcases HeartbeatOp.restartRx_run hrun with hsame | ⟨rfl, -⟩
        · exact hs.restarts (hsame ▸ hne)
        · cases hturn with
          | settled _ _ _ hfailed => exact hfailed (List.mem_cons_self ..)
      omega
  · have hsub := h.restartRx hl
    have hrestarts : s'.shared.restartRx ≠ [] → 0 < s.inspector.metrics.totalFailures := by
      intro hne
      refine hs.restarts fun hnil => hne ?_
      rw [hnil] at hsub
      exact List.eq_nil_of_subset_nil hsub
    rcases hcases with ⟨hinspector, hops'⟩ | ⟨hidle, ⟨hinspector, hops'⟩ | ⟨hops', id, hinspector⟩⟩
    · rw [← hinspector] at hrestarts
      exact ⟨hinspector ▸ hs.config, hinspector ▸ hs.fired, hinspector ▸ hs.success,
        hinspector ▸ hs.consecutive, hinspector ▸ hops' ▸ hs.turn, hrestarts⟩
    · rw [← hinspector] at hrestarts
      have hturn := hs.turn
      rw [hidle] at hturn
      exact ⟨hinspector ▸ hs.config, hinspector ▸ hs.fired, hinspector ▸ hs.success,
        hinspector ▸ hs.consecutive, hinspector ▸ hops' ▸ hturn.start, hrestarts⟩
    · have hturn := hs.turn
      rw [hidle] at hturn
      have hsame : s'.inspector = s.inspector := hinspector.trans (hturn.handleEvent id)
      rw [← hsame] at hrestarts
      exact ⟨hsame ▸ hs.config, hsame ▸ hs.fired, hsame ▸ hs.success, hsame ▸ hs.consecutive,
        hsame ▸ hops' ▸ hturn, hrestarts⟩

/-- A step counts a failure where it concludes a probe, and only there. -/
theorem Stepped.totalFailures (h : Stepped cfg s l s') (hs : s.Probing cfg) :
    s'.inspector.metrics.totalFailures =
      s.inspector.metrics.totalFailures + (s.concludesProbe l).toNat := by
  rcases h.inspector_cases with ⟨op, rest, ops, rfl, hops, -, hrun⟩ | ⟨hl, hcases⟩
  · rw [(HeartbeatOp.counted_run hrun hs.fired).failures, System.concludesProbe, hops]
  · rw [System.concludesProbe_of_ne hl, Bool.toNat_false, Nat.add_zero]
    rcases hcases with ⟨hinspector, -⟩ | ⟨hidle, ⟨hinspector, -⟩ | ⟨-, id, hinspector⟩⟩
    · rw [hinspector]
    · rw [hinspector]
    · have hturn := hs.turn
      rw [hidle] at hturn
      rw [hinspector, hturn.handleEvent id]

theorem probing_init (cfg : Config) : (System.init cfg).Probing cfg where
  config := rfl
  fired := rfl
  success := rfl
  consecutive := rfl
  turn := .settled (fun _ => HashMap.get_empty _) rfl (.inr (List.nil_suffix ..)) nofun
  restarts := fun hne => absurd rfl hne

/-! ## What a run credits -/

/-- A probe of the inspector is not concluded yet. -/
def System.probeInHand (s : System) : Bool :=
  match s.heartbeat with
  | .sendProbe _ _ :: _ | .awaitResponse _ _ _ :: _ => true
  | _ => false

/-- **Every probe is credited**: of the ids issued so far, each but the one
in hand was recorded a success; no failure was, and no restart is asked for. -/
structure System.Credited (s : System) : Prop where
  success : s.inspector.metrics.totalSuccess + s.probeInHand.toNat + 1 =
    s.inspector.nextHeartbeatId
  noFailure : s.inspector.metrics.totalFailures = 0
  noRestart : s.shared.restartRx = []

/-- The probes are credited as long as none has failed. -/
theorem System.Probing.credited_iff (hs : s.Probing cfg) :
    s.Credited ↔ s.inspector.metrics.totalFailures = 0 := by
  constructor
  · exact fun h => h.noFailure
  · intro hnone
    refine ⟨?_, hnone, ?_⟩
    · have hturn := hs.turn
      rw [hs.success]
      generalize hops : s.heartbeat = ops at hturn
      cases hturn with
      | settled _ hnext hsettled _ =>
        have hhand : s.probeInHand = false := by
          rw [System.probeInHand, hops]
          split
          · rcases hsettled with h | h
            · cases h
            · have hmem := h.subset (List.mem_cons_self ..)
              simp [HeartbeatOp.conclude] at hmem
          · rcases hsettled with h | h
            · cases h
            · have hmem := h.subset (List.mem_cons_self ..)
              simp [HeartbeatOp.conclude] at hmem
          · rfl
        rw [hhand, hnext, hnone]
        rfl
      | asks _ hnext | waits _ hnext => rw [System.probeInHand, hops, hnext, hnone]; rfl
    · by_contra hne
      have hfailed := hs.restarts hne
      omega

/-- **A run credits its probes when it has concluded none.** Whatever the
child answers, and when: none of the probes is ever a success, and the
failures the inspector counts in a row are all the probes it has concluded. -/
theorem credited_iff_none_concluded (cfg : Config) (ls : List Label) (s : System)
    (h : Run.exec (System.step cfg) (System.init cfg) ls = some s) :
    (s.Credited ↔
      Run.count (System.step cfg) System.concludesProbe (System.init cfg) ls = 0) ∧
    s.inspector.metrics.totalSuccess = 0 ∧
    s.inspector.metrics.consecutiveFailures =
      Run.count (System.step cfg) System.concludesProbe (System.init cfg) ls := by
  have hs : s.Probing cfg :=
    (Run.reach_of_exec h .init).invariant (probing_init cfg)
      fun _ _ _ _ hs hstep => (stepped_of_step hstep).probing hs
  have hcount : s.inspector.metrics.totalFailures =
      Run.count (System.step cfg) System.concludesProbe (System.init cfg) ls := by
    have hcounter := Run.counter System.concludesProbe (fun s => s.Probing cfg)
      (fun s => s.inspector.metrics.totalFailures)
      (fun _ _ _ hs hstep => (stepped_of_step hstep).probing hs)
      (fun _ _ _ hs hstep => (stepped_of_step hstep).totalFailures hs) (probing_init cfg) h
    exact hcounter.trans (Nat.zero_add _)
  exact ⟨hcount ▸ hs.credited_iff, hs.success, hs.consecutive.trans hcount⟩

/-- The first probe is sent, and the inspector waits for its answer. -/
def probeRun : List Label :=
  startRun ++ handshakeRun ++ [Label.heartbeatTick, .heartbeat, .heartbeat]

/-- The run up to there credits its probes. -/
theorem credited_iff_none_concluded_probeRun :
    (Config.small.after probeRun).probeInHand = true ∧ (Config.small.after probeRun).Credited := by
  have hruns : Config.small.runs probeRun = true := by decide +kernel
  have hcount : Run.count (System.step .small) System.concludesProbe (System.init .small)
      probeRun = 0 := by decide +kernel
  exact ⟨by decide +kernel, (credited_iff_none_concluded .small probeRun _
    (Config.small.exec_eq_after hruns)).1.2 hcount⟩

/-- **The condition of a healthy run**: the deadline of a probe passes only
when its answer has come, and the router has passed it on. -/
def System.answersInTime (s : System) : Label → Bool
  | .elapse ms =>
    match s.heartbeat with
    | .awaitResponse n _ deadline :: _ =>
      decide (s.shared.now + ms < deadline) || decide (heartbeatId n ∈ s.shared.heartbeatRx)
    | _ => true
  | _ => true

/-- A probe is sent and written, and the child answers it at once; the
router passes the answer on, and time passes. -/
def answeredProbe (id : String) : List Label :=
  [.heartbeatTick, .heartbeat, .heartbeat, .manager .received, .manager .go, .manager .written,
    .manager .go, .childOutput 0 (.object [("id", .string id), ("result", .object [])]),
    .routerTurn, .elapse 30000, .heartbeat, .heartbeat, .heartbeat, .heartbeat, .heartbeatEvent]

/-- Three probes, each of them answered. -/
def answeredProbesRun : List Label :=
  startRun ++ handshakeRun ++
    [Label.manager .received, .manager .go, .manager .written, .manager .go] ++
    answeredProbe "__heartbeat_1" ++ answeredProbe "__heartbeat_2" ++ answeredProbe "__heartbeat_3"

/-- **The heartbeat asks for the restart of a healthy child.** -/
theorem not_credited_answeredProbesRun : ¬ ∀ (cfg : Config) (s : System),
    1 ≤ cfg.heartbeat.maxFailures → Reachable cfg (fun s l => s.answersInTime l = true) s →
      s.Credited := by
  intro hall
  have hruns : Config.small.runs answeredProbesRun = true := by decide +kernel
  have hcredited := hall .small _ (by decide) (Config.small.reachable_of_meets
    System.answersInTime hruns (by decide +kernel))
  have hasked : (Config.small.after answeredProbesRun).shared.restartRx =
      ["heartbeat timeout (3 consecutive failures)"] := by decide +kernel
  rw [hcredited.noRestart] at hasked
  cases hasked

end Mux

end VcOperator
