import Mathlib.Algebra.Group.Nat.Defs
import VcOperator.Mux.Helpers.Supervision
/-!
# The pauses between restarts

`server_manager` sleeps for `backoff` after an incarnation, and doubles it
up to `restart_backoff_max` afterwards. The bound is applied to what is
slept next, so the first pause is `restart_backoff` as it is configured.
-/

namespace VcOperator

namespace Mux

variable {cfg : Config} {s s' : System} {l : Label}

/-- A configuration with other pauses, in the milliseconds `resolve_params` reads. -/
def Config.withBackoff (cfg : Config) (backoff max : UInt64) : Config :=
  { cfg with
    state := { cfg.state with
      restartBackoff := backoff.toNat
      restartBackoffMax := max.toNat }
    manager := { cfg.manager with
      restartBackoff := backoff.toNat
      restartBackoffMax := max.toNat } }

/-- `Duration::MAX`, in whole milliseconds. -/
def durationMax : ℕ := (2 ^ 64 - 1) * 1000 + 999

/-! ## The sleeps of a run -/

/-- How long the operations sleep, from `now` on. -/
def slept (now : ℕ) (ops : List ManagerOp) : List ℕ :=
  ops.filterMap fun
    | .sleep t => some (t - now)
    | _ => none

/-- **The history of the sleeps**: the manager's next operation may begin one. -/
def noteSleep (cfg : Config) (ds : List ℕ) (s : System) : Label → List ℕ
  | .manager choice =>
    match s.manager with
    | [] => ds
    | op :: _ =>
      match op.run cfg.manager choice s.locals s.shared with
      | some r => ds ++ slept s.shared.now r.2.2
      | none => ds
  | _ => ds

/-- **The pauses are capped from the first on**: the `k`-th sleep is
`restart_backoff * 2^k`, but no more than `restart_backoff_max`, and the
doubling after a sleep stays within a `Duration`. -/
structure Capped (cfg : ManagerConfig) (s : System) (ds : List ℕ) : Prop where
  sleeps : ∀ k d, ds[k]? = some d → d = min (cfg.restartBackoff * 2 ^ k) cfg.restartBackoffMax
  noOverflow : ∀ t, .sleep t ∈ s.manager → s.locals.backoff * 2 ≤ durationMax

/-- The pauses of the code: the first is not bounded. -/
def pause (cfg : ManagerConfig) : ℕ → ℕ
  | 0 => cfg.restartBackoff
  | k + 1 => min (pause cfg k * 2) cfg.restartBackoffMax

theorem pause_eq {mcfg : ManagerConfig} (h : mcfg.restartBackoff ≤ mcfg.restartBackoffMax)
    (k : ℕ) : pause mcfg k = min (mcfg.restartBackoff * 2 ^ k) mcfg.restartBackoffMax := by
  induction k with
  | zero =>
    rw [pause, Nat.pow_zero, Nat.mul_one]
    omega
  | succ k ih =>
    rw [pause, ih, Nat.pow_succ, ← Nat.mul_assoc]
    omega

theorem pause_le {mcfg : ManagerConfig} {n : ℕ} (h : mcfg.restartBackoff ≤ n)
    (h' : mcfg.restartBackoffMax ≤ n) (k : ℕ) : pause mcfg k ≤ n := by
  cases k with
  | zero => exact h
  | succ k =>
    rw [pause]
    omega

/-! ## The backoff along a run -/

/-- Where the manager goes on without a word, it does not sleep. -/
theorem ManagerOp.GoesOn.sleep_notMem {op : ManagerOp} {ops : List ManagerOp} (h : GoesOn op ops)
    (t : ℕ) : .sleep t ∉ ops := by
  intro hmem
  cases h with
  | left b hdetails =>
    rcases List.mem_append.1 hmem with hmem | hmem
    · cases hdetails _ hmem
    · cases List.mem_singleton.1 hmem
  | piped firstMsg => cases firstMsg <;> simp at hmem
  | cleanup b => simp [cleanupOps] at hmem
  | lazy | eager | first | loop | halted | received | wrote | lost | writeFirst
  | updateQueueDepth => simp at hmem

theorem slept_eq_nil {now : ℕ} {ops : List ManagerOp} (h : ∀ t, .sleep t ∉ ops) :
    slept now ops = [] := by
  rw [slept, List.filterMap_eq_nil_iff]
  intro op hop
  cases op with
  | sleep t => exact absurd hop (h t)
  | _ => rfl

/-- **What a turn does to the backoff**: it sleeps for it, or has slept and doubles it, or
leaves it alone. -/
theorem ManagerOp.Turn.backoff_cases {mcfg : ManagerConfig} {loc loc' : ManagerLocals}
    {sh sh' : Shared} {op : ManagerOp} {ops : List ManagerOp}
    (h : Turn mcfg loc sh op loc' sh' ops) :
    (ops = [.sleep (sh.now + loc.backoff)] ∧ loc'.backoff = loc.backoff ∧
        ∃ b, op = .afterReset b) ∨
      ((∃ t, op = .sleep t) ∧ ops = [.loopHead] ∧
        loc'.backoff = min (loc.backoff * 2) mcfg.restartBackoffMax) ∨
      (∀ t, op ≠ .sleep t) ∧ (∀ t, .sleep t ∉ ops) ∧ loc'.backoff = loc.backoff := by
  cases h with
  | backoff hgo => exact .inl ⟨rfl, rfl, _, rfl⟩
  | woke => exact .inr (.inl ⟨⟨_, rfl⟩, rfl, rfl⟩)
  | leaves hop =>
    refine .inr (.inr ⟨fun t heq => ?_, by simp, rfl⟩)
    subst heq
    simp at hop
  | goesOn hgo =>
    refine .inr (.inr ⟨fun t heq => ?_, hgo.sleep_notMem, rfl⟩)
    subst heq
    cases hgo
  | published hop =>
    refine .inr (.inr ⟨fun t heq => ?_, by simp, rfl⟩)
    subst heq
    simp at hop
  | stops | underLimit | atLimit | spawned | running | failed | reset =>
    exact .inr (.inr ⟨by simp, by simp, rfl⟩)

/-- **The pauses so far, and the next one**: while the manager sleeps, `backoff` is the
length of that sleep. -/
structure Paced (cfg : Config) (s : System) (ds : List ℕ) : Prop where
  shaped : s.Shaped
  sleeps : ∀ k d, ds[k]? = some d → d = pause cfg.manager k
  next : (∀ t, .sleep t ∉ s.manager) → s.locals.backoff = pause cfg.manager ds.length
  asleep : ∀ t, .sleep t ∈ s.manager →
    ∃ k, ds.length = k + 1 ∧ s.locals.backoff = pause cfg.manager k

theorem Paced.manager {ds : List ℕ} {op : ManagerOp} {rest ops : List ManagerOp}
    (hs : Paced cfg s ds) (hshaped : s'.Shaped) (hops : s.manager = op :: rest)
    (hops' : s'.manager = ops ++ rest)
    (hturn : ManagerOp.Turn cfg.manager s.locals s.shared op s'.locals s'.shared ops) :
    Paced cfg s' (ds ++ slept s.shared.now ops) := by
  have hpoint : op.detail = false → rest = [] := hs.shaped.rest_eq_nil hops
  rcases hturn.backoff_cases with ⟨hsleep, hloc, b, hb⟩ | ⟨⟨t, ht⟩, hhead, hloc⟩ |
    ⟨hop, hnone, hloc⟩
  · -- the next pause begins
    subst hsleep hb
    have hrest := hpoint rfl
    rw [hrest] at hops hops'
    have hnow : slept s.shared.now [.sleep (s.shared.now + s.locals.backoff)] =
        [s.locals.backoff] := by simp [slept]
    have hback := hs.next (by simp [hops])
    rw [hnow]
    refine ⟨hshaped, fun k d hd => ?_, fun hno => ?_, fun t _ => ?_⟩
    · rcases Nat.lt_trichotomy k ds.length with hk | hk | hk
      · rw [List.getElem?_append_left hk] at hd
        exact hs.sleeps k d hd
      · subst hk
        rw [List.getElem?_concat_length] at hd
        rw [← Option.some.inj hd, hback]
      · rw [List.getElem?_eq_none (by simp; omega)] at hd
        cases hd
    · exact absurd (by simp [hops']) (hno (s.shared.now + s.locals.backoff))
    · exact ⟨ds.length, by simp, by rw [hloc, hback]⟩
  · -- the pause ends, and the next one is reckoned
    subst ht hhead
    rw [hpoint rfl] at hops hops'
    obtain ⟨k, hk, hback⟩ := hs.asleep t (by simp [hops])
    rw [slept_eq_nil (by simp), List.append_nil]
    refine ⟨hshaped, hs.sleeps, fun _ => ?_, fun t' ht' => ?_⟩
    · rw [hloc, hback, hk, pause]
    · simp [hops'] at ht'
  · rw [slept_eq_nil hnone, List.append_nil]
    have hmem : ∀ t, .sleep t ∈ s'.manager ↔ .sleep t ∈ s.manager := by
      intro t
      have hne : ManagerOp.sleep t ≠ op := fun heq => hop t heq.symm
      simp [hops, hops', hnone t, hne]
    refine ⟨hshaped, hs.sleeps, fun hno => ?_, fun t ht => ?_⟩
    · rw [hloc]
      exact hs.next fun t ht => hno t ((hmem t).2 ht)
    · rw [hloc]
      exact hs.asleep t ((hmem t).1 ht)

theorem Stepped.paced {ds : List ℕ} (h : Stepped cfg s l s') (hs : Paced cfg s ds) :
    Paced cfg s' (noteSleep cfg ds s l) := by
  have hshaped := h.shaped hs.shaped
  by_cases hl : ∀ choice, l ≠ .manager choice
  · have hnote : noteSleep cfg ds s l = ds := by
      cases l with
      | manager choice => exact absurd rfl (hl choice)
      | _ => rfl
    have hmanager := h.manager_eq hl
    have hlocals := (h.beside hl).1
    rw [hnote]
    exact ⟨hshaped, hs.sleeps, hmanager ▸ hlocals ▸ hs.next, hmanager ▸ hlocals ▸ hs.asleep⟩
  · push Not at hl
    obtain ⟨choice, rfl⟩ := hl
    cases h with
    | manager hops hlock hrun =>
      simp only [noteSleep, hops, hrun]
      exact hs.manager hshaped hops rfl (ManagerOp.turn_run hrun)

theorem paced_init (cfg : Config) : Paced cfg (System.init cfg) [] where
  shaped := .inr ⟨[], _, rfl, by simp, rfl⟩
  sleeps := by simp
  next := fun _ => rfl
  asleep := by simp [System.init]

/-- The runs that keep the history of their sleeps. -/
abbrev SleepRun (cfg : Config) : System × List ℕ → Prop :=
  Run.Reach (Run.track (System.step cfg) (noteSleep cfg)) Run.Any (System.init cfg, [])

theorem SleepRun.paced {p : System × List ℕ} (h : SleepRun cfg p) : Paced cfg p.1 p.2 := by
  refine h.invariant (I := fun p => Paced cfg p.1 p.2) (paced_init cfg) fun p l p' _ hp hstep => ?_
  obtain ⟨hstep', hnote⟩ := Run.track_eq_some.1 hstep
  rw [hnote]
  exact (stepped_of_step hstep').paced hp

/-- **The doubling never overflows**, whatever the two settings are. -/
theorem backoff_le_durationMax {backoff max : UInt64} {p : System × List ℕ}
    (h : SleepRun (cfg.withBackoff backoff max) p) {t : ℕ} (ht : .sleep t ∈ p.1.manager) :
    p.1.locals.backoff * 2 ≤ durationMax := by
  obtain ⟨k, -, hback⟩ := h.paced.asleep t ht
  have hfirst : (cfg.withBackoff backoff max).manager.restartBackoff ≤ 2 ^ 64 :=
    Nat.le_of_lt backoff.toNat_lt
  have hrest : (cfg.withBackoff backoff max).manager.restartBackoffMax ≤ 2 ^ 64 :=
    Nat.le_of_lt max.toNat_lt
  have hle := pause_le hfirst hrest k
  rw [hback]
  unfold durationMax
  omega

/-- **When the pauses are capped**: in every run, the `k`-th sleep is
`restart_backoff * 2^k`, capped, and no doubling overflows, if and only if
`restart_backoff` itself is no more than `restart_backoff_max`, or the
manager has not slept yet. -/
theorem capped_iff (cfg : Config) (backoff max : UInt64) (p : System × List ℕ)
    (h : SleepRun (cfg.withBackoff backoff max) p) :
    Capped (cfg.withBackoff backoff max).manager p.1 p.2 ↔
      p.2 = [] ∨ backoff.toNat ≤ max.toNat := by
  constructor
  · intro hcap
    rcases hp : p.2 with _ | ⟨d, ds⟩
    · exact .inl rfl
    · -- the first sleep is not bounded
      have hget : p.2[0]? = some d := by rw [hp, List.getElem?_cons_zero]
      have hpause : d = backoff.toNat := h.paced.sleeps 0 d hget
      have hmin : d = min (backoff.toNat * 2 ^ 0) max.toNat := hcap.sleeps 0 d hget
      rw [Nat.pow_zero, Nat.mul_one] at hmin
      exact .inr (by omega)
  · intro hwhen
    refine ⟨fun k d hd => ?_, fun t ht => backoff_le_durationMax h ht⟩
    rcases hwhen with hnil | hle
    · rw [hnil] at hd
      cases hd
    · rw [h.paced.sleeps k d hd]
      exact pause_eq hle k

/-- A run of the small mux with other pauses, and its sleeps. -/
theorem exists_sleepRun {backoff max : UInt64} {ls : List Label} {ds : List ℕ}
    (h : (Run.exec (Run.track (System.step (Config.small.withBackoff backoff max))
        (noteSleep (Config.small.withBackoff backoff max)))
        (System.init (Config.small.withBackoff backoff max), []) ls).map (·.2) = some ds) :
    ∃ p, SleepRun (Config.small.withBackoff backoff max) p ∧ p.2 = ds := by
  obtain ⟨p, hexec, hds⟩ := Option.map_eq_some_iff.1 h
  exact ⟨p, Run.reach_of_exec hexec .init, hds⟩

/-- The child exits twice, and is started again in between. -/
def twoExitsRun : List Label :=
  startRun ++ endRun 0 ++ respawnAfter 1000 2 ++ endRun 1

/-- With the default pauses the two sleeps are of one second and of two. -/
theorem capped_iff_twoExitsRun : ∃ p, SleepRun (Config.small.withBackoff 1000 30000) p ∧
    p.2 = [1000, 2000] ∧ Capped (Config.small.withBackoff 1000 30000).manager p.1 p.2 := by
  obtain ⟨p, hp, hds⟩ := exists_sleepRun (by decide +kernel :
    (Run.exec (Run.track (System.step (Config.small.withBackoff 1000 30000))
      (noteSleep (Config.small.withBackoff 1000 30000)))
      (System.init (Config.small.withBackoff 1000 30000), []) twoExitsRun).map (·.2) =
        some [1000, 2000])
  exact ⟨p, hp, hds, (capped_iff .small 1000 30000 p hp).2 (.inr (by decide))⟩

/-- **A first pause beyond the cap**: with a backoff of a minute and a cap of half a
minute, the first sleep takes a minute. -/
theorem not_capped_endRun : ¬ ∀ (cfg : Config) (backoff max : UInt64) (p : System × List ℕ),
    SleepRun (cfg.withBackoff backoff max) p →
      Capped (cfg.withBackoff backoff max).manager p.1 p.2 := by
  intro h
  obtain ⟨p, hp, hds⟩ := exists_sleepRun (by decide +kernel :
    (Run.exec (Run.track (System.step (Config.small.withBackoff 60000 30000))
      (noteSleep (Config.small.withBackoff 60000 30000)))
      (System.init (Config.small.withBackoff 60000 30000), []) (startRun ++ endRun 0)).map
        (·.2) = some [60000])
  have hcap := (h .small 60000 30000 p hp).sleeps 0 60000 (by rw [hds, List.getElem?_cons_zero])
  exact absurd hcap (by decide)

end Mux

end VcOperator
