import VcOperator.Mux.Helpers.Supervision
/-!
# How many restarts the limit allows

`max_restarts` is compared with the number of incarnations that have
ended. The first start is no restart, so the limit is reached one restart
early: with `max_restarts = N` the child is spawned `N` times in all, and
the count that is reported includes a restart that is not made.
-/

namespace VcOperator

namespace Mux

variable {cfg : Config} {s s' : System} {l : Label}

/-- `server_manager` has come to its limit. It is the branch that leaves the mutex locked. -/
def System.gaveUp (s : System) : Bool := s.shared.stateLocked

/-- The restarts made: every spawn but the first. -/
def System.restartsMade (s : System) : ℕ := s.shared.children.length - 1

/-- **The restart limit, as it is documented**: with `max_restarts = N > 0` the child is
spawned at most `1 + N` times, and `1 + N` times when the manager gives up; with
`N = 0` it does not give up; and having given up it reports the restarts made. -/
structure Limited (cfg : ManagerConfig) (s : System) : Prop where
  atMost : 0 < cfg.maxRestarts → s.shared.children.length ≤ 1 + cfg.maxRestarts
  exact : s.gaveUp = true → s.shared.children.length = 1 + cfg.maxRestarts
  unlimited : cfg.maxRestarts = 0 → s.gaveUp = false
  reported : s.gaveUp = true → s.shared.st.restarts = s.restartsMade

/-- **The condition on a step**: the manager does not take the branch of the limit. -/
def System.underLimit (cfg : Config) (s : System) : Label → Bool
  | .manager _ =>
    match s.manager with
    | .checkLimit _ :: _ => !ManagerOp.limitReached cfg.manager s.locals
    | _ => true
  | _ => true

/-! ## The counts along a run -/

/-- There is room for one more spawn, `n` incarnations having ended. -/
def Room (cfg : ManagerConfig) (n : ℕ) : Prop := 0 < cfg.maxRestarts → n < cfg.maxRestarts

/-- What the counts are to each other, by an operation of those `ops` the manager has
still to do: `n` in its locals, `r` reported, and `k` children spawned. -/
def Tally (cfg : ManagerConfig) (ops : List ManagerOp) (n r k : ℕ) (down : Bool) :
    ManagerOp → Prop
  | .loopHead | .awaitFirst | .checkLimit _ | .sleep _ =>
    k = n ∧ r = n ∧ (0 < cfg.maxRestarts → n ≤ cfg.maxRestarts)
  | .spawn _ => k = n ∧ r = n ∧ Room cfg n
  | .takePipes _ | .writeLoop | .select | .writeMessage _ | .cleanup _ =>
    k = n + 1 ∧ r = n ∧ Room cfg n
  | .resetFields b => k = n + 1 ∧ r = n ∧ Room cfg n ∧ ops = ManagerOp.cleanupOps b
  | .afterReset b =>
    k = n + 1 ∧ Room cfg n ∧
      (ops = ManagerOp.cleanupOps b ∨ ((down || !b) = false → r = n + 1))
  | .publishHoldingGuard => False
  | .markRunning _ | .markFailed _ _ | .writeFirst _ | .updateQueueDepth | .publishStatus => True

/-- The same, for all of them. -/
def Tallies (cfg : ManagerConfig) (ops : List ManagerOp) (loc : ManagerLocals) (sh : Shared) :
    Prop :=
  ∀ op ∈ ops, Tally cfg ops loc.restarts sh.st.restarts sh.children.length sh.shutdown op

/-- **The counts agree**, and the limit was not reached. -/
structure System.Tallied (cfg : ManagerConfig) (s : System) : Prop where
  shaped : s.Shaped
  free : s.gaveUp = false
  atMost : 0 < cfg.maxRestarts → s.shared.children.length ≤ cfg.maxRestarts
  tally : Tallies cfg s.manager s.locals s.shared

theorem System.Tallied.limited {mcfg : ManagerConfig} (hs : s.Tallied mcfg) : Limited mcfg s where
  atMost h := by
    have := hs.atMost h
    omega
  exact h := by
    rw [hs.free] at h
    cases h
  unlimited _ := hs.free
  reported h := by
    rw [hs.free] at h
    cases h

namespace Tally

variable {mcfg : ManagerConfig} {op : ManagerOp} {ops rest : List ManagerOp} {n r k : ℕ}
  {down : Bool}

/-- A shutdown takes nothing back. -/
theorem shutdown (h : Tally mcfg ops n r k down op) : Tally mcfg ops n r k true op := by
  cases op with
  | afterReset b => exact ⟨h.1, h.2.1, .inr fun hup => by simp at hup⟩
  | _ => exact h

/-- An operation that is done says no more of the others, unless it was the reset. -/
theorem tail {op' : ManagerOp} (hop : ∀ b, op ≠ .resetFields b)
    (h : Tally mcfg (op :: rest) n r k down op') : Tally mcfg rest n r k down op' := by
  have hne : ∀ b, op :: rest ≠ ManagerOp.cleanupOps b :=
    fun b heq => hop b (List.cons.inj heq).1
  cases op' with
  | resetFields b => exact absurd h.2.2.2 (hne b)
  | afterReset b => exact ⟨h.1, h.2.1, .inr (h.2.2.resolve_left (hne b))⟩
  | _ => exact h

/-- After the reset one restart more is reported, if there is going to be one. -/
theorem reset {b : Bool} (h : Tally mcfg (.resetFields b :: rest) n r k down (.resetFields b)) :
    ∀ op ∈ rest, Tally mcfg rest n (if down || !b then r else r + 1) k down op := by
  obtain ⟨hk, hr, hroom, hops⟩ := h
  obtain rfl : rest = [.updateQueueDepth, .publishStatus, .afterReset b] :=
    (List.cons.inj hops).2
  intro op hop
  simp only [List.mem_cons, List.not_mem_nil, or_false] at hop
  rcases hop with rfl | rfl | rfl
  · trivial
  · trivial
  · refine ⟨hk, hroom, .inr fun hup => ?_⟩
    rw [hup, if_neg Bool.false_ne_true, hr]

/-- Where the manager goes on without a word on its child, the counts stay as they are. -/
theorem goesOn (hgo : ManagerOp.GoesOn op ops) (hpoint : op.detail = false)
    (h : Tally mcfg [op] n r k down op) : ∀ op' ∈ ops, Tally mcfg ops n r k down op' := by
  intro op' hop'
  cases hgo with
  | lazy | eager | loop | halted | wrote =>
    obtain rfl := List.mem_singleton.1 hop'
    exact h
  | first | received =>
    simp only [List.mem_cons, List.not_mem_nil, or_false] at hop'
    rcases hop' with rfl | rfl
    · trivial
    · exact h
  | lost =>
    simp only [List.mem_cons, List.not_mem_nil, or_false] at hop'
    rcases hop' with rfl | rfl | rfl
    · trivial
    · trivial
    · exact h
  | piped firstMsg =>
    rcases List.mem_append.1 hop' with hop' | hop'
    · cases firstMsg with
      | none => cases hop'
      | some msg =>
        obtain rfl := List.mem_singleton.1 hop'
        trivial
    · obtain rfl := List.mem_singleton.1 hop'
      exact h
  | left b hdetails =>
    rcases List.mem_append.1 hop' with hop' | hop'
    · have hreports := hdetails op' hop'
      cases op' <;> trivial
    · obtain rfl := List.mem_singleton.1 hop'
      exact h
  | cleanup b =>
    obtain ⟨hk, hr, hroom⟩ := h
    simp only [ManagerOp.cleanupOps, List.mem_cons, List.not_mem_nil, or_false] at hop'
    rcases hop' with rfl | rfl | rfl | rfl
    · exact ⟨hk, hr, hroom, rfl⟩
    · trivial
    · trivial
    · exact ⟨hk, hroom, .inl rfl⟩
  | writeFirst | updateQueueDepth => cases hpoint

end Tally

section Turn

variable {mcfg : ManagerConfig} {loc loc' : ManagerLocals} {sh sh' : Shared} {op : ManagerOp}
  {rest ops : List ManagerOp}

theorem limitReached_eq_false :
    ManagerOp.limitReached mcfg loc = false ↔ Room mcfg loc.restarts := by
  unfold ManagerOp.limitReached Room
  rw [Bool.and_eq_false_iff, decide_eq_false_iff_not, decide_eq_false_iff_not]
  omega

/-- **A turn of the manager keeps the counts**, when it does not come to the limit. -/
theorem ManagerOp.Turn.tallies (h : Turn mcfg loc sh op loc' sh' ops)
    (hlimit : ∀ firstMsg, op = .checkLimit firstMsg → limitReached mcfg loc = false)
    (hpoint : op.detail = false → rest = []) (htally : Tallies mcfg (op :: rest) loc sh) :
    Tallies mcfg (ops ++ rest) loc' sh' := by
  have hhead := htally op List.mem_cons_self
  -- a detail that is done says nothing of the rest, unless it is the reset
  have htail : (∀ b, op ≠ .resetFields b) → Tallies mcfg rest loc sh :=
    fun hne op' hop' => (htally op' (List.mem_cons_of_mem _ hop')).tail hne
  cases h with
  | leaves hop hplain =>
    have hrest : rest = [] := by
      refine hpoint ?_
      rcases hop with rfl | rfl | ⟨m, rfl | rfl⟩ <;> rfl
    intro op' hop'
    rw [hrest] at hop'
    cases hop'
  | stops hstop hplain =>
    intro op' hop'
    rw [hpoint rfl] at hop'
    cases hop'
  | goesOn hgo hplain =>
    unfold Tallies
    rw [hplain.restarts, hplain.spawned, hplain.shutdown]
    cases hop : op.detail with
    | false =>
      rw [hpoint hop] at hhead ⊢
      rw [List.append_nil]
      exact Tally.goesOn hgo hop hhead
    | true =>
      cases hgo with
      | writeFirst | updateQueueDepth => exact htail (by simp)
      | lazy | eager | first | piped | loop | halted | received | left | wrote | lost
      | cleanup => cases hop
  | underLimit hunder =>
    obtain ⟨hk, hr, -⟩ := hhead
    rw [hpoint rfl]
    intro op' hop'
    obtain rfl := List.mem_singleton.1 hop'
    exact ⟨hk, hr, limitReached_eq_false.1 hunder⟩
  | atLimit hreached =>
    rw [hlimit _ rfl] at hreached
    cases hreached
  | spawned =>
    obtain ⟨hk, hr, hroom⟩ := hhead
    rw [hpoint rfl]
    intro op' hop'
    simp only [List.append_nil, List.mem_cons, List.not_mem_nil, or_false] at hop'
    rcases hop' with rfl | rfl | rfl
    · trivial
    · trivial
    · exact ⟨by rw [List.length_append, hk, List.length_singleton], hr, hroom⟩
  | running | failed => exact htail (by simp)
  | published hop =>
    rcases hop with rfl | rfl
    · exact htail (by simp)
    · exact hhead.elim
  | reset => exact hhead.reset
  | backoff hgo =>
    rw [hpoint rfl] at hhead ⊢
    obtain ⟨hk, hroom, hreset⟩ := hhead
    have hr := hreset.resolve_left (by simp [ManagerOp.cleanupOps]) hgo
    intro op' hop'
    obtain rfl := List.mem_singleton.1 hop'
    exact ⟨hk, hr, fun hpos => hroom hpos⟩
  | woke =>
    rw [hpoint rfl]
    intro op' hop'
    obtain rfl := List.mem_singleton.1 hop'
    exact hhead

/-- A child is spawned only where there is room, and one at a time. -/
theorem ManagerOp.Turn.atMost (h : Turn mcfg loc sh op loc' sh' ops)
    (htally : Tallies mcfg (op :: rest) loc sh)
    (hmost : 0 < mcfg.maxRestarts → sh.children.length ≤ mcfg.maxRestarts) :
    0 < mcfg.maxRestarts → sh'.children.length ≤ mcfg.maxRestarts := by
  cases h with
  | leaves _ hplain | stops _ hplain | goesOn _ hplain =>
    rw [hplain.spawned]
    exact hmost
  | atLimit _ _ hspawned =>
    rw [hspawned]
    exact hmost
  | spawned =>
    obtain ⟨hk, -, hroom⟩ := htally _ List.mem_cons_self
    intro hpos
    have := hroom hpos
    rw [List.length_append, List.length_singleton]
    omega
  | underLimit | running | failed | published | reset | backoff | woke => exact hmost

/-- The mutex stays free, but for the limit. -/
theorem ManagerOp.Turn.stateLocked (h : Turn mcfg loc sh op loc' sh' ops)
    (hlimit : ∀ firstMsg, op = .checkLimit firstMsg → limitReached mcfg loc = false) :
    sh'.stateLocked = sh.stateLocked := by
  cases h with
  | leaves _ hplain | stops _ hplain | goesOn _ hplain => exact hplain.stateLocked
  | atLimit hreached =>
    rw [hlimit _ rfl] at hreached
    cases hreached
  | underLimit | spawned | running | failed | published | reset | backoff | woke => rfl

end Turn

/-- **Every step keeps the counts**, when it does not come to the limit. -/
theorem Stepped.tallied (h : Stepped cfg s l s') (hok : s.underLimit cfg l = true)
    (hs : s.Tallied cfg.manager) : s'.Tallied cfg.manager := by
  have hshaped := h.shaped hs.shaped
  rcases h.turn_cases with ⟨choice, op, rest, ops, rfl, hops, -, hops', hturn⟩ |
    ⟨-, hmanager, hlocals, hbeside⟩
  · have hlimit : ∀ firstMsg, op = .checkLimit firstMsg →
        ManagerOp.limitReached cfg.manager s.locals = false := by
      intro firstMsg hop
      rw [System.underLimit, hops, hop] at hok
      simpa using hok
    have hpoint : op.detail = false → rest = [] := hs.shaped.rest_eq_nil hops
    have htally := hs.tally
    rw [hops] at htally
    refine ⟨hshaped, ?_, hturn.atMost htally hs.atMost, ?_⟩
    · rw [System.gaveUp, hturn.stateLocked hlimit]
      exact hs.free
    · rw [hops']
      exact hturn.tallies hlimit hpoint htally
  · rcases hbeside with hbeside | ⟨-, hdown⟩
    · refine ⟨hshaped, ?_, ?_, ?_⟩
      · rw [System.gaveUp, hbeside.stateLocked]
        exact hs.free
      · rw [hbeside.spawned]
        exact hs.atMost
      · unfold Tallies
        rw [hmanager, hlocals, hbeside.restarts, hbeside.spawned, hbeside.shutdown]
        exact hs.tally
    · refine ⟨hshaped, ?_, ?_, ?_⟩
      · rw [System.gaveUp, hdown]
        exact hs.free
      · rw [hdown]
        exact hs.atMost
      · rw [hmanager, hlocals, hdown]
        exact fun op hop => (hs.tally op hop).shutdown

theorem tallied_init (cfg : Config) : (System.init cfg).Tallied cfg.manager where
  shaped := .inr ⟨[], _, rfl, by simp, rfl⟩
  free := rfl
  atMost := fun _ => Nat.zero_le _
  tally := by
    intro op hop
    obtain rfl := List.mem_singleton.1 hop
    exact ⟨rfl, rfl, fun _ => Nat.zero_le _⟩

/-- **What is so when the manager has given up**: `N` children were spawned, and `N`
restarts are reported, of which one was not made. -/
theorem counts_at_limit {choice : Choice} (hs : s.Tallied cfg.manager)
    (hstep : s.step cfg (.manager choice) = some s')
    (hlimit : s.underLimit cfg (.manager choice) = false) :
    s'.gaveUp = true ∧ 0 < cfg.manager.maxRestarts ∧
      s'.shared.children.length = cfg.manager.maxRestarts ∧
      s'.shared.st.restarts = cfg.manager.maxRestarts := by
  rcases (stepped_of_step hstep).turn_cases with
    ⟨choice', op, rest, ops, hl, hops, -, -, hturn⟩ | ⟨hl, -⟩
  · obtain ⟨firstMsg, rfl⟩ : ∃ firstMsg, op = .checkLimit firstMsg := by
      rw [System.underLimit, hops] at hlimit
      cases op with
      | checkLimit firstMsg => exact ⟨_, rfl⟩
      | _ => cases hlimit
    have hreached : ManagerOp.limitReached cfg.manager s.locals = true := by
      rw [System.underLimit, hops] at hlimit
      simpa using hlimit
    have htally := hs.tally
    rw [hops] at htally
    obtain ⟨hk, hr, hle⟩ := htally _ List.mem_cons_self
    have hbound := hreached
    rw [ManagerOp.limitReached, Bool.and_eq_true, decide_eq_true_eq, decide_eq_true_eq] at hbound
    unfold System.gaveUp
    generalize s'.shared = sh' at hturn ⊢
    generalize s'.locals = loc' at hturn
    cases hturn with
    | goesOn hgo => cases hgo
    | leaves hop => simp at hop
    | published hop => simp at hop
    | underLimit hunder =>
      rw [hreached] at hunder
      cases hunder
    | atLimit _ hlocked hspawned hrestarts =>
      have := hle hbound.1
      exact ⟨hlocked, hbound.1, by omega, by omega⟩
  · exact absurd rfl (hl choice)

/-- **When the restart limit is as documented**: all along a run, the child is spawned at
most `1 + N` times, and exactly `1 + N` times when the manager gives up, and the
restarts it then reports were made, if and only if the manager never comes to
the branch of the limit. -/
theorem limited_iff (cfg : Config) (ls : List Label) (s : System)
    (hexec : Run.exec (System.step cfg) (System.init cfg) ls = some s) :
    Run.Always (System.step cfg) (Limited cfg.manager) (System.init cfg) ls ↔
      Run.meets (System.step cfg) (System.underLimit cfg) (System.init cfg) ls = true := by
  refine Run.always_iff_meets_of (J := System.Tallied cfg.manager)
    (fun _ hs => hs.limited) (fun s l s' hok hs hstep => (stepped_of_step hstep).tallied hok hs)
    (fun s l s' hs hstep hlim => ?_) (tallied_init cfg) hexec
  by_contra hnot
  rw [Bool.not_eq_true] at hnot
  obtain ⟨choice, rfl⟩ : ∃ choice, l = .manager choice := by
    cases l with
    | manager choice => exact ⟨choice, rfl⟩
    | _ => cases hnot
  obtain ⟨hgave, -, hspawned, -⟩ := counts_at_limit hs hstep hnot
  have := hlim.exact hgave
  omega

/-- The small mux with another limit. -/
def Config.smallLimitedTo (n : ℕ) : Config :=
  { Config.small with
    state := { Config.small.state with maxRestarts := n }
    manager := { Config.small.manager with maxRestarts := n } }

/-- A child that is started again once: the limit of five is far. -/
theorem limited_iff_respawned : ∃ s,
    Run.exec (System.step .small) (System.init .small)
      (startRun ++ endRun 0 ++ respawnAfter 1000 2) = some s ∧
    Run.Always (System.step .small) (Limited Config.small.manager) (System.init .small)
      (startRun ++ endRun 0 ++ respawnAfter 1000 2) := by
  obtain ⟨s, hs⟩ := Option.isSome_iff_exists.1 (by decide +kernel :
    (Run.exec (System.step .small) (System.init .small)
      (startRun ++ endRun 0 ++ respawnAfter 1000 2)).isSome = true)
  exact ⟨s, hs, (limited_iff .small _ s hs).2 (by decide +kernel)⟩

/-- The child exits, and the manager comes to a limit of one restart. -/
def oneRestartRun : List Label :=
  startRun ++ endRun 0 ++ [Label.elapse 1000, .manager .go, .manager .go, .manager .go]

/-- **No restart is made under a limit of one**, and one is reported. -/
theorem not_limited_oneRestartRun : ¬ ∀ (cfg : Config) (ls : List Label) (s : System),
    Run.exec (System.step cfg) (System.init cfg) ls = some s →
      Run.Always (System.step cfg) (Limited cfg.manager) (System.init cfg) ls := by
  intro h
  obtain ⟨s, hs⟩ := Option.isSome_iff_exists.1 (by decide +kernel :
    (Run.exec (System.step (.smallLimitedTo 1)) (System.init (.smallLimitedTo 1))
      oneRestartRun).isSome = true)
  have hcounts : (Run.exec (System.step (.smallLimitedTo 1)) (System.init (.smallLimitedTo 1))
      oneRestartRun).map (fun s => (s.gaveUp, s.shared.children.length, s.shared.st.restarts)) =
        some (true, 1, 1) := by decide +kernel
  rw [hs, Option.map_some, Option.some.injEq, Prod.mk.injEq, Prod.mk.injEq] at hcounts
  have hwhole : oneRestartRun.take oneRestartRun.length = oneRestartRun := List.take_length
  have hlim : Limited (Config.smallLimitedTo 1).manager s :=
    h (.smallLimitedTo 1) oneRestartRun s hs oneRestartRun.length s (by rw [hwhole, hs])
  have hexact := hlim.exact hcounts.1
  rw [hcounts.2.1] at hexact
  exact absurd hexact (by decide)

end Mux

end VcOperator
