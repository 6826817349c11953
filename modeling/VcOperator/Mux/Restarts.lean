import VcOperator.Mux.Probes
import VcOperator.Mux.Resets
/-!
# What a heartbeat restart is based on

The inspector counts the probes that fail in a row, and asks for a restart
when there are `max_failures` of them. The count lives in its own task,
and the signal in a queue of its own: neither is told when the manager
ends an incarnation and spawns the next. So the next one may be ended by
the failures of the last, or by a signal that was left over.

`restart_justified` says that it is not, where a child is spawned only
when nothing is left over, and a probe is given up only when it was
written to the newest child.
-/

namespace VcOperator

namespace Mux

variable {cfg : Config} {s s' : System} {l : Label}

/-! ## What the inspector has recorded -/

/-- A probe that was concluded, and whether it was recorded a success. -/
structure Verdict where
  n : ℕ
  success : Bool

/-- A restart signal: how many verdicts there were when it was sent, and
how many children had been spawned. -/
structure Signal where
  recorded : ℕ
  spawned : ℕ

/-- **The history of the probes**: the verdicts, and the signals that wait
for the manager. -/
structure ProbeHistory where
  verdicts : List Verdict
  signals : List Signal

namespace ProbeHistory

/-- What it is at the start. -/
def start : ProbeHistory := ⟨[], []⟩

/-- What it is after a step. -/
def note (h : ProbeHistory) (s : System) : Label → ProbeHistory
  | .heartbeat =>
    match s.heartbeat with
    | .awaitResponse n _ _ :: _ =>
      { h with verdicts := h.verdicts ++ [⟨n, decide (heartbeatId n ∈ s.inspector.fired)⟩] }
    | .sendProbe n _ :: _ =>
      if s.shared.toServerOpen then h else { h with verdicts := h.verdicts ++ [⟨n, false⟩] }
    | .checkRestart :: _ =>
      if s.inspector.shouldRestart then
        { h with signals := h.signals ++ [⟨h.verdicts.length, s.shared.children.length⟩] }
      else h
    | _ => h
  | .manager .heartbeatRestart =>
    match s.manager with
    | .select :: _ => { h with signals := h.signals.tail }
    | _ => h
  | _ => h

end ProbeHistory

/-- The message is the probe of a number. -/
def isProbe (n : ℕ) (msg : Value) : Bool :=
  decide (method msg = "ping") &&
    decide ((msg.get "id").bind Value.asStr = some (heartbeatId n))

/-- The last verdicts of a list. -/
def lastVerdicts (k : ℕ) (vs : List Verdict) : List Verdict := vs.drop (vs.length - k)

namespace System

/-- The incarnation that was spawned last. -/
def newest (s : System) : ℕ := s.shared.children.length - 1

/-- The probe was written to an incarnation. -/
def probeWritten (s : System) (n k : ℕ) : Bool := (s.writtenTo k).any (isProbe n)

/-- The manager is at its `select!`. -/
def selects (s : System) : Bool :=
  match s.manager with
  | .select :: _ => true
  | _ => false

theorem selects_iff {s : System} : s.selects = true ↔ ∃ rest, s.manager = .select :: rest := by
  rw [selects]
  constructor
  · intro h
    split at h
    · exact ⟨_, by assumption⟩
    · cases h
  · rintro ⟨rest, hops⟩
    rw [hops]

/-- **The condition on a step.** A child is spawned only when no signal is
left over or about to be sent, and no failure is counted (or one failure
is enough). The wait for an answer ends only when the probe was written
to the newest child. -/
def restartsAfresh (cfg : Config) (s : System) : Label → Bool
  | .manager (.spawned _) =>
    match s.manager with
    | .spawn _ :: _ =>
      s.shared.restartRx.isEmpty && !s.heartbeat.any (· matches .checkRestart) &&
        (decide (cfg.heartbeat.maxFailures ≤ 1) ||
          decide (s.inspector.metrics.consecutiveFailures = 0))
    | _ => true
  | .heartbeat =>
    match s.heartbeat with
    | .awaitResponse n _ _ :: _ => s.probeWritten n s.newest
    | _ => true
  | _ => true

/-- **The signal is justified by the newest incarnation.** It was sent since
that was spawned, and the last `max_failures` verdicts before it are all
failures of probes that were written to it. -/
structure Justified (cfg : Config) (s : System) (h : ProbeHistory) (σ : Signal) : Prop where
  own : σ.spawned = s.shared.children.length
  enough : cfg.heartbeat.maxFailures ≤ σ.recorded
  failed : ∀ v ∈ lastVerdicts cfg.heartbeat.maxFailures (h.verdicts.take σ.recorded),
    v.success = false ∧ s.probeWritten v.n s.newest = true

/-- **The inspector's history, as far as the manager may still go by it.** -/
structure Fair (cfg : Config) (s : System) (h : ProbeHistory) : Prop where
  length : h.signals.length = s.shared.restartRx.length
  counted : h.verdicts.length = s.inspector.metrics.consecutiveFailures
  failed : ∀ v ∈ h.verdicts, v.success = false
  recorded : ∀ σ ∈ h.signals, σ.recorded ≤ h.verdicts.length
  signals : s.shared.toServerOpen = true → ∀ σ ∈ h.signals, s.Justified cfg h σ
  checking : s.shared.toServerOpen = true → .checkRestart ∈ s.heartbeat →
    ∀ v ∈ lastVerdicts cfg.heartbeat.maxFailures h.verdicts, s.probeWritten v.n s.newest = true
  written : s.shared.toServerOpen = true → cfg.heartbeat.maxFailures ≤ 1 ∨
    ∀ v ∈ h.verdicts, s.probeWritten v.n s.newest = true

end System

variable {h : ProbeHistory}

/-! ## The newest child -/

/-- What was written stays written. -/
theorem Stepped.probeWritten (hstep : Stepped cfg s l s') (hsound : s.Sound) {n k : ℕ}
    (hw : s.probeWritten n k = true) : s'.probeWritten n k = true := by
  rw [System.probeWritten] at hw ⊢
  rcases (hstep.conveys hsound).written k with hsame | ⟨m, -, heq, -⟩
  · rwa [hsame]
  · rw [heq, List.any_append, hw, Bool.true_or]

/-- The manager spawns a child, or leaves their number as it is. -/
theorem ManagerOp.Moved.length_cases {mcfg : ManagerConfig} {loc : ManagerLocals}
    {sh sh' : Shared} {choice : Choice} {op : ManagerOp} {ops : List ManagerOp}
    (h : op.Moved mcfg loc sh choice sh' ops) :
    sh'.children.length = sh.children.length ∨
      ∃ pid firstMsg, choice = .spawned pid ∧ op = .spawn firstMsg := by
  cases h with
  | spawned => exact .inr ⟨_, _, rfl, rfl⟩
  | detail hop haside | atLimit hlimit haside | left details hdetails haside =>
    exact .inl (by rw [haside.children])
  | piped | wroteFirst | wrote => exact .inl (List.length_modify ..)
  | returned | dropped | head | first | underLimit | published | spawnFailed | pipeMissing
  | lostFirst | loop | halted | received | lost | cleanup | backoff | woke => exact .inl rfl

/-- The manager opens no queue that was closed. -/
theorem ManagerOp.Moved.toServerOpen {mcfg : ManagerConfig} {loc : ManagerLocals}
    {sh sh' : Shared} {choice : Choice} {op : ManagerOp} {ops : List ManagerOp}
    (h : op.Moved mcfg loc sh choice sh' ops) (hopen : sh'.toServerOpen = true) :
    sh.toServerOpen = true := by
  cases h with
  | detail hop haside | left details hdetails haside => rwa [← haside.toServerOpen]
  | atLimit hlimit haside =>
    have hsame := haside.toServerOpen
    rwa [hsame] at hopen
  | returned | dropped | spawnFailed | pipeMissing => cases hopen
  | head | first | underLimit | published | spawned | piped | wroteFirst | lostFirst | loop
  | halted | received | wrote | lost | cleanup | backoff | woke => exact hopen

/-- A restart signal is taken by the branch of the `select!` for it, and by
nothing else the manager does. -/
theorem ManagerOp.restartRx_run {mcfg : ManagerConfig} {loc loc' : ManagerLocals}
    {sh sh' : Shared} {choice : Choice} {op : ManagerOp} {ops : List ManagerOp}
    (h : op.run mcfg choice loc sh = some (loc', sh', ops)) :
    (choice = .heartbeatRestart ∧ op = .select ∧ ∃ reason, sh.restartRx = reason :: sh'.restartRx) ∨
      (sh'.restartRx = sh.restartRx ∧ (op = .select → choice ≠ .heartbeatRestart)) := by
  cases op with
  | select =>
    obtain ⟨⟨sh₁, ops₁⟩, hsel, heq⟩ := Option.map_eq_some_iff.1 h
    cases heq
    cases choice with
    | heartbeatRestart =>
      simp only [runSelect] at hsel
      split at hsel <;> cases hsel
      exact .inl ⟨rfl, rfl, _, by assumption⟩
    | received | queueClosed | shutdown | childExited =>
      simp only [runSelect] at hsel
      split at hsel <;> cases hsel
      exact .inr ⟨rfl, by simp⟩
    | waitError _ | joinError => cases hsel; exact .inr ⟨rfl, by simp⟩
    | go | spawned _ | spawnFailed | pipeMissing | written | writeFailed _ => cases hsel
  | loopHead =>
    simp only [run] at h
    split at h
    · cases h; exact .inr ⟨rfl, (by simp)⟩
    · split at h <;> cases h <;> exact .inr ⟨rfl, (by simp)⟩
  | awaitFirst =>
    simp only [run] at h
    split at h
    · split at h <;> cases h <;> exact .inr ⟨rfl, (by simp)⟩
    · cases h; exact .inr ⟨rfl, (by simp)⟩
    · split at h <;> cases h
      exact .inr ⟨rfl, (by simp)⟩
    · cases h
  | checkLimit _ | spawn _ | takePipes _ | writeFirst _ | writeMessage _ | afterReset _
  | sleep _ =>
    simp only [run] at h
    split at h <;> cases h <;> exact .inr ⟨rfl, (by simp)⟩
  | writeLoop | markRunning _ | markFailed _ _ | cleanup _ | resetFields _ | updateQueueDepth
  | publishStatus | publishHoldingGuard => cases h; exact .inr ⟨rfl, (by simp)⟩

/-! ## The steps -/

/-- What is kept where the newest child, the verdicts and the signals are the same. -/
theorem System.Fair.frame (hs : s.Fair cfg h)
    (hrestartRx : s'.shared.restartRx = s.shared.restartRx)
    (hcount : s'.inspector.metrics.consecutiveFailures =
      s.inspector.metrics.consecutiveFailures)
    (hopen : s'.shared.toServerOpen = true → s.shared.toServerOpen = true)
    (hlength : s'.shared.children.length = s.shared.children.length)
    (hwritten : ∀ n k, s.probeWritten n k = true → s'.probeWritten n k = true)
    (hchecks : .checkRestart ∈ s'.heartbeat → .checkRestart ∈ s.heartbeat) : s'.Fair cfg h := by
  have hnewest : s'.newest = s.newest := by rw [System.newest, System.newest, hlength]
  refine ⟨by rw [hrestartRx]; exact hs.length, by rw [hcount]; exact hs.counted, hs.failed,
    hs.recorded, fun ho σ hσ => ?_, fun ho hmem v hv => ?_, fun ho => ?_⟩
  · obtain ⟨hown, henough, hfailed⟩ := hs.signals (hopen ho) σ hσ
    refine ⟨by rw [hlength]; exact hown, henough, fun v hv => ?_⟩
    rw [hnewest]
    exact ⟨(hfailed v hv).1, hwritten _ _ (hfailed v hv).2⟩
  · rw [hnewest]
    exact hwritten _ _ (hs.checking (hopen ho) (hchecks hmem) v hv)
  · rw [hnewest]
    exact (hs.written (hopen ho)).imp_right fun hall v hv => hwritten _ _ (hall v hv)

/-- The last verdicts of a list that got one more. -/
theorem mem_lastVerdicts_append {k : ℕ} {vs : List Verdict} {w v : Verdict}
    (hv : v ∈ lastVerdicts k (vs ++ [w])) : v = w ∨ (2 ≤ k ∧ v ∈ vs) := by
  unfold lastVerdicts at hv
  by_cases hk : k ≤ 1
  · have hle : vs.length ≤ (vs ++ [w]).length - k := by
      rw [List.length_append, List.length_singleton]
      omega
    rw [List.drop_append, List.drop_eq_nil_of_le hle, List.nil_append] at hv
    exact .inl (List.mem_singleton.1 (List.mem_of_mem_drop hv))
  · rcases List.mem_append.1 (List.mem_of_mem_drop hv) with hmem | hmem
    · exact .inr ⟨by omega, hmem⟩
    · exact .inl (List.mem_singleton.1 hmem)

/-- What a signal is justified by is not changed by later verdicts. -/
theorem System.Justified.append {σ : Signal} (hσ : s.Justified cfg h σ)
    (hle : σ.recorded ≤ h.verdicts.length) (vs : List Verdict) :
    s.Justified cfg { h with verdicts := h.verdicts ++ vs } σ := by
  refine ⟨hσ.own, hσ.enough, ?_⟩
  rw [List.take_append_of_le_length hle]
  exact hσ.failed

/-- **A probe is concluded**, without success. -/
theorem System.Fair.concludes {w : Verdict} (hs : s.Fair cfg h)
    (hrestartRx : s'.shared.restartRx = s.shared.restartRx)
    (hcount : s'.inspector.metrics.consecutiveFailures =
      s.inspector.metrics.consecutiveFailures + 1)
    (hw : w.success = false)
    (hopen : s'.shared.toServerOpen = true → s.shared.toServerOpen = true ∧
      s.probeWritten w.n s.newest = true)
    (hlength : s'.shared.children.length = s.shared.children.length)
    (hwritten : ∀ n k, s.probeWritten n k = true → s'.probeWritten n k = true) :
    s'.Fair cfg { h with verdicts := h.verdicts ++ [w] } := by
  have hnewest : s'.newest = s.newest := by rw [System.newest, System.newest, hlength]
  refine ⟨by rw [hrestartRx]; exact hs.length, ?_, fun v hv => ?_, fun σ hσ => ?_,
    fun ho σ hσ => ?_, fun ho _ v hv => ?_, fun ho => ?_⟩
  · rw [hcount, List.length_append, hs.counted]
    rfl
  · rcases List.mem_append.1 hv with hv | hv
    · exact hs.failed v hv
    · rw [List.mem_singleton.1 hv, hw]
  · rw [List.length_append]
    exact Nat.le_trans (hs.recorded σ hσ) (Nat.le_add_right ..)
  · obtain ⟨hown, henough, hfailed⟩ :=
      (hs.signals (hopen ho).1 σ hσ).append (hs.recorded σ hσ) [w]
    refine ⟨by rw [hlength]; exact hown, henough, fun v hv => ?_⟩
    rw [hnewest]
    exact ⟨(hfailed v hv).1, hwritten _ _ (hfailed v hv).2⟩
  · rw [hnewest]
    refine hwritten _ _ ?_
    rcases mem_lastVerdicts_append hv with rfl | ⟨htwo, hmem⟩
    · exact (hopen ho).2
    · rcases hs.written (hopen ho).1 with hone | hall
      · omega
      · exact hall v hmem
  · rw [hnewest]
    refine (hs.written (hopen ho).1).imp_right fun hall v hv => hwritten _ _ ?_
    rcases List.mem_append.1 hv with hv | hv
    · exact hall v hv
    · rw [List.mem_singleton.1 hv]
      exact (hopen ho).2

/-- **A signal is sent**: there are enough verdicts. -/
theorem System.Fair.signals_next {reason : String} (hs : s.Fair cfg h)
    (hrestartRx : s'.shared.restartRx = s.shared.restartRx ++ [reason])
    (hinspector : s'.inspector = s.inspector)
    (hopen : s'.shared.toServerOpen = true → s.shared.toServerOpen = true)
    (hchildren : s'.shared.children = s.shared.children)
    (hchecking : .checkRestart ∈ s.heartbeat) (hidle : .checkRestart ∉ s'.heartbeat)
    (henough : cfg.heartbeat.maxFailures ≤ s.inspector.metrics.consecutiveFailures) :
    s'.Fair cfg { h with
      signals := h.signals ++ [⟨h.verdicts.length, s.shared.children.length⟩] } := by
  have hnewest : s'.newest = s.newest := by rw [System.newest, System.newest, hchildren]
  have hwritten : ∀ n k, s'.probeWritten n k = s.probeWritten n k := by
    intro n k
    rw [System.probeWritten, System.probeWritten, System.writtenTo, System.writtenTo, hchildren]
  refine ⟨?_, by rw [hinspector]; exact hs.counted, hs.failed, fun σ hσ => ?_, fun ho σ hσ => ?_,
    fun _ hmem => absurd hmem hidle, fun ho => ?_⟩
  · rw [hrestartRx, List.length_append, List.length_append, hs.length]
    rfl
  · rcases List.mem_append.1 hσ with hσ | hσ
    · exact hs.recorded σ hσ
    · rw [List.mem_singleton.1 hσ]
  · rcases List.mem_append.1 hσ with hσ | hσ
    · obtain ⟨hown, henough, hfailed⟩ := hs.signals (hopen ho) σ hσ
      refine ⟨by rw [hchildren]; exact hown, henough, fun v hv => ?_⟩
      rw [hnewest, hwritten]
      exact hfailed v hv
    · rw [List.mem_singleton.1 hσ]
      refine ⟨by rw [hchildren], by rw [hs.counted]; exact henough, fun v hv => ?_⟩
      rw [List.take_length] at hv
      rw [hnewest, hwritten]
      exact ⟨hs.failed v (List.mem_of_mem_drop hv), hs.checking (hopen ho) hchecking v hv⟩
  · rw [hnewest]
    exact (hs.written (hopen ho)).imp_right fun hall v hv => by rw [hwritten]; exact hall v hv

/-- **A child is spawned**, and nothing is left over. -/
theorem System.Fair.spawned (hs : s.Fair cfg h)
    (hrestartRx : s'.shared.restartRx = s.shared.restartRx)
    (hinspector : s'.inspector = s.inspector) (hnone : s.shared.restartRx = [])
    (hidle : .checkRestart ∉ s'.heartbeat)
    (hfresh : cfg.heartbeat.maxFailures ≤ 1 ∨ s.inspector.metrics.consecutiveFailures = 0) :
    s'.Fair cfg h := by
  have hnil : h.signals = [] := by
    have hlength := hs.length
    rw [hnone] at hlength
    exact List.length_eq_zero_iff.1 hlength
  refine ⟨by rw [hrestartRx]; exact hs.length, by rw [hinspector]; exact hs.counted, hs.failed,
    hs.recorded, fun _ σ hσ => ?_, fun _ hmem => absurd hmem hidle, fun _ => ?_⟩
  · rw [hnil] at hσ
    cases hσ
  · refine hfresh.imp_right fun hzero v hv => ?_
    have hlength := hs.counted
    rw [hzero] at hlength
    rw [List.length_eq_zero_iff.1 hlength] at hv
    cases hv

/-- **The manager takes a signal.** -/
theorem System.Fair.taken {reason : String} (hs : s.Fair cfg h)
    (hrestartRx : s.shared.restartRx = reason :: s'.shared.restartRx)
    (hinspector : s'.inspector = s.inspector)
    (hheartbeat : s'.heartbeat = s.heartbeat)
    (hopen : s'.shared.toServerOpen = true → s.shared.toServerOpen = true)
    (hlength : s'.shared.children.length = s.shared.children.length)
    (hwritten : ∀ n k, s.probeWritten n k = true → s'.probeWritten n k = true) :
    s'.Fair cfg { h with signals := h.signals.tail } := by
  have hs' : System.Fair cfg { s with shared := { s.shared with
      restartRx := s'.shared.restartRx } } { h with signals := h.signals.tail } := by
    refine ⟨?_, hs.counted, hs.failed, fun σ hσ => hs.recorded σ (List.mem_of_mem_tail hσ),
      fun ho σ hσ => ?_, hs.checking, hs.written⟩
    · have hlength := hs.length
      rw [hrestartRx, List.length_cons] at hlength
      rw [List.length_tail, hlength]
      rfl
    · obtain ⟨hown, henough, hfailed⟩ := hs.signals ho σ (List.mem_of_mem_tail hσ)
      exact ⟨hown, henough, hfailed⟩
  exact hs'.frame rfl (by rw [hinspector]) hopen hlength hwritten (by rw [hheartbeat]; exact id)

/-- Only the end of a probe leads on to the test for a restart. -/
theorem HeartbeatOp.notMem_of_run {hb hb' : HeartbeatState} {sh sh' : Shared} {op : HeartbeatOp}
    {ops : List HeartbeatOp} (h : op.run hb sh = some (hb', sh', ops))
    (hnot : op.endsProbe sh = false) : .checkRestart ∉ ops := by
  cases op with
  | awaitResponse => cases hnot
  | sendProbe n t =>
    have hopen : sh.toServerOpen = true := by simpa [endsProbe] using hnot
    simp only [run, hopen, Bool.not_true, Bool.false_eq_true, if_false] at h
    split at h <;> cases h
    simp
  | probe | checkRestart =>
    simp only [run] at h
    split at h <;> cases h <;> simp
  | updateStateMetrics | publishStatus => cases h; simp

/-- The inspector is never twice on the way to the test. -/
theorem HeartbeatOp.Turn.notMem_rest {hb : HeartbeatState} {rest : List HeartbeatOp}
    (hturn : Turn hb (.checkRestart :: rest)) : .checkRestart ∉ rest := by
  cases hturn with
  | settled hpending hnext hops hfailed =>
    rcases hops with hops | hops
    · cases hops
    · obtain ⟨pre, hpre⟩ := hops
      intro hmem
      have hcount := congrArg (·.countP (· matches .checkRestart)) hpre
      have hpos : 0 < rest.countP (· matches .checkRestart) :=
        List.countP_pos_iff.2 ⟨_, hmem, rfl⟩
      simp [conclude] at hcount
      omega

/-- The inspector's operation. -/
theorem System.Fair.heartbeat {hb : HeartbeatState} {sh : Shared} {op : HeartbeatOp}
    {rest ops : List HeartbeatOp} (hs : s.Fair cfg h) (hp : s.Probing cfg)
    (hstep : Stepped cfg s .heartbeat s') (hsound : s.Sound) (hops : s.heartbeat = op :: rest)
    (hops' : s'.heartbeat = ops ++ rest) (hrun : op.run s.inspector s.shared = some (hb, sh, ops))
    (hinspector : s'.inspector = hb) (hshared : s'.shared = sh)
    (hok : s.restartsAfresh cfg .heartbeat = true) : s'.Fair cfg (h.note s .heartbeat) := by
  have hturn : HeartbeatOp.Turn s.inspector (op :: rest) := hops ▸ hp.turn
  have hchildren : s'.shared.children = s.shared.children := by
    rcases hstep.children (by simp) with hsame | ⟨k, heq, -⟩ | ⟨k, heq, -⟩
    · exact hsame
    · cases heq
    · cases heq
  have hopen := hstep.toServerOpen (by simp)
  have hwritten : ∀ n k, s.probeWritten n k = true → s'.probeWritten n k = true :=
    fun n k => hstep.probeWritten hsound
  obtain ⟨-, -, -, -, hcount⟩ := HeartbeatOp.counted_run hrun hp.fired
  rw [← hinspector] at hcount
  have hmem : .checkRestart ∉ ops → .checkRestart ∈ s'.heartbeat → .checkRestart ∈ s.heartbeat := by
    intro hnot hmem
    rw [hops'] at hmem
    rw [hops]
    exact List.mem_cons_of_mem _ ((List.mem_append.1 hmem).resolve_left hnot)
  have hquiet : op.endsProbe s.shared = false → s'.shared.restartRx = s.shared.restartRx →
      h.note s .heartbeat = h → s'.Fair cfg (h.note s .heartbeat) := by
    intro hnot hsame hnote
    rw [hnot] at hcount
    rw [hnote]
    exact hs.frame hsame hcount (by rw [hopen]; exact id) (by rw [hchildren]) hwritten
      (hmem (HeartbeatOp.notMem_of_run hrun hnot))
  cases op with
  | probe =>
    rcases HeartbeatOp.restartRx_run hrun with hsame | ⟨heq, -⟩
    · exact hquiet rfl (by rw [hshared, hsame]) (by simp [ProbeHistory.note, hops])
    · cases heq
  | updateStateMetrics | publishStatus =>
    cases hrun
    exact hquiet rfl (congrArg (·.restartRx) hshared) (by simp [ProbeHistory.note, hops])
  | sendProbe n t =>
    have hsame : s'.shared.restartRx = s.shared.restartRx := by
      rcases HeartbeatOp.restartRx_run hrun with hsame | ⟨heq, -⟩
      · rw [hshared, hsame]
      · cases heq
    cases hclosed : s.shared.toServerOpen with
    | true =>
      exact hquiet (by simp [HeartbeatOp.endsProbe, hclosed]) hsame
        (by simp [ProbeHistory.note, hops, hclosed])
    | false =>
      have hnote : h.note s .heartbeat = { h with verdicts := h.verdicts ++ [⟨n, false⟩] } := by
        simp [ProbeHistory.note, hops, hclosed]
      rw [hnote]
      refine hs.concludes hsame (by simpa [HeartbeatOp.endsProbe, hclosed] using hcount) rfl
        (fun ho => ?_) (by rw [hchildren]) hwritten
      rw [hopen, hclosed] at ho
      cases ho
  | awaitResponse n t d =>
    have hsame : s'.shared.restartRx = s.shared.restartRx := by
      rcases HeartbeatOp.restartRx_run hrun with hsame | ⟨heq, -⟩
      · rw [hshared, hsame]
      · cases heq
    have hnote : h.note s .heartbeat = { h with verdicts := h.verdicts ++ [⟨n, false⟩] } := by
      simp [ProbeHistory.note, hops, hp.fired]
    rw [System.restartsAfresh, hops] at hok
    rw [hnote]
    exact hs.concludes hsame hcount rfl (fun ho => ⟨by rwa [← hopen], hok⟩) (by rw [hchildren])
      hwritten
  | checkRestart =>
    simp only [HeartbeatOp.run] at hrun
    split at hrun
    · rename_i hshould
      cases hrun
      have hnote : h.note s .heartbeat = { h with
          signals := h.signals ++ [⟨h.verdicts.length, s.shared.children.length⟩] } := by
        simp [ProbeHistory.note, hops, hshould]
      have henough : cfg.heartbeat.maxFailures ≤ s.inspector.metrics.consecutiveFailures := by
        rw [HeartbeatState.shouldRestart, decide_eq_true_eq, hp.config] at hshould
        exact hshould
      rw [hnote]
      refine hs.signals_next (by rw [hshared]) hinspector (by rw [hopen]; exact id) hchildren
        (by simp [hops]) ?_ henough
      rw [hops', List.nil_append]
      exact hturn.notMem_rest
    · rename_i hshould
      cases hrun
      exact hquiet rfl (by rw [hshared]) (by simp [ProbeHistory.note, hops, hshould])

/-- The manager's operation. -/
theorem System.Fair.manager {choice : Choice} {op : ManagerOp} {rest ops : List ManagerOp}
    {loc : ManagerLocals} {sh : Shared} (hs : s.Fair cfg h)
    (hstep : Stepped cfg s (.manager choice) s') (hsound : s.Sound)
    (hops : s.manager = op :: rest)
    (hrun : op.run cfg.manager choice s.locals s.shared = some (loc, sh, ops))
    (hinspector : s'.inspector = s.inspector) (hheartbeat : s'.heartbeat = s.heartbeat)
    (hshared : s'.shared = sh) (hok : s.restartsAfresh cfg (.manager choice) = true) :
    s'.Fair cfg (h.note s (.manager choice)) := by
  have hmoved := ManagerOp.moved_run hrun
  rw [← hshared] at hmoved
  have hopen := hmoved.toServerOpen
  have hwritten : ∀ n k, s.probeWritten n k = true → s'.probeWritten n k = true :=
    fun n k => hstep.probeWritten hsound
  rcases ManagerOp.restartRx_run hrun with ⟨rfl, rfl, reason, hrestartRx⟩ | ⟨hrestartRx, hnot⟩
  · have hnote : h.note s (.manager .heartbeatRestart) = { h with signals := h.signals.tail } := by
      simp [ProbeHistory.note, hops]
    rw [← hshared] at hrestartRx
    rw [hnote]
    rcases hmoved.length_cases with hlength | ⟨pid, firstMsg, heq, -⟩
    · exact hs.taken hrestartRx hinspector hheartbeat hopen hlength hwritten
    · cases heq
  · have hnote : h.note s (.manager choice) = h := by
      cases choice with
      | heartbeatRestart =>
        simp only [ProbeHistory.note, hops]
        cases op with
        | select => exact absurd rfl (hnot rfl)
        | _ => rfl
      | _ => rfl
    rw [← hshared] at hrestartRx
    rw [hnote]
    rcases hmoved.length_cases with hlength | ⟨pid, firstMsg, rfl, rfl⟩
    · exact hs.frame hrestartRx (by rw [hinspector]) hopen hlength hwritten
        (by rw [hheartbeat]; exact id)
    · simp only [System.restartsAfresh, hops, Bool.and_eq_true, Bool.or_eq_true,
        decide_eq_true_eq, List.isEmpty_iff, Bool.not_eq_true', List.any_eq_false] at hok
      obtain ⟨⟨hnone, hidle⟩, hfresh⟩ := hok
      refine hs.spawned hrestartRx hinspector hnone (fun hmem => ?_) hfresh
      rw [hheartbeat] at hmem
      exact absurd rfl (hidle _ hmem)

/-- **A step keeps the history fair**, where it meets the condition. -/
theorem Stepped.fair (hstep : Stepped cfg s l s') (hsound : s.Sound) (hp : s.Probing cfg)
    (hs : s.Fair cfg h) (hok : s.restartsAfresh cfg l = true) : s'.Fair cfg (h.note s l) := by
  by_cases hl : ∃ choice, l = .manager choice
  · obtain ⟨choice, rfl⟩ := hl
    have hstep' := hstep
    cases hstep with
    | manager hops hlock hrun => exact hs.manager hstep' hsound hops hrun rfl rfl rfl hok
  · have hl' : ∀ choice, l ≠ .manager choice := fun choice heq => hl ⟨choice, heq⟩
    by_cases hheart : l = .heartbeat
    · subst hheart
      have hstep' := hstep
      cases hstep with
      | heartbeat hops hrun => exact hs.heartbeat hp hstep' hsound hops rfl hrun rfl rfl hok
    · have hnote : h.note s l = h := by
        cases l with
        | heartbeat => exact absurd rfl hheart
        | manager choice => exact absurd rfl (hl' choice)
        | _ => rfl
      have hmoves : s'.inspector.metrics.consecutiveFailures =
          s.inspector.metrics.consecutiveFailures ∧
          (.checkRestart ∈ s'.heartbeat → .checkRestart ∈ s.heartbeat) := by
        rcases hstep.inspector_cases with ⟨-, -, -, heq, -⟩ | ⟨-, hcases⟩
        · exact absurd heq hheart
        · rcases hcases with ⟨hsame, hops⟩ | ⟨hidle, ⟨hsame, hops⟩ | ⟨hops, id, hsame⟩⟩
          · rw [hsame, hops]
            exact ⟨rfl, id⟩
          · rw [hsame, hops]
            exact ⟨rfl, by simp⟩
          · have hturn := hp.turn
            rw [hidle] at hturn
            rw [hsame, hops, hturn.handleEvent id]
            exact ⟨rfl, by simp⟩
      rw [hnote]
      exact hs.frame (hstep.restartRx_eq hheart hl') hmoves.1
        (by rw [hstep.toServerOpen hl']; exact id) (hstep.written hl').1
        (fun n k => hstep.probeWritten hsound) hmoves.2

theorem fair_init (cfg : Config) : (System.init cfg).Fair cfg .start where
  length := rfl
  counted := rfl
  failed := by simp [ProbeHistory.start]
  recorded := by simp [ProbeHistory.start]
  signals := by simp [ProbeHistory.start]
  checking := by simp [System.init]
  written := fun _ => .inr (by simp [ProbeHistory.start])

/-- The runs of a mux, with the history of its probes. -/
abbrev ProbeRun (cfg : Config) (ok : System → Label → Prop) (s : System) (h : ProbeHistory) :
    Prop :=
  Run.Reach (Run.track (System.step cfg) ProbeHistory.note) (fun p l => ok p.1 l)
    (System.init cfg, .start) (s, h)

/-- **A heartbeat restart is justified by the child it ends**, in the runs
in which every child is spawned afresh, and every probe that is given up
was written to the newest one. The signal the manager leaves its loop on
was sent since the child was spawned, and the last `max_failures` verdicts
before it are failures of probes written to that child. -/
theorem restart_justified (cfg : Config) (s s' : System) (h : ProbeHistory)
    (hrun : ProbeRun cfg (fun s l => s.restartsAfresh cfg l = true) s h)
    (hselect : s.selects = true) (hstep : s.step cfg (.manager .heartbeatRestart) = some s') :
    ∃ σ σs, h.signals = σ :: σs ∧ s.Justified cfg h σ := by
  obtain ⟨rest, hops⟩ := System.selects_iff.1 hselect
  have hfair : s.Fair cfg h := by
    refine hrun.invariant_of (I := fun p => p.1.Fair cfg p.2)
      (J := fun p => p.1.Sound ∧ p.1.Probing cfg) (fun p hr => ?_) (fair_init cfg) ?_
    · exact ⟨Reachable.sound hr.untrack, hr.untrack.invariant (probing_init cfg)
        fun _ _ _ _ hs hstep => (stepped_of_step hstep).probing hs⟩
    · rintro ⟨s, h⟩ l ⟨s', h'⟩ hok ⟨hsound, hp⟩ hs hstep
      obtain ⟨hstep, rfl⟩ := Run.track_eq_some.1 hstep
      exact (stepped_of_step hstep).fair hsound hp hs hok
  have hopen : s.shared.toServerOpen = true := by
    by_contra hcon
    rw [Reachable.closedByReturn hrun.untrack (by simpa using hcon)] at hops
    cases hops
  have hsignal : s.shared.restartRx ≠ [] := by
    intro hnil
    rw [System.step, hops] at hstep
    simp [ManagerOp.run, ManagerOp.runSelect, hnil] at hstep
  have hlength := hfair.length
  cases hsignals : h.signals with
  | nil =>
    rw [hsignals, List.length_nil] at hlength
    exact absurd (List.length_eq_zero_iff.1 hlength.symm) hsignal
  | cons σ σs => exact ⟨σ, σs, rfl, hfair.signals hopen σ (by simp [hsignals])⟩

/-! ## One failure after three -/

/-- A probe is sent and written, and its time runs out. -/
def failedProbe : List Label :=
  [.heartbeatTick, .heartbeat, .heartbeat, .manager .received, .manager .go, .manager .written,
    .manager .go, .elapse 30000, .heartbeat, .heartbeat, .heartbeat, .heartbeat]

/-- The child is hung: three probes fail. -/
def threeFailuresRun : List Label :=
  startRun ++ handshakeRun ++
    [Label.manager .received, .manager .go, .manager .written, .manager .go] ++
    failedProbe ++ failedProbe ++ failedProbe

/-- The signal the manager is about to take is theirs. -/
theorem restart_justified_threeFailuresRun :
    ∃ σ σs, (Config.small.tracked ProbeHistory.note .start threeFailuresRun).2.signals = σ :: σs ∧
      (Config.small.tracked ProbeHistory.note .start threeFailuresRun).1.Justified .small
        (Config.small.tracked ProbeHistory.note .start threeFailuresRun).2 σ := by
  have htracks : Config.small.tracks ProbeHistory.note .start threeFailuresRun = true := by
    decide +kernel
  have henabled : ((Config.small.tracked ProbeHistory.note .start threeFailuresRun).1.step .small
      (.manager .heartbeatRestart)).isSome = true := by decide +kernel
  have hselect : (Config.small.tracked ProbeHistory.note .start threeFailuresRun).1.selects =
      true := by decide +kernel
  obtain ⟨s', hstep⟩ := Option.isSome_iff_exists.1 henabled
  exact restart_justified .small _ s' _ (Config.small.reachable_tracked
    (fun p l => p.1.restartsAfresh .small l) htracks (by decide +kernel)) hselect hstep

/-- The next child is spawned, and is probed once. -/
def onceMoreRun : List Label :=
  threeFailuresRun ++ [Label.manager .heartbeatRestart, .manager .go, .manager .go, .manager .go] ++
    respawnRun ++ failedProbe

/-- **The next child is ended by the failures of the last**: it has failed one
probe, and `max_failures` is three. -/
theorem not_justified_onceMoreRun : ¬ ∀ (cfg : Config) (s s' : System) (h : ProbeHistory),
    ProbeRun cfg Run.Any s h → s.selects = true →
    s.step cfg (.manager .heartbeatRestart) = some s' →
    ∃ σ σs, h.signals = σ :: σs ∧ s.Justified cfg h σ := by
  intro hall
  have htracks : Config.small.tracks ProbeHistory.note .start onceMoreRun = true := by
    decide +kernel
  have henabled : ((Config.small.tracked ProbeHistory.note .start onceMoreRun).1.step .small
      (.manager .heartbeatRestart)).isSome = true := by decide +kernel
  have hselect : (Config.small.tracked ProbeHistory.note .start onceMoreRun).1.selects =
      true := by decide +kernel
  obtain ⟨s', hstep⟩ := Option.isSome_iff_exists.1 henabled
  obtain ⟨σ, σs, hsignals, hjustified⟩ := hall .small _ s' _
    (Config.small.reachable_tracked (fun _ _ => true) htracks (by decide +kernel)).forget
    hselect hstep
  -- the signal was sent after four verdicts, and the second probe was not written to this child
  have hrecorded : (Config.small.tracked ProbeHistory.note .start onceMoreRun).2.signals.map
      (·.recorded) = [4] := by decide +kernel
  have hnot : ((lastVerdicts 3 ((Config.small.tracked ProbeHistory.note .start
      onceMoreRun).2.verdicts.take 4)).all fun v => (Config.small.tracked ProbeHistory.note .start
        onceMoreRun).1.probeWritten v.n (Config.small.tracked ProbeHistory.note .start
          onceMoreRun).1.newest) = false := by decide +kernel
  rw [hsignals] at hrecorded
  have hfour : σ.recorded = 4 := (List.cons.inj hrecorded).1
  have hfailed := hjustified.failed
  rw [hfour] at hfailed
  have hall' : ((lastVerdicts 3 ((Config.small.tracked ProbeHistory.note .start
      onceMoreRun).2.verdicts.take 4)).all fun v => (Config.small.tracked ProbeHistory.note .start
        onceMoreRun).1.probeWritten v.n (Config.small.tracked ProbeHistory.note .start
          onceMoreRun).1.newest) = true :=
    List.all_eq_true.2 fun v hv => (hfailed v hv).2
  rw [hall'] at hnot
  cases hnot

end Mux

end VcOperator
