import VcOperator.Mux.Helpers.Supervision
/-!
# What the supervisor leaves behind

`server_manager` returns in five places. Only the one after the cleanup has
set `server_status` to `Stopped` and sent a snapshot of it; the others
leave what was reported last: `Starting` or `Restarting` before a spawn,
`Running` when a pipe of the child is missing. And a shutdown that comes
between the lock section of the cleanup and the return finds `Restarting`.
-/

namespace VcOperator

namespace Mux

variable {cfg : Config} {s s' : System} {l : Label}

/-- **The end is reported**: the status is `Failed` or `Stopped`, there is no pid, and the
snapshot that was sent last shows that status. -/
structure System.EndReported (s : System) : Prop where
  status : s.shared.st.serverStatus = .stopped ∨ ∃ r, s.shared.st.serverStatus = .failed r
  childPid : s.shared.st.childPid = none
  shown : ∃ snap, s.shared.published.getLast? = some snap ∧
    snap.serverStatus = s.shared.st.serverStatus

/-- The manager has made up its mind to restart, and has not looked at the shutdown again. -/
def System.aboutToSleep (s : System) : Bool :=
  s.manager.any (· matches .afterReset true) && !s.manager.any (· matches .resetFields _)

/-- The operation returns where the manager has no child yet, or none with pipes. -/
def ManagerOp.returnsBare (choice : Choice) (down : Bool) : ManagerOp → Bool
  | .loopHead => down
  | .awaitFirst => down || !(choice matches .received)
  | .spawn _ => (choice matches .spawnFailed)
  | .takePipes _ => (choice matches .pipeMissing)
  | _ => false

/-- **The condition on a step**: the manager does not return before it has a child, or
without the child's pipes; and a shutdown does not come between the lock section
of the cleanup and the check after it. -/
def System.returnsStopped (s : System) : Label → Bool
  | .manager choice =>
    match s.manager with
    | op :: _ => !op.returnsBare choice s.shared.shutdown
    | [] => true
  | .shutdown => s.shared.shutdown || !s.aboutToSleep
  | _ => true

/-! ## What is reported along a run -/

/-- What is reported, by an operation of those `ops` the manager has still to do. -/
def Recounts (ops : List ManagerOp) (sh : Shared) : ManagerOp → Prop
  | .loopHead | .awaitFirst | .checkLimit _ | .spawn _ | .sleep _ =>
    sh.st.serverStatus = .starting ∨ sh.st.serverStatus = .restarting
  | .markRunning pid => ∃ firstMsg, ops = [.markRunning pid, .publishStatus, .takePipes firstMsg]
  | .takePipes _ => (∃ pid, .markRunning pid ∈ ops) ∨ sh.st.serverStatus = .running
  | .markFailed _ _ => ∀ op ∈ ops, op.reports = true ∨ ∃ b, op = .cleanup b
  | .resetFields b => ops = ManagerOp.cleanupOps b
  | .afterReset b =>
    ops = ManagerOp.cleanupOps b ∨ (∀ b', .resetFields b' ∉ ops) ∧ sh.st.childPid = none ∧
      sh.st.serverStatus = (if sh.shutdown || !b then .stopped else .restarting) ∧
      (.publishStatus ∈ ops ∨ ∃ snap, sh.published.getLast? = some snap ∧
        snap.serverStatus = sh.st.serverStatus)
  | .publishHoldingGuard => sh.stateLocked = true
  | _ => True

/-- **Each point of the loop has its report**, and the end has one. -/
structure System.Telling (s : System) : Prop where
  shaped : s.Shaped
  ended : s.manager = [] → s.EndReported
  tells : ∀ op ∈ s.manager, Recounts s.manager s.shared op

/-- What is shown stays shown, while the status does not change. -/
theorem Shown.trans {sh sh' : Shared} (h : Shown sh sh')
    (hstatus : sh'.st.serverStatus = sh.st.serverStatus)
    (hshown : ∃ snap, sh.published.getLast? = some snap ∧
      snap.serverStatus = sh.st.serverStatus) :
    ∃ snap, sh'.published.getLast? = some snap ∧
      snap.serverStatus = sh'.st.serverStatus := by
  rcases h with hsame | hfresh
  · rw [hsame, hstatus]
    exact hshown
  · exact hfresh

theorem System.EndReported.beside (h : s.EndReported) (hbeside : Beside s.shared s'.shared) :
    s'.EndReported where
  status := by
    rw [hbeside.serverStatus]
    exact h.status
  childPid := by
    rcases hbeside.childPid with hpid | hpid
    · rw [hpid, h.childPid]
    · exact hpid
  shown := hbeside.shown.trans hbeside.serverStatus h.shown

namespace Recounts

variable {op : ManagerOp} {ops rest : List ManagerOp} {sh sh' : Shared}

/-- What another task does leaves the report as it is. -/
theorem beside (h : Recounts ops sh op) (hbeside : Beside sh sh') : Recounts ops sh' op := by
  cases op with
  | loopHead | awaitFirst | checkLimit _ | spawn _ | sleep _ | takePipes _ =>
    unfold Recounts at h ⊢
    rw [hbeside.serverStatus]
    exact h
  | resetFields b => exact h
  | afterReset b =>
    refine h.imp_right fun ⟨hno, hpid, hstatus, hshown⟩ => ⟨hno, ?_, ?_, ?_⟩
    · rcases hbeside.childPid with hpid' | hpid'
      · rw [hpid', hpid]
      · exact hpid'
    · rw [hbeside.serverStatus, hbeside.shutdown]
      exact hstatus
    · exact hshown.imp_right (hbeside.shown.trans hbeside.serverStatus)
  | publishHoldingGuard =>
    unfold Recounts at h ⊢
    rw [hbeside.stateLocked]
    exact h
  | _ => trivial

/-- An operation that is done says no more of the others, unless it was the reset, the
mark of a new child, or the snapshot. -/
theorem tail {op' : ManagerOp} (hreset : ∀ b, op ≠ .resetFields b)
    (hmark : ∀ pid, op ≠ .markRunning pid) (hpublish : op ≠ .publishStatus)
    (h : Recounts (op :: rest) sh op') : Recounts rest sh op' := by
  have hne : ∀ b, op :: rest ≠ ManagerOp.cleanupOps b :=
    fun b heq => hreset b (List.cons.inj heq).1
  cases op' with
  | resetFields b => exact absurd h (hne b)
  | afterReset b =>
    obtain ⟨hno, hpid, hstatus, hshown⟩ := h.resolve_left (hne b)
    refine .inr ⟨fun b' hb' => hno b' (List.mem_cons_of_mem _ hb'), hpid, hstatus, ?_⟩
    exact hshown.imp_left fun hmem => (List.mem_cons.1 hmem).resolve_left hpublish.symm
  | takePipes firstMsg =>
    refine h.imp_left ?_
    rintro ⟨pid, hpid⟩
    exact ⟨pid, (List.mem_cons.1 hpid).resolve_left (hmark pid).symm⟩
  | markRunning pid =>
    obtain ⟨firstMsg, heq⟩ := h
    exact absurd (List.cons.inj heq).1 (hmark pid)
  | markFailed _ _ => exact fun op hop => h op (List.mem_cons_of_mem _ hop)
  | _ => exact h

/-- The snapshot that is due is sent. -/
theorem published (h : Recounts (.publishStatus :: rest) sh op) :
    Recounts rest sh.publishStatus op := by
  have hshown : ∃ snap, sh.publishStatus.published.getLast? = some snap ∧
      snap.serverStatus = sh.publishStatus.st.serverStatus :=
    ⟨_, List.getLast?_concat .., rfl⟩
  cases op with
  | resetFields b => cases h
  | afterReset b =>
    obtain ⟨hno, hpid, hstatus, -⟩ := h.resolve_left (fun heq => by cases heq)
    exact .inr ⟨fun b' hb' => hno b' (List.mem_cons_of_mem _ hb'), hpid, hstatus, .inr hshown⟩
  | takePipes firstMsg =>
    refine h.imp_left ?_
    rintro ⟨pid, hpid⟩
    exact ⟨pid, (List.mem_cons.1 hpid).resolve_left (fun heq => by cases heq)⟩
  | markRunning pid =>
    obtain ⟨firstMsg, heq⟩ := h
    cases heq
  | markFailed _ _ => exact fun op hop => h op (List.mem_cons_of_mem _ hop)
  | _ => exact h

/-- A new child is reported as running. -/
theorem running {pid : ℕ} (h : Recounts (.markRunning pid :: rest) sh (.markRunning pid)) :
    ∀ op ∈ rest, Recounts rest
      { sh with st := { sh.st with serverStatus := .running, childPid := some pid } } op := by
  obtain ⟨firstMsg, heq⟩ := h
  obtain rfl : rest = [.publishStatus, .takePipes firstMsg] := (List.cons.inj heq).2
  intro op hop
  simp only [List.mem_cons, List.not_mem_nil, or_false] at hop
  rcases hop with rfl | rfl
  · trivial
  · exact .inr rfl

/-- A failure is reported on the way to the cleanup. -/
theorem failed {status lastReset : String} {st : MuxState}
    (h : Recounts (.markFailed status lastReset :: rest) sh (.markFailed status lastReset)) :
    ∀ op ∈ rest, Recounts rest { sh with st := st } op := by
  have hrest : ∀ op ∈ rest, op.reports = true ∨ ∃ b, op = .cleanup b :=
    fun op hop => h op (List.mem_cons_of_mem _ hop)
  intro op hop
  rcases hrest op hop with hreports | ⟨b, rfl⟩
  · cases op with
    | markFailed _ _ => exact hrest
    | updateQueueDepth | publishStatus => trivial
    | _ => cases hreports
  · trivial

/-- The lock section of the cleanup reports the end, or the restart. -/
theorem reset {b : Bool} (h : Recounts (.resetFields b :: rest) sh (.resetFields b)) :
    ∀ op ∈ rest, Recounts rest (ManagerOp.runResetFields b sh) op := by
  obtain rfl : rest = [.updateQueueDepth, .publishStatus, .afterReset b] := (List.cons.inj h).2
  intro op hop
  simp only [List.mem_cons, List.not_mem_nil, or_false] at hop
  rcases hop with rfl | rfl | rfl
  · trivial
  · trivial
  · exact .inr ⟨by simp, rfl, rfl, .inl (by simp)⟩

/-- Where the manager goes on without a word on its child, there is nothing new to tell. -/
theorem goesOn (hgo : ManagerOp.GoesOn op ops) (hpoint : op.detail = false)
    (h : Recounts [op] sh op) : ∀ op' ∈ ops, Recounts ops sh op' := by
  intro op' hop'
  cases hgo with
  | lazy | eager | loop | halted | wrote =>
    obtain rfl := List.mem_singleton.1 hop'
    exact h
  | first | received =>
    simp only [List.mem_cons, List.not_mem_nil, or_false] at hop'
    rcases hop' with rfl | rfl
    · trivial
    · exact h
  | lost msg e =>
    have hreports : ∀ op ∈ [ManagerOp.markFailed e "write failure", .publishStatus, .cleanup true],
        op.reports = true ∨ ∃ b, op = .cleanup b := by simp [ManagerOp.reports]
    simp only [List.mem_cons, List.not_mem_nil, or_false] at hop'
    rcases hop' with rfl | rfl | rfl
    · exact hreports
    · trivial
    · trivial
  | piped firstMsg =>
    rcases List.mem_append.1 hop' with hop' | hop'
    · cases firstMsg with
      | none => cases hop'
      | some msg =>
        obtain rfl := List.mem_singleton.1 hop'
        trivial
    · obtain rfl := List.mem_singleton.1 hop'
      trivial
  | @left b details hdetails =>
    have hreports : ∀ op ∈ details ++ [.cleanup b], op.reports = true ∨ ∃ b, op = .cleanup b := by
      intro op hop
      rcases List.mem_append.1 hop with hop | hop
      · exact .inl (hdetails op hop)
      · exact .inr ⟨b, List.mem_singleton.1 hop⟩
    rcases hreports op' hop' with hreport | ⟨b', rfl⟩
    · cases op' with
      | markFailed _ _ => exact hreports
      | updateQueueDepth | publishStatus => trivial
      | _ => cases hreport
    · trivial
  | cleanup b =>
    simp only [ManagerOp.cleanupOps, List.mem_cons, List.not_mem_nil, or_false] at hop'
    rcases hop' with rfl | rfl | rfl | rfl
    · exact rfl
    · trivial
    · trivial
    · exact .inl rfl
  | writeFirst | updateQueueDepth => cases hpoint

/-- What an operation that reports nothing leaves as it is. -/
theorem plain (h : Recounts ops sh op) (hplain : ManagerOp.Plain sh sh') : Recounts ops sh' op :=
  h.beside ⟨hplain.serverStatus, hplain.restarts, hplain.stateLocked, hplain.spawned,
    hplain.shutdown, .inl hplain.childPid, .inl hplain.published⟩

end Recounts

section Turn

variable {mcfg : ManagerConfig} {choice : Choice} {loc loc' : ManagerLocals} {sh sh' : Shared}
  {op : ManagerOp} {rest ops : List ManagerOp}

/-- A bare turn returns, and leaves the report as it is. -/
theorem ManagerOp.run_of_returnsBare (h : op.run mcfg choice loc sh = some (loc', sh', ops))
    (hbare : op.returnsBare choice sh.shutdown = true) : ops = [] ∧ Plain sh sh' := by
  have hplain : ∀ {queue : List Value},
      Plain sh { sh with toServer := queue, toServerOpen := false } :=
    ⟨rfl, rfl, rfl, rfl, rfl, rfl, rfl⟩
  cases op with
  | loopHead =>
    have hdown : sh.shutdown = true := hbare
    rw [run, if_pos hdown] at h
    cases h
    exact ⟨rfl, hplain⟩
  | awaitFirst =>
    simp only [run] at h
    split at h
    · split at h
      · cases h
        exact ⟨rfl, hplain⟩
      · rename_i hdown
        simp [returnsBare, hdown] at hbare
    · cases h
      exact ⟨rfl, hplain⟩
    · split at h <;> cases h
      exact ⟨rfl, hplain⟩
    · cases h
  | spawn firstMsg =>
    cases choice with
    | spawnFailed =>
      cases h
      exact ⟨rfl, hplain⟩
    | _ => cases hbare
  | takePipes firstMsg =>
    cases choice with
    | pipeMissing =>
      cases h
      exact ⟨rfl, hplain⟩
    | _ => cases hbare
  | _ => cases hbare

/-- A turn that is not bare returns after the cleanup alone. -/
theorem ManagerOp.ne_nil_of_run (h : op.run mcfg choice loc sh = some (loc', sh', ops))
    (hbare : op.returnsBare choice sh.shutdown = false)
    (hop : op = .loopHead ∨ op = .awaitFirst ∨
      ∃ firstMsg, op = .spawn firstMsg ∨ op = .takePipes firstMsg) : ops ≠ [] := by
  rcases hop with rfl | rfl | ⟨firstMsg, rfl | rfl⟩
  · simp only [returnsBare] at hbare
    simp only [run, hbare, Bool.false_eq_true, if_false] at h
    split at h <;> cases h <;> simp
  · cases choice with
    | received =>
      have hup : sh.shutdown = false := by simpa [returnsBare] using hbare
      cases hqueue : sh.toServer with
      | nil =>
        simp only [run, hqueue] at h
        cases h
      | cons msg queue =>
        simp only [run, hqueue, hup, Bool.false_eq_true, if_false] at h
        cases h
        simp
    | _ => simp [returnsBare] at hbare
  · cases choice with
    | spawned pid =>
      cases h
      simp
    | spawnFailed => cases hbare
    | _ => cases h
  · cases choice with
    | go =>
      cases h
      simp
    | pipeMissing => cases hbare
    | _ => cases h

/-- **A turn of the manager tells what there is to tell.** -/
theorem ManagerOp.Turn.tells (h : Turn mcfg loc sh op loc' sh' ops)
    (hlock : (op.locks && sh.stateLocked) = false) (hpoint : op.detail = false → rest = [])
    (htells : ∀ op' ∈ op :: rest, Recounts (op :: rest) sh op') :
    ∀ op' ∈ ops ++ rest, Recounts (ops ++ rest) sh' op' := by
  have hhead := htells op List.mem_cons_self
  cases h with
  | leaves hop hplain =>
    have hrest : rest = [] := by
      refine hpoint ?_
      rcases hop with rfl | rfl | ⟨m, rfl | rfl⟩ <;> rfl
    intro op' hop'
    rw [hrest] at hop'
    cases hop'
  | stops hstop hplain =>
    intro op' hop'
    rw [hpoint rfl] at hop'
    cases hop'
  | goesOn hgo hplain =>
    cases hop : op.detail with
    | false =>
      rw [hpoint hop] at hhead ⊢
      rw [List.append_nil]
      exact fun op' hop' => (Recounts.goesOn hgo hop hhead op' hop').plain hplain
    | true =>
      have htail : (∀ b, op ≠ .resetFields b) → (∀ pid, op ≠ .markRunning pid) →
          op ≠ .publishStatus → ∀ op' ∈ rest, Recounts rest sh' op' :=
        fun hreset hmark hpublish op' hop' =>
          ((htells op' (List.mem_cons_of_mem _ hop')).tail hreset hmark hpublish).plain hplain
      cases hgo with
      | writeFirst | updateQueueDepth => exact htail (by simp) (by simp) (by simp)
      | lazy | eager | first | piped | loop | halted | received | left | wrote | lost
      | cleanup => cases hop
  | underLimit | woke =>
    rw [hpoint rfl]
    intro op' hop'
    obtain rfl := List.mem_singleton.1 hop'
    exact hhead
  | atLimit _ hlocked =>
    rw [hpoint rfl]
    intro op' hop'
    obtain rfl := List.mem_singleton.1 hop'
    exact hlocked
  | spawned =>
    rw [hpoint rfl]
    intro op' hop'
    simp only [List.append_nil, List.mem_cons, List.not_mem_nil, or_false] at hop'
    rcases hop' with rfl | rfl | rfl
    · exact ⟨_, rfl⟩
    · trivial
    · exact .inl ⟨_, List.mem_cons_self⟩
  | running => exact hhead.running
  | failed => exact hhead.failed
  | published hop =>
    rcases hop with rfl | rfl
    · exact fun op' hop' => (htells op' (List.mem_cons_of_mem _ hop')).published
    · have hlocked : sh.stateLocked = true := hhead
      rw [hlocked] at hlock
      cases hlock
  | reset => exact hhead.reset
  | @backoff b hgo =>
    rw [hpoint rfl] at hhead ⊢
    obtain ⟨-, -, hstatus, -⟩ := hhead.resolve_left (by simp [ManagerOp.cleanupOps])
    intro op' hop'
    obtain rfl := List.mem_singleton.1 hop'
    rw [hgo, if_neg Bool.false_ne_true] at hstatus
    exact .inr hstatus

end Turn

/-- A point of the loop goes on somewhere. -/
theorem ManagerOp.GoesOn.detail_of_nil {op : ManagerOp} {ops : List ManagerOp} (h : GoesOn op ops)
    (hnil : ops = []) : op.detail = true := by
  cases h with
  | writeFirst | updateQueueDepth => rfl
  | cleanup b => simp [cleanupOps] at hnil
  | lazy | eager | first | piped | loop | halted | received | left | wrote | lost => simp at hnil

/-- A shutdown that may come finds the manager at the end already, when it comes after the
reset. -/
theorem stops_of_returnsStopped {b : Bool} (hok : s.returnsStopped .shutdown = true)
    (hop : .afterReset b ∈ s.manager) (hno : ∀ b', .resetFields b' ∉ s.manager) :
    (s.shared.shutdown || !b) = true := by
  cases b with
  | false => simp
  | true =>
    have hdone : s.manager.any (· matches .resetFields _) = false := by
      rw [List.any_eq_false]
      intro op hmem
      cases op with
      | resetFields b' => exact absurd hmem (hno b')
      | _ => simp
    have hsleep : s.aboutToSleep = true := by
      rw [System.aboutToSleep, hdone, Bool.not_false, Bool.and_true, List.any_eq_true]
      exact ⟨_, hop, rfl⟩
    rw [System.returnsStopped, hsleep] at hok
    simpa using hok

/-- **Every step tells what there is to tell**, when the manager does not return bare, and
a shutdown does not come after the cleanup has reported a restart. -/
theorem Stepped.telling (h : Stepped cfg s l s') (hok : s.returnsStopped l = true)
    (hs : s.Telling) : s'.Telling := by
  have hshaped := h.shaped hs.shaped
  by_cases hl : ∀ choice, l ≠ .manager choice
  · have hmanager := h.manager_eq hl
    rcases (h.beside hl).2 with hbeside | ⟨rfl, hdown⟩
    · refine ⟨hshaped, fun hnil => ?_, ?_⟩
      · exact (hs.ended (hmanager ▸ hnil)).beside hbeside
      · rw [hmanager]
        exact fun op hop => (hs.tells op hop).beside hbeside
    · refine ⟨hshaped, fun hnil => ?_, ?_⟩
      · obtain ⟨hstatus, hpid, hshown⟩ := hs.ended (hmanager ▸ hnil)
        exact ⟨hdown ▸ hstatus, hdown ▸ hpid, hdown ▸ hshown⟩
      · rw [hmanager, hdown]
        intro op hop
        have htold := hs.tells op hop
        cases op with
        | afterReset b =>
          refine htold.imp_right fun ⟨hno, hpid, hstatus, hshown⟩ => ⟨hno, hpid, ?_, hshown⟩
          have hsame : (s.shared.shutdown || !b) = true :=
            stops_of_returnsStopped hok hop hno
          rw [hsame] at hstatus
          exact hstatus
        | _ => exact htold
  · push Not at hl
    obtain ⟨choice, rfl⟩ := hl
    cases h with
    | @manager _ op rest ops loc sh hops hlock hrun =>
      have hturn := ManagerOp.turn_run hrun
      have htells := hs.tells
      rw [hops] at htells
      have hbare : op.returnsBare choice s.shared.shutdown = false := by
        rw [System.returnsStopped, hops] at hok
        simpa using hok
      have hpoint : op.detail = false → rest = [] := hs.shaped.rest_eq_nil hops
      refine ⟨hshaped, fun hnil => ?_, hturn.tells hlock hpoint htells⟩
      obtain ⟨rfl, rfl⟩ := List.append_eq_nil_iff.1 hnil
      have hdetail : op.detail = false := by
        rcases hs.shaped.head_rest hops with ⟨-, details, op', heq, -⟩ | ⟨hdetail, -⟩
        · simp at heq
        · exact hdetail
      -- the one way to return that is left is the one after the cleanup
      have hhead := htells op List.mem_cons_self
      cases hturn with
      | leaves hop => exact absurd rfl (ManagerOp.ne_nil_of_run hrun hbare hop)
      | @stops b _ hstop hplain =>
        obtain ⟨-, hpid, hstatus, hshown⟩ := hhead.resolve_left (by simp [ManagerOp.cleanupOps])
        rw [if_pos hstop] at hstatus
        refine ⟨.inl (hplain.serverStatus.trans hstatus), hplain.childPid.trans hpid, ?_⟩
        show ∃ snap, sh.published.getLast? = some snap ∧ snap.serverStatus = sh.st.serverStatus
        rw [hplain.published, hplain.serverStatus]
        exact hshown.resolve_left (by simp)
      | goesOn hgo =>
        rw [hgo.detail_of_nil rfl] at hdetail
        cases hdetail
      | published hop =>
        rcases hop with rfl | rfl
        · cases hdetail
        · have hlocked : s.shared.stateLocked = true := hhead
          rw [hlocked] at hlock
          cases hlock
      | running | failed | reset => cases hdetail

theorem telling_init (cfg : Config) : (System.init cfg).Telling where
  shaped := .inr ⟨[], _, rfl, by simp, rfl⟩
  ended := fun hnil => by cases hnil
  tells := by
    intro op hop
    obtain rfl := List.mem_singleton.1 hop
    exact .inl rfl

theorem Reachable.telling (h : Reachable cfg (fun s l => s.returnsStopped l = true) s) :
    s.Telling :=
  h.invariant (telling_init cfg) fun _ _ _ hok hs hstep =>
    (stepped_of_step hstep).telling hok hs

/-- **The supervisor does not end while it reports life**, in the runs in which the manager
does not return before it has a child or without the child's pipes, and no shutdown
comes between the lock section of the cleanup and the check after it: once
`server_manager` has returned, the status is `Stopped` or `Failed`, there is no pid,
and a snapshot with that status was sent. -/
theorem endReported (cfg : Config) (s : System)
    (h : Reachable cfg (fun s l => s.returnsStopped l = true) s) (hreturned : s.manager = []) :
    s.EndReported :=
  h.telling.ended hreturned

/-- A shutdown reaches the manager at its `select!`. -/
def stopRun : List Label :=
  startRun ++ [Label.shutdown, .manager .shutdown, .manager .go, .manager .go, .manager .go,
    .manager .go, .manager .go]

theorem endReported_stopRun : (Config.small.after stopRun).EndReported := by
  have hruns : Config.small.runs stopRun = true := by decide +kernel
  have hreturned : (Config.small.after stopRun).manager.isEmpty = true := by decide +kernel
  exact endReported .small _
    (Config.small.reachable_of_meets System.returnsStopped hruns (by decide +kernel))
    (List.isEmpty_iff.1 hreturned)

/-- The first spawn fails. -/
def spawnFailsRun : List Label := [.manager .go, .manager .go, .manager .spawnFailed]

/-- **A supervisor that never had a child** leaves `Starting` behind. -/
theorem not_endReported_spawnFailsRun : ¬ ∀ (cfg : Config) (s : System),
    Reachable cfg Run.Any s → s.manager = [] → s.EndReported := by
  intro h
  have hruns : Config.small.runs spawnFailsRun = true := by decide +kernel
  have hreturned : (Config.small.after spawnFailsRun).manager.isEmpty = true := by decide +kernel
  have hstarting : (Config.small.after spawnFailsRun).shared.st.serverStatus = .starting := by
    decide +kernel
  have hstatus := (h .small _ (Config.small.reachable_after hruns)
    (List.isEmpty_iff.1 hreturned)).status
  rw [hstarting] at hstatus
  simp at hstatus

/-- **Each of the bare returns leaves life reported**: the status is `Starting` or
`Restarting`, or `Running` without the child's pipes. -/
theorem not_endReported_of_returnsBare {choice : Choice} {op : ManagerOp} {rest : List ManagerOp}
    (h : Reachable cfg (fun s l => s.returnsStopped l = true) s) (hops : s.manager = op :: rest)
    (hbare : op.returnsBare choice s.shared.shutdown = true)
    (hstep : s.step cfg (.manager choice) = some s') :
    s'.manager = [] ∧ ¬ s'.EndReported := by
  have hs := h.telling
  have htells := hs.tells op (hops ▸ List.mem_cons_self)
  have hdetail : op.detail = false := by
    cases op <;> first | rfl | cases hbare
  have hrest : rest = [] := hs.shaped.rest_eq_nil hops hdetail
  rw [hops, hrest] at htells
  cases stepped_of_step hstep with
  | @manager _ op' rest' ops loc sh hops' hlock hrun =>
    rw [hops] at hops'
    cases hops'
    obtain ⟨rfl, hplain⟩ := ManagerOp.run_of_returnsBare hrun hbare
    refine ⟨hrest, fun hend => ?_⟩
    have hstatus := hend.status
    simp only [hplain.serverStatus] at hstatus
    cases op with
    | loopHead | awaitFirst | spawn _ =>
      rcases htells with hst | hst <;> rw [hst] at hstatus <;> simp at hstatus
    | takePipes _ =>
      rcases htells with ⟨pid, hmem⟩ | hst
      · simp at hmem
      · rw [hst] at hstatus
        simp at hstatus
    | _ => cases hbare

end Mux

end VcOperator
