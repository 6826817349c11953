import VcOperator.Mux.Helpers.ManagerMoves
/-!
# What the manager keeps of its child

The fields by which `server_manager` reports on its child (`server_status`,
`restarts`, `child_pid`), and the locals it counts in. `Beside` is what
the other tasks do to them, and `ManagerOp.Turn` what an operation of the
manager does.
-/

namespace VcOperator

namespace Mux

variable {cfg : Config} {s s' : System} {l : Label} {sh sh' : Shared}

/-! ## The other tasks -/

/-- The watch channel is left as it is, or its value shows the present status. -/
def Shown (sh sh' : Shared) : Prop :=
  sh'.published = sh.published ∨
    ∃ snap, sh'.published.getLast? = some snap ∧ snap.serverStatus = sh'.st.serverStatus

/-- **What another task leaves alone**: the status, the count of restarts, the mutex and
the number of children. The pid may be cleared, and a snapshot sent. -/
structure Beside (sh sh' : Shared) : Prop where
  serverStatus : sh'.st.serverStatus = sh.st.serverStatus
  restarts : sh'.st.restarts = sh.st.restarts
  stateLocked : sh'.stateLocked = sh.stateLocked
  spawned : sh'.children.length = sh.children.length
  shutdown : sh'.shutdown = sh.shutdown
  childPid : sh'.st.childPid = sh.st.childPid ∨ sh'.st.childPid = none
  shown : Shown sh sh'

@[refl] theorem Beside.refl (sh : Shared) : Beside sh sh :=
  ⟨rfl, rfl, rfl, rfl, rfl, .inl rfl, .inl rfl⟩

/-- What sends nothing and changes no field of the report stands beside. -/
theorem Beside.of_eq (hstatus : sh'.st.serverStatus = sh.st.serverStatus)
    (hrestarts : sh'.st.restarts = sh.st.restarts) (hlocked : sh'.stateLocked = sh.stateLocked)
    (hchildren : sh'.children = sh.children) (hshutdown : sh'.shutdown = sh.shutdown)
    (hpid : sh'.st.childPid = sh.st.childPid) (hpublished : sh'.published = sh.published) :
    Beside sh sh' :=
  ⟨hstatus, hrestarts, hlocked, by rw [hchildren], hshutdown, .inl hpid, .inl hpublished⟩

theorem shown_publishStatus (sh : Shared) : Shown sh sh.publishStatus :=
  .inr ⟨_, List.getLast?_concat .., rfl⟩

theorem beside_publishStatus (sh : Shared) : Beside sh sh.publishStatus :=
  ⟨rfl, rfl, rfl, rfl, rfl, .inl rfl, shown_publishStatus sh⟩

theorem ClientOp.Forwarded.beside {c : ℕ} {msg : Tagged Value} {ops : List ClientOp}
    (h : Forwarded c msg sh sh' ops) : Beside sh sh' := by
  cases h <;> exact .of_eq rfl rfl rfl rfl rfl rfl rfl

theorem ClientOp.Initialized.beside {c : ℕ} {val : Value} {lid : Tagged Value}
    {ops : List ClientOp} (h : Initialized c val lid (initializePending sh c) sh' ops) :
    Beside sh sh' := by
  have hmark : Beside sh (initializePending sh c) := by
    unfold initializePending MuxState.markInitializePending
    split <;> exact .of_eq rfl rfl rfl rfl rfl rfl rfl
  obtain ⟨hstatus, hrestarts, -, -, -, hpid, -⟩ := hmark
  cases h <;> exact ⟨hstatus, hrestarts, rfl, rfl, rfl, hpid, .inl rfl⟩

theorem ClientOp.beside_run {enc : Value → ℕ} {c : ℕ} {op : ClientOp} {ops : List ClientOp}
    (h : op.run enc c sh = some (sh', ops)) : Beside sh sh' := by
  cases op with
  | forwardRequest msg =>
    rw [run, Option.some.injEq] at h
    exact (forwarded_of_run h).beside
  | flushBuffered buffered =>
    cases buffered with
    | nil => cases h; rfl
    | cons msg buffered =>
      cases hrun : runForwardRequest c msg sh with
      | mk sh₁ ops₁ =>
        rw [run, hrun] at h
        cases h
        exact (forwarded_of_run hrun).beside
  | handleInitialize val lid =>
    rw [run, Option.some.injEq] at h
    exact (initialized_of_run h).beside
  | send msg isInitialize =>
    simp only [run] at h
    split at h
    · cases h; rfl
    · split at h <;> cases h
      cases isInitialize <;> exact .of_eq rfl rfl rfl rfl rfl rfl rfl
  | markServerInitialized msg | trySend msg | checkHandshake msg =>
    simp only [run] at h
    split at h <;> cases h <;> exact .of_eq rfl rfl rfl rfl rfl rfl rfl
  | completeHandshake =>
    cases h
    unfold MuxState.markHandshakeComplete
    split <;> exact .of_eq rfl rfl rfl rfl rfl rfl rfl
  | bufferMessage msg =>
    cases h
    unfold MuxState.bufferMessage
    split <;> exact .of_eq rfl rfl rfl rfl rfl rfl rfl
  | publishStatus => cases h; exact beside_publishStatus sh
  | handleClientMessage _ | rejectTooLarge _ | updateQueueDepth
  | rejectHandshakeTimeout | unregisterClient | releasePermit =>
    cases h; exact .of_eq rfl rfl rfl rfl rfl rfl rfl

theorem RouterOp.beside_run {order : List String} {op : RouterOp} {ops : List RouterOp}
    (h : op.run order sh = some (sh', ops)) : Beside sh sh' := by
  cases op with
  | takePending _ _ | findTarget _ _ =>
    simp only [run] at h
    split at h <;> cases h <;> exact .of_eq rfl rfl rfl rfl rfl rfl rfl
  | resetState _ =>
    simp only [run] at h
    split at h <;> cases h
    exact ⟨rfl, rfl, rfl, rfl, rfl, .inr rfl, .inl rfl⟩
  | publishStatus => cases h; exact beside_publishStatus sh
  | broadcast _ | cacheInitialize _ _ | sendTarget _ _ =>
    cases h; exact .of_eq rfl rfl rfl rfl rfl rfl rfl

theorem ReaperOp.beside_run {order : List String} {op : ReaperOp} {ops : List ReaperOp}
    (h : op.run order sh = some (sh', ops)) : Beside sh sh' := by
  cases op with
  | reap _ =>
    simp only [run] at h
    split at h <;> cases h
    exact .of_eq rfl rfl rfl rfl rfl rfl rfl
  | publishStatus => cases h; exact beside_publishStatus sh
  | readTimeout | replyExpired _ => cases h; exact .of_eq rfl rfl rfl rfl rfl rfl rfl

theorem HeartbeatOp.beside_run {hb hb' : HeartbeatState} {op : HeartbeatOp}
    {ops : List HeartbeatOp} (h : op.run hb sh = some (hb', sh', ops)) : Beside sh sh' := by
  cases op with
  | probe | checkRestart =>
    simp only [run] at h
    split at h <;> cases h <;> exact .of_eq rfl rfl rfl rfl rfl rfl rfl
  | sendProbe _ _ | awaitResponse _ _ _ =>
    simp only [run] at h
    split at h
    · cases h; rfl
    · split at h <;> cases h
      exact .of_eq rfl rfl rfl rfl rfl rfl rfl
  | publishStatus => cases h; exact beside_publishStatus sh
  | updateStateMetrics => cases h; exact .of_eq rfl rfl rfl rfl rfl rfl rfl

/-- **A step that is not the manager's stands beside it**, but for the shutdown. -/
theorem Stepped.beside (h : Stepped cfg s l s') (hl : ∀ choice, l ≠ .manager choice) :
    s'.locals = s.locals ∧ (Beside s.shared s'.shared ∨
      l = .shutdown ∧ s'.shared = { s.shared with shutdown := true }) := by
  have hmodify : ∀ (k : ℕ) (f : Child → Child), Beside s.shared (s.updateChild k f).shared :=
    fun k f => ⟨rfl, rfl, rfl, List.length_modify .., rfl, .inl rfl, .inl rfl⟩
  cases h with
  | manager => exact absurd rfl (hl _)
  | handler hops hrun | writer hops hrun => exact ⟨rfl, .inl (ClientOp.beside_run hrun)⟩
  | @routerTurn event rest =>
    refine ⟨rfl, .inl ?_⟩
    rw [RouterOp.dispatch_frame event rest s.shared]
    exact .of_eq rfl rfl rfl rfl rfl rfl rfl
  | router hops hrun => exact ⟨rfl, .inl (RouterOp.beside_run hrun)⟩
  | reaper hops hrun => exact ⟨rfl, .inl (ReaperOp.beside_run hrun)⟩
  | heartbeat hops hrun => exact ⟨rfl, .inl (HeartbeatOp.beside_run hrun)⟩
  | @readerEnds k | @childExits k => exact ⟨rfl, .inl (hmodify k _)⟩
  | shutdown => exact ⟨rfl, .inr ⟨rfl, rfl⟩⟩
  | connect | receive | disconnect | decodeError | handshakeTimeout | handshakeTick
  | writerFails | reaperTick | heartbeatTick | heartbeatEvent | childOutput | elapse =>
    exact ⟨rfl, .inl (.of_eq rfl rfl rfl rfl rfl rfl rfl)⟩

/-! ## The manager -/

namespace ManagerOp

/-- What the manager reports is left as it is. -/
structure Plain (sh sh' : Shared) : Prop where
  serverStatus : sh'.st.serverStatus = sh.st.serverStatus
  restarts : sh'.st.restarts = sh.st.restarts
  stateLocked : sh'.stateLocked = sh.stateLocked
  spawned : sh'.children.length = sh.children.length
  shutdown : sh'.shutdown = sh.shutdown
  childPid : sh'.st.childPid = sh.st.childPid
  published : sh'.published = sh.published

@[refl] theorem Plain.refl (sh : Shared) : Plain sh sh := ⟨rfl, rfl, rfl, rfl, rfl, rfl, rfl⟩

/-- What the cleanup does, from its lock section on. -/
def cleanupOps (b : Bool) : List ManagerOp :=
  [.resetFields b, .updateQueueDepth, .publishStatus, .afterReset b]

/-- Where the manager goes on without a word on its child. -/
inductive GoesOn : ManagerOp → List ManagerOp → Prop
  | lazy : GoesOn .loopHead [.awaitFirst]
  | eager : GoesOn .loopHead [.checkLimit none]
  | first (msg : Value) : GoesOn .awaitFirst [.updateQueueDepth, .checkLimit (some msg)]
  | piped (firstMsg : Option Value) : GoesOn (.takePipes firstMsg)
      ((match firstMsg with | some msg => [.writeFirst msg] | none => []) ++ [.writeLoop])
  | loop : GoesOn .writeLoop [.select]
  | halted : GoesOn .writeLoop [.cleanup true]
  | received (msg : Value) : GoesOn .select [.updateQueueDepth, .writeMessage msg]
  | left (b : Bool) {details : List ManagerOp} (h : ∀ op ∈ details, op.reports = true) :
      GoesOn .select (details ++ [.cleanup b])
  | wrote (msg : Value) : GoesOn (.writeMessage msg) [.writeLoop]
  | lost (msg : Value) (e : String) : GoesOn (.writeMessage msg)
      [.markFailed e "write failure", .publishStatus, .cleanup true]
  | cleanup (b : Bool) : GoesOn (.cleanup b) (cleanupOps b)
  | writeFirst (msg : Value) : GoesOn (.writeFirst msg) []
  | updateQueueDepth : GoesOn .updateQueueDepth []

/-- **One turn of the manager**, as far as it concerns its report on the child and the
locals it counts in. -/
inductive Turn (cfg : ManagerConfig) (loc : ManagerLocals) (sh : Shared) :
    ManagerOp → ManagerLocals → Shared → List ManagerOp → Prop
  /-- `server_manager` returns before it has a child, or without its pipes. -/
  | leaves {op : ManagerOp} {sh' : Shared}
      (hop : op = .loopHead ∨ op = .awaitFirst ∨
        ∃ firstMsg, op = .spawn firstMsg ∨ op = .takePipes firstMsg)
      (h : Plain sh sh') : Turn cfg loc sh op loc sh' []
  /-- It returns after the cleanup. -/
  | stops {b : Bool} {sh' : Shared} (hstop : (sh.shutdown || !b) = true) (h : Plain sh sh') :
      Turn cfg loc sh (.afterReset b) loc sh' []
  | goesOn {op : ManagerOp} {ops : List ManagerOp} {sh' : Shared} (hgo : GoesOn op ops)
      (h : Plain sh sh') : Turn cfg loc sh op loc sh' ops
  | underLimit {firstMsg : Option Value} (hlimit : limitReached cfg loc = false) :
      Turn cfg loc sh (.checkLimit firstMsg) loc sh [.spawn firstMsg]
  | atLimit {firstMsg : Option Value} {sh' : Shared} (hlimit : limitReached cfg loc = true)
      (hlocked : sh'.stateLocked = true) (hspawned : sh'.children.length = sh.children.length)
      (hrestarts : sh'.st.restarts = sh.st.restarts) :
      Turn cfg loc sh (.checkLimit firstMsg) loc sh' [.publishHoldingGuard]
  | spawned {pid : ℕ} {firstMsg : Option Value} :
      Turn cfg loc sh (.spawn firstMsg) loc
        { sh with children := sh.children ++ [⟨pid, true, [], false⟩] }
        [.markRunning pid, .publishStatus, .takePipes firstMsg]
  | running {pid : ℕ} : Turn cfg loc sh (.markRunning pid) loc
      { sh with st := { sh.st with serverStatus := .running, childPid := some pid } } []
  | failed {status lastReset : String} : Turn cfg loc sh (.markFailed status lastReset) loc
      { sh with st := { sh.st with
          serverStatus := .failed status
          lastReset := some lastReset } } []
  | published {op : ManagerOp} (hop : op = .publishStatus ∨ op = .publishHoldingGuard) :
      Turn cfg loc sh op loc sh.publishStatus []
  | reset {b : Bool} : Turn cfg loc sh (.resetFields b) loc (runResetFields b sh) []
  | backoff {b : Bool} (hgo : (sh.shutdown || !b) = false) :
      Turn cfg loc sh (.afterReset b) { loc with restarts := loc.restarts + 1 } sh
        [.sleep (sh.now + loc.backoff)]
  | woke {t : ℕ} : Turn cfg loc sh (.sleep t)
      { loc with backoff := min (loc.backoff * 2) cfg.restartBackoffMax } sh [.loopHead]

variable {mcfg : ManagerConfig} {choice : Choice} {loc loc' : ManagerLocals} {op : ManagerOp}
  {ops : List ManagerOp}

theorem turn_runSelect (h : runSelect choice sh = some (sh', ops)) :
    Turn mcfg loc sh .select loc sh' ops := by
  cases choice with
  | received =>
    simp only [runSelect] at h
    split at h <;> cases h
    exact .goesOn (.received _) ⟨rfl, rfl, rfl, rfl, rfl, rfl, rfl⟩
  | queueClosed =>
    simp only [runSelect] at h
    split at h <;> cases h
    have hdetails : ∀ op ∈ [updateQueueDepth], op.reports = true := by simp [reports]
    exact .goesOn (.left false hdetails) (.refl sh)
  | childExited =>
    simp only [runSelect] at h
    split at h <;> cases h
    have hdetails : ∀ op ∈ [publishStatus], op.reports = true := by simp [reports]
    exact .goesOn (.left true hdetails) (.refl sh)
  | waitError e =>
    cases h
    have hdetails : ∀ op ∈ [markFailed e "wait error", publishStatus], op.reports = true := by
      simp [reports]
    exact .goesOn (.left true hdetails) (.refl sh)
  | joinError =>
    cases h
    have hdetails : ∀ op ∈ [publishStatus], op.reports = true := by simp [reports]
    exact .goesOn (.left true hdetails) (.refl sh)
  | heartbeatRestart =>
    simp only [runSelect] at h
    split at h
    · cases h
    · rename_i reason rest hreasons
      cases h
      have hdetails : ∀ op ∈ [markFailed reason reason, publishStatus], op.reports = true := by
        simp [reports]
      exact .goesOn (.left true hdetails) ⟨rfl, rfl, rfl, rfl, rfl, rfl, rfl⟩
  | shutdown =>
    simp only [runSelect] at h
    split at h <;> cases h
    have hdetails : ∀ op ∈ ([] : List ManagerOp), op.reports = true := by simp
    exact .goesOn (.left true hdetails) (.refl sh)
  | go | spawned _ | spawnFailed | pipeMissing | written | writeFailed _ => cases h

/-- **Inversion.** -/
theorem turn_run (h : op.run mcfg choice loc sh = some (loc', sh', ops)) :
    Turn mcfg loc sh op loc' sh' ops := by
  have hreturned : Plain sh { sh with toServerOpen := false } :=
    ⟨rfl, rfl, rfl, rfl, rfl, rfl, rfl⟩
  have hmodify : ∀ f : List Child → List Child, (∀ cs, (f cs).length = cs.length) →
      Plain sh { sh with children := f sh.children } :=
    fun f hf => ⟨rfl, rfl, rfl, hf _, rfl, rfl, rfl⟩
  cases op with
  | loopHead =>
    simp only [run] at h
    split at h
    · cases h; exact .leaves (.inl rfl) hreturned
    · split at h <;> cases h
      · exact .goesOn .lazy (.refl sh)
      · exact .goesOn .eager (.refl sh)
  | awaitFirst =>
    simp only [run] at h
    split at h
    · split at h <;> cases h
      · exact .leaves (.inr (.inl rfl)) ⟨rfl, rfl, rfl, rfl, rfl, rfl, rfl⟩
      · exact .goesOn (.first _) ⟨rfl, rfl, rfl, rfl, rfl, rfl, rfl⟩
    · cases h; exact .leaves (.inr (.inl rfl)) hreturned
    · split at h <;> cases h
      exact .leaves (.inr (.inl rfl)) hreturned
    · cases h
  | checkLimit firstMsg =>
    simp only [run] at h
    split at h
    · rename_i hlimit
      cases h
      exact .atLimit hlimit rfl rfl rfl
    · rename_i hlimit
      cases h
      exact .underLimit (by simpa using hlimit)
  | publishHoldingGuard => cases h; exact .published (.inr rfl)
  | spawn firstMsg =>
    simp only [run] at h
    split at h <;> cases h
    · exact .spawned
    · exact .leaves (.inr (.inr ⟨_, .inl rfl⟩)) hreturned
  | markRunning pid => cases h; exact .running
  | takePipes firstMsg =>
    simp only [run] at h
    split at h <;> cases h
    · exact .goesOn (.piped _) (hmodify startReader fun cs => List.length_modify ..)
    · exact .leaves (.inr (.inr ⟨_, .inr rfl⟩)) hreturned
  | writeFirst msg =>
    simp only [run] at h
    split at h <;> cases h
    · exact .goesOn (.writeFirst _) (hmodify (writeToChild msg) fun cs => List.length_modify ..)
    · exact .goesOn (.writeFirst _) (.refl _)
  | writeLoop =>
    simp only [run] at h
    cases hdown : sh.shutdown <;> simp only [hdown] at h <;> cases h
    · exact .goesOn .loop (.refl _)
    · exact .goesOn .halted (.refl _)
  | select =>
    obtain ⟨⟨sh₁, ops₁⟩, hsel, heq⟩ := Option.map_eq_some_iff.1 h
    cases heq
    exact turn_runSelect hsel
  | writeMessage msg =>
    simp only [run] at h
    split at h <;> cases h
    · exact .goesOn (.wrote _) (hmodify (writeToChild msg) fun cs => List.length_modify ..)
    · exact .goesOn (.lost _ _) (.refl _)
  | markFailed status lastReset => cases h; exact .failed
  | cleanup b => cases h; exact .goesOn (.cleanup b) ⟨rfl, rfl, rfl, rfl, rfl, rfl, rfl⟩
  | resetFields b => cases h; exact .reset
  | afterReset b =>
    simp only [run] at h
    split at h
    · rename_i hstop
      cases h
      exact .stops hstop hreturned
    · rename_i hgo
      cases h
      exact .backoff (by simpa using hgo)
  | sleep t =>
    simp only [run] at h
    split at h <;> cases h
    exact .woke
  | updateQueueDepth => cases h; exact .goesOn .updateQueueDepth ⟨rfl, rfl, rfl, rfl, rfl, rfl, rfl⟩
  | publishStatus => cases h; exact .published (.inl rfl)

end ManagerOp

/-- A step is a turn of the manager, or one beside it. -/
theorem Stepped.turn_cases (h : Stepped cfg s l s') :
    (∃ choice op rest ops, l = .manager choice ∧ s.manager = op :: rest ∧
      (op.locks && s.shared.stateLocked) = false ∧ s'.manager = ops ++ rest ∧
      ManagerOp.Turn cfg.manager s.locals s.shared op s'.locals s'.shared ops) ∨
    (∀ choice, l ≠ .manager choice) ∧ s'.manager = s.manager ∧ s'.locals = s.locals ∧
      (Beside s.shared s'.shared ∨
        l = .shutdown ∧ s'.shared = { s.shared with shutdown := true }) := by
  by_cases hl : ∀ choice, l ≠ .manager choice
  · exact .inr ⟨hl, h.manager_eq hl, h.beside hl⟩
  · push Not at hl
    obtain ⟨choice, rfl⟩ := hl
    cases h with
    | manager hops hlock hrun =>
      exact .inl ⟨_, _, _, _, rfl, hops, hlock, rfl, ManagerOp.turn_run hrun⟩

/-! ## A small mux -/

/-- An incarnation exits at the manager's `select!`, which cleans up and sleeps. -/
def endRun (k : ℕ) : List Label :=
  [.childExits k, .manager .childExited, .manager .go, .manager .go, .manager .go, .manager .go,
    .manager .go, .manager .go]

/-- The sleep ends after `ms`, and the next child is started. -/
def respawnAfter (ms pid : ℕ) : List Label :=
  [.elapse ms, .manager .go, .manager .go, .manager .go, .manager (.spawned pid), .manager .go,
    .manager .go, .manager .go, .manager .go]

end Mux

end VcOperator
