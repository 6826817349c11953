import VcOperator.Mux.Helpers.Pipeline
/-!
# Counting the resets

The manager queues one reset for each incarnation it ends. With the number
of resets that were processed as a history (`noteReset`), the incarnation
a reset belongs to is known: `System.Counted` says how many children there
are, from the resets and the point of its loop the manager is at.
-/

namespace VcOperator

namespace Mux

variable {cfg : Config} {ok : System → Label → Prop} {s s' : System} {l : Label}
variable {sh sh' : Shared}

/-! ## What the manager tells of the child -/

/-- What the manager tells of the child is left as it is: its pid, and the
events that wait for the router. -/
structure SameTold (sh sh' : Shared) : Prop where
  childPid : sh'.st.childPid = sh.st.childPid
  serverEvents : sh'.serverEvents = sh.serverEvents

@[refl] theorem SameTold.refl (sh : Shared) : SameTold sh sh := ⟨rfl, rfl⟩

theorem ClientOp.Forwarded.sameTold {c : ℕ} {msg : Tagged Value} {ops : List ClientOp}
    (h : Forwarded c msg sh sh' ops) : SameTold sh sh' := by
  cases h <;> exact ⟨rfl, rfl⟩

theorem ClientOp.sameTold_run {enc : Value → ℕ} {c : ℕ} {op : ClientOp} {ops : List ClientOp}
    (h : op.run enc c sh = some (sh', ops)) : SameTold sh sh' := by
  cases op with
  | forwardRequest msg =>
    rw [run, Option.some.injEq] at h
    exact (forwarded_of_run h).sameTold
  | flushBuffered buffered =>
    cases buffered with
    | nil => cases h; rfl
    | cons msg buffered =>
      cases hrun : runForwardRequest c msg sh with
      | mk sh₁ ops₁ =>
        rw [run, hrun] at h
        cases h
        exact (forwarded_of_run hrun).sameTold
  | handleInitialize val lid =>
    rw [run, Option.some.injEq] at h
    have hmark : (initializePending sh c).st.childPid = sh.st.childPid := by
      unfold initializePending MuxState.markInitializePending
      dsimp only
      split <;> rfl
    cases initialized_of_run h <;> exact ⟨hmark, rfl⟩
  | send msg isInitialize =>
    simp only [run] at h
    split at h
    · cases h; rfl
    · split at h <;> cases h
      cases isInitialize <;> exact ⟨rfl, rfl⟩
  | markServerInitialized msg | trySend msg | checkHandshake msg =>
    simp only [run] at h
    split at h <;> cases h <;> exact ⟨rfl, rfl⟩
  | completeHandshake =>
    cases h
    refine ⟨?_, rfl⟩
    unfold MuxState.markHandshakeComplete
    dsimp only
    split <;> rfl
  | bufferMessage msg =>
    cases h
    refine ⟨?_, rfl⟩
    unfold MuxState.bufferMessage
    dsimp only
    split <;> rfl
  | handleClientMessage _ | rejectTooLarge _ | updateQueueDepth | publishStatus
  | rejectHandshakeTimeout | unregisterClient | releasePermit => cases h; exact ⟨rfl, rfl⟩

theorem ReaperOp.sameTold_run {order : List String} {op : ReaperOp} {ops : List ReaperOp}
    (h : op.run order sh = some (sh', ops)) : SameTold sh sh' := by
  rw [run_frame h]
  exact ⟨rfl, rfl⟩

theorem HeartbeatOp.sameTold_run {hb hb' : HeartbeatState} {op : HeartbeatOp}
    {ops : List HeartbeatOp} (h : op.run hb sh = some (hb', sh', ops)) : SameTold sh sh' := by
  rw [run_frame h]
  exact ⟨rfl, rfl⟩

/-- The router clears the pid, where it processes a reset, and goes on with
none. -/
theorem RouterOp.told_run {order : List String} {op : RouterOp} {ops : List RouterOp}
    (h : op.run order sh = some (sh', ops)) :
    sh'.serverEvents = sh.serverEvents ∧
      (sh'.st.childPid = sh.st.childPid ∨ sh'.st.childPid = none) ∧
      ∀ reason, .resetState reason ∉ ops := by
  cases op with
  | resetState _ =>
    simp only [run] at h
    split at h <;> cases h
    exact ⟨rfl, .inr rfl, by simp⟩
  | takePending _ p =>
    simp only [run] at h
    split at h <;> cases h
    · exact ⟨rfl, .inl rfl, by simp⟩
    · refine ⟨rfl, .inl rfl, fun reason hop => ?_⟩
      rcases List.mem_append.1 hop with hop | hop
      · split at hop
        · cases List.mem_singleton.1 hop
        · cases hop
      · cases List.mem_singleton.1 hop
  | findTarget _ _ =>
    simp only [run] at h
    split at h <;> cases h <;> exact ⟨rfl, .inl rfl, by simp⟩
  | broadcast _ | cacheInitialize _ _ | sendTarget _ _ | publishStatus =>
    cases h; exact ⟨rfl, .inl rfl, by simp⟩

namespace ManagerOp

variable {mcfg : ManagerConfig} {choice : Choice} {loc loc' : ManagerLocals} {op : ManagerOp}
  {ops : List ManagerOp}

/-- **What an operation of the manager tells of the child.** -/
inductive Tells (sh : Shared) : ManagerOp → Shared → Prop
  | nothing {op : ManagerOp} {sh' : Shared} (hop : ∀ b, op ≠ .cleanup b ∧ op ≠ .resetFields b)
      (h : SameTold sh sh') : Tells sh op sh'
  | running {pid : ℕ} {sh' : Shared} (h : sh'.serverEvents = sh.serverEvents) :
      Tells sh (.markRunning pid) sh'
  | reset {b : Bool} {reason : String} {sh' : Shared} (hpid : sh'.st.childPid = sh.st.childPid)
      (h : sh'.serverEvents = sh.serverEvents ++ [.reset reason]) : Tells sh (.cleanup b) sh'
  | gone {op : ManagerOp} {sh' : Shared} (hop : ∀ b, op ≠ .cleanup b)
      (hpid : sh'.st.childPid = none) (h : sh'.serverEvents = sh.serverEvents) : Tells sh op sh'

theorem tells_runSelect (h : runSelect choice sh = some (sh', ops)) : SameTold sh sh' := by
  cases choice with
  | received | heartbeatRestart | queueClosed | shutdown | childExited =>
    simp only [runSelect] at h
    split at h <;> cases h
    exact ⟨rfl, rfl⟩
  | waitError _ | joinError => cases h; rfl
  | go | spawned _ | spawnFailed | pipeMissing | written | writeFailed _ => cases h

theorem tells_run (h : op.run mcfg choice loc sh = some (loc', sh', ops)) : Tells sh op sh' := by
  cases op with
  | loopHead =>
    simp only [run] at h
    split at h
    · cases h; exact .nothing (by simp) ⟨rfl, rfl⟩
    · split at h <;> cases h <;> exact .nothing (by simp) ⟨rfl, rfl⟩
  | awaitFirst =>
    simp only [run] at h
    split at h
    · split at h <;> cases h <;> exact .nothing (by simp) ⟨rfl, rfl⟩
    · cases h; exact .nothing (by simp) ⟨rfl, rfl⟩
    · split at h <;> cases h
      exact .nothing (by simp) ⟨rfl, rfl⟩
    · cases h
  | checkLimit _ =>
    simp only [run] at h
    split at h <;> cases h
    · exact .gone (by simp) rfl rfl
    · exact .nothing (by simp) ⟨rfl, rfl⟩
  | spawn _ | takePipes _ | writeFirst _ | writeMessage _ | afterReset _ | sleep _ =>
    simp only [run] at h
    split at h <;> cases h <;> exact .nothing (by simp) ⟨rfl, rfl⟩
  | select =>
    obtain ⟨⟨sh₁, ops₁⟩, hsel, heq⟩ := Option.map_eq_some_iff.1 h
    cases heq
    exact .nothing (by simp) (tells_runSelect hsel)
  | markRunning _ => cases h; exact .running rfl
  | cleanup _ => cases h; exact .reset rfl rfl
  | resetFields _ => cases h; exact .gone (by simp) rfl rfl
  | writeLoop | markFailed _ _ | updateQueueDepth | publishStatus | publishHoldingGuard =>
    cases h; exact .nothing (by simp) ⟨rfl, rfl⟩

end ManagerOp

/-! ## Counting the resets -/

/-- The operation queues a reset. -/
def ManagerOp.isCleanup : ManagerOp → Bool
  | cleanup _ => true
  | _ => false

/-- The event is a reset. -/
def ServerEvent.isReset : ServerEvent → Bool
  | reset _ => true
  | message _ => false

/-- The operation processes a reset. -/
def RouterOp.isReset : RouterOp → Bool
  | resetState _ => true
  | _ => false

/-- A message of the child brings no reset. -/
theorem RouterOp.countP_handleServerMessage (msg : Value) :
    (handleServerMessage msg).countP isReset = 0 := by
  unfold handleServerMessage
  split
  · rfl
  · split
    · rfl
    · split <;> rfl

namespace System

/-- The resets that are queued, or in the router's hands. -/
def resetsOutstanding (s : System) : ℕ :=
  s.shared.serverEvents.countP ServerEvent.isReset + s.router.countP RouterOp.isReset

/-- The reason of the reset the router is about to process. -/
def resetting (s : System) : Option String :=
  match s.router with
  | .resetState reason :: _ => some reason
  | _ => none

/-- The step processes a reset. -/
def processesReset (s : System) : Label → Bool
  | .router _ => s.resetting.isSome
  | _ => false

/-- The step ends an incarnation: it queues its reset. -/
def endsChild (s : System) : Label → Bool
  | .manager _ =>
    match s.manager with
    | op :: _ => op.isCleanup
    | [] => false
  | _ => false

theorem endsChild_manager {s : System} {op : ManagerOp} {rest : List ManagerOp}
    (hops : s.manager = op :: rest) (choice : Choice) :
    s.endsChild (.manager choice) = op.isCleanup := by
  rw [endsChild, hops]

theorem endsChild_of_not_manager {l : Label} (s : System) (hl : ∀ choice, l ≠ .manager choice) :
    s.endsChild l = false := by
  cases l with
  | manager choice => exact absurd rfl (hl choice)
  | _ => rfl

end System

/-- **A reset is outstanding from its incarnation's end until it is processed.** -/
theorem Stepped.resetsOutstanding (h : Stepped cfg s l s') :
    s'.resetsOutstanding + (s.processesReset l).toNat =
      s.resetsOutstanding + (s.endsChild l).toNat := by
  have hframe : s'.shared.serverEvents = s.shared.serverEvents → s'.router = s.router →
      s'.resetsOutstanding = s.resetsOutstanding := by
    intro hevents hrouter
    rw [System.resetsOutstanding, System.resetsOutstanding, hevents, hrouter]
  cases h with
  | handler hops hrun | writer hops hrun =>
    rw [hframe (ClientOp.sameTold_run hrun).serverEvents rfl]
    rfl
  | reaper hops hrun =>
    rw [hframe (ReaperOp.sameTold_run hrun).serverEvents rfl]
    rfl
  | heartbeat hops hrun =>
    rw [hframe (HeartbeatOp.sameTold_run hrun).serverEvents rfl]
    rfl
  | @routerTurn event rest hidle hevents =>
    rw [System.resetsOutstanding, System.resetsOutstanding, hidle, hevents]
    cases event with
    | reset reason =>
      clear hframe
      simp [RouterOp.dispatch, System.processesReset, System.endsChild, ServerEvent.isReset,
        RouterOp.isReset, List.countP_cons]
    | message msg =>
      have hnone : (RouterOp.handleServerMessage msg).countP RouterOp.isReset = 0 :=
        RouterOp.countP_handleServerMessage msg
      simp only [RouterOp.dispatch]
      split <;>
        simp [System.processesReset, System.endsChild, ServerEvent.isReset, hnone]
  | @router order op rest ops sh hops hrun =>
    obtain ⟨hevents, -, hops'⟩ := RouterOp.told_run hrun
    have hnone : ops.countP RouterOp.isReset = 0 := by
      refine List.countP_eq_zero.2 fun op' hop' => ?_
      cases op' with
      | resetState reason => exact absurd hop' (hops' reason)
      | _ => simp [RouterOp.isReset]
    have hprocesses : s.processesReset (.router order) = op.isReset := by
      rw [System.processesReset, System.resetting, hops]
      cases op <;> rfl
    rw [System.resetsOutstanding, System.resetsOutstanding, hops, hevents, hprocesses,
      List.countP_append, hnone, List.countP_cons]
    simp only [System.endsChild, Bool.toNat_false]
    cases op.isReset with
    | true => simp; omega
    | false => simp
  | @manager choice op rest ops loc sh hops hlock hrun =>
    rw [System.endsChild_manager hops, System.resetsOutstanding, System.resetsOutstanding]
    cases ManagerOp.tells_run hrun with
    | nothing hop htold =>
      rw [htold.serverEvents]
      cases op with
      | cleanup b => exact absurd rfl (hop b).1
      | _ => rfl
    | running hevents => rw [hevents]; rfl
    | reset hpid hevents =>
      rw [hevents, List.countP_append]
      simp [System.processesReset, ServerEvent.isReset, ManagerOp.isCleanup]
      omega
    | gone hop hpid hevents =>
      rw [hevents]
      cases op with
      | cleanup b => exact absurd rfl (hop b)
      | _ => rfl
  | @childOutput k msg hreads =>
    simp [System.resetsOutstanding, System.processesReset, System.endsChild, ServerEvent.isReset]
  | connect | receive | disconnect | decodeError | handshakeTimeout | handshakeTick
  | writerFails | reaperTick | heartbeatTick | heartbeatEvent | readerEnds | childExits | shutdown
  | elapse =>
    rw [hframe rfl rfl]
    rfl

/-! ## Counting the children -/

namespace System

/-- The history of the resets: how many were processed. -/
def noteReset (k : ℕ) (s : System) (l : Label) : ℕ := k + (s.processesReset l).toNat

/-- **The children, counted by the resets**, after `k` of them were
processed. There is a child for each reset, and one more while the manager
has a child. -/
structure Counted (s : System) (k : ℕ) : Prop where
  tending : (∃ op ∈ s.manager, op.tends = true) →
    s.shared.children.length = k + s.resetsOutstanding + 1
  idle : s.manager ≠ [] → (∀ op ∈ s.manager, op.tends = false) →
    s.shared.children.length = k + s.resetsOutstanding
  writing : ∀ msg, .writeFirst msg ∈ s.manager → ∃ op ∈ s.manager, op.tends = true

end System

/-- The other tasks write to no child, and spawn none. -/
theorem Stepped.written (h : Stepped cfg s l s') (hl : ∀ choice, l ≠ .manager choice) :
    s'.shared.children.length = s.shared.children.length ∧
      ∀ j, s'.writtenTo j = s.writtenTo j := by
  rcases h.children hl with hsame | ⟨j, -, rfl⟩ | ⟨j, -, rfl⟩
  · rw [hsame]
    exact ⟨rfl, fun j => by rw [System.writtenTo, System.writtenTo, hsame]⟩
  · refine ⟨List.length_modify .., fun i => writtenIn_modify ?_ i⟩
    exact fun _ => rfl
  · refine ⟨List.length_modify .., fun i => writtenIn_modify ?_ i⟩
    exact fun _ => rfl

section Manager

variable {k : ℕ} {choice : Choice} {op : ManagerOp} {rest ops : List ManagerOp}

/-- A detail spawns no child. -/
theorem ManagerOp.Moved.length_of_detail {sh' : Shared}
    (h : op.Moved cfg.manager s.locals s.shared choice sh' ops) (hdetail : op.detail = true) :
    sh'.children.length = s.shared.children.length := by
  cases h with
  | detail hop haside => rw [haside.children]
  | wroteFirst => exact List.length_modify ..
  | lostFirst => rfl
  | returned hop => rcases hop with rfl | rfl | ⟨b, rfl⟩ <;> cases hdetail
  | dropped | head | first | underLimit | atLimit | published | spawned | spawnFailed | piped
  | pipeMissing | loop | halted | received | left | wrote | lost | cleanup | backoff | woke =>
    cases hdetail

/-- A detail on the way to the next point keeps the count. -/
theorem System.Counted.detail (hs : s.Counted k) (hops : s.manager = op :: rest)
    (hdetail : op.detail = true) (hops' : s'.manager = rest)
    (hmoved : op.Moved cfg.manager s.locals s.shared choice s'.shared ops)
    (hout : s'.resetsOutstanding = s.resetsOutstanding + op.isCleanup.toNat) :
    s'.Counted k := by
  have hnone : op.isCleanup = false := by
    cases op <;> first | rfl | cases hdetail
  have htends : op.tends = false := by
    by_contra hcon
    rw [ManagerOp.detail_of_tends (by simpa using hcon)] at hdetail
    cases hdetail
  rw [hnone, Bool.toNat_false, Nat.add_zero] at hout
  have hiff : (∃ op ∈ s.manager, op.tends = true) ↔ ∃ op ∈ s'.manager, op.tends = true := by
    rw [hops, hops']
    simp [htends]
  refine ⟨fun h => ?_, fun _ hall => ?_, fun msg hmsg => ?_⟩
  · rw [hmoved.length_of_detail hdetail, hout]
    exact hs.tending (hiff.2 h)
  · rw [hmoved.length_of_detail hdetail, hout]
    refine hs.idle (by simp [hops]) fun op' hop' => ?_
    by_contra hcon
    obtain ⟨op'', hop'', h⟩ := hiff.1 ⟨op', hop', by simpa using hcon⟩
    rw [hall op'' hop''] at h
    cases h
  · exact hiff.1 (hs.writing msg (by rw [hops, ← hops']; exact List.mem_cons_of_mem _ hmsg))

/-- So does what is done at a point. -/
theorem System.Counted.point (hs : s.Counted k) (hops : s.manager = [op])
    (hdetail : op.detail = false) (hops' : s'.manager = ops)
    (hmoved : op.Moved cfg.manager s.locals s.shared choice s'.shared ops)
    (hout : s'.resetsOutstanding = s.resetsOutstanding + op.isCleanup.toNat) :
    s'.Counted k := by
  have hwith : op.tends = true → s.shared.children.length = k + s.resetsOutstanding + 1 :=
    fun h => hs.tending ⟨op, by simp [hops], h⟩
  have hwithout : op.tends = false → s.shared.children.length = k + s.resetsOutstanding :=
    fun h => hs.idle (by simp [hops]) (by simpa [hops] using h)
  -- what is left to show, of the two kinds of points and of the return
  have htending : (∃ op ∈ ops, op.tends = true) →
      s'.shared.children.length = k + s'.resetsOutstanding + 1 → s'.Counted k := by
    intro htends hlen
    refine ⟨fun _ => hlen, fun _ hall => ?_, fun _ _ => by rwa [hops']⟩
    obtain ⟨op', hop', h⟩ := htends
    rw [hall op' (by rwa [hops'])] at h
    cases h
  have hidle : (∀ op ∈ ops, op.tends = false) → (∀ msg, .writeFirst msg ∉ ops) →
      (ops ≠ [] → s'.shared.children.length = k + s'.resetsOutstanding) → s'.Counted k := by
    intro hall hwrites hlen
    rw [← hops'] at hall hwrites hlen
    refine ⟨fun ⟨op', hop', h⟩ => ?_, fun hne _ => hlen hne, fun msg hmsg => ?_⟩
    · rw [hall op' hop'] at h
      cases h
    · exact absurd hmsg (hwrites msg)
  generalize hsh : s'.shared = sh at hmoved htending hidle
  cases hmoved with
  | detail hop haside =>
    rw [hdetail] at hop
    cases hop
  | wroteFirst | lostFirst => cases hdetail
  | returned | dropped | published | spawnFailed | pipeMissing =>
    exact hidle (by simp) (by simp) (fun h => absurd rfl h)
  | head hop =>
    refine hidle (fun op' hop' => ?_) (fun msg hmem => ?_) fun _ => ?_
    · rw [List.mem_singleton.1 hop']
      rcases hop with rfl | rfl <;> rfl
    · rcases hop with rfl | rfl <;> cases List.mem_singleton.1 hmem
    · rw [hout]
      exact hwithout rfl
  | first | underLimit | backoff | woke =>
    refine hidle (by simp [ManagerOp.tends]) (by simp) fun _ => ?_
    rw [hout]
    exact hwithout rfl
  | atLimit hlimit haside =>
    refine hidle (by simp [ManagerOp.tends]) (by simp) fun _ => ?_
    rw [hout, haside.children]
    exact hwithout rfl
  | spawned =>
    refine htending ⟨_, List.mem_cons_of_mem _ (List.mem_cons_of_mem _ (List.mem_cons_self ..)),
      rfl⟩ ?_
    rw [hout, List.length_append, hwithout rfl]
    rfl
  | @piped firstMsg =>
    refine htending ⟨.writeLoop, by simp, rfl⟩ ?_
    rw [hout, ManagerOp.startReader, List.length_modify]
    exact hwith rfl
  | loop | halted | received | lost =>
    refine htending (by simp [ManagerOp.tends]) ?_
    rw [hout]
    exact hwith rfl
  | wrote =>
    refine htending (by simp [ManagerOp.tends]) ?_
    rw [hout, ManagerOp.writeToChild, List.length_modify]
    exact hwith rfl
  | @left _ b _ details hdetails haside =>
    refine htending ⟨.cleanup b, by simp, rfl⟩ ?_
    rw [hout, haside.children]
    exact hwith rfl
  | cleanup =>
    refine hidle (by simp [ManagerOp.tends]) (by simp) fun _ => ?_
    rw [hout]
    exact hwith rfl

/-- **A step of the manager keeps the count.** -/
theorem System.Counted.manager (hs : s.Counted k) (hshaped : s.Shaped)
    (hops : s.manager = op :: rest) (hops' : s'.manager = ops ++ rest)
    (hmoved : op.Moved cfg.manager s.locals s.shared choice s'.shared ops)
    (hout : s'.resetsOutstanding = s.resetsOutstanding + op.isCleanup.toNat) :
    s'.Counted k := by
  rcases hshaped.head_rest hops with ⟨hdetail, hrest⟩ | ⟨hdetail, rfl⟩
  · rw [hmoved.eq_nil hdetail, List.nil_append] at hops'
    exact hs.detail hops hdetail hops' hmoved hout
  · rw [List.append_nil] at hops'
    exact hs.point hops hdetail hops' hmoved hout

end Manager

/-- **Every step keeps the count.** -/
theorem Stepped.counted {k : ℕ} (h : Stepped cfg s l s') (hshaped : s.Shaped)
    (hs : s.Counted k) : s'.Counted (s.noteReset k l) := by
  have hsum := h.resetsOutstanding
  by_cases hl : ∃ choice, l = .manager choice
  · obtain ⟨choice, rfl⟩ := hl
    cases h with
    | @manager _ op rest ops loc sh hops hlock hrun =>
      rw [System.endsChild_manager hops] at hsum
      exact hs.manager hshaped hops rfl (ManagerOp.moved_run hrun) hsum
  · have hl' : ∀ choice, l ≠ .manager choice := fun choice heq => hl ⟨choice, heq⟩
    rw [System.endsChild_of_not_manager s hl', Bool.toNat_false, Nat.add_zero] at hsum
    have hmanager := h.manager_eq hl'
    have hsame : s.noteReset k l + s'.resetsOutstanding = k + s.resetsOutstanding := by
      rw [System.noteReset]
      omega
    refine ⟨?_, ?_, ?_⟩
    · rw [hmanager, (h.written hl').1, hsame]
      exact hs.tending
    · rw [hmanager, (h.written hl').1, hsame]
      exact hs.idle
    · rw [hmanager]
      exact hs.writing

theorem counted_init (cfg : Config) : (System.init cfg).Counted 0 where
  tending := by simp [System.init, ManagerOp.tends]
  idle := fun _ _ => rfl
  writing := by simp [System.init]

end Mux

end VcOperator
