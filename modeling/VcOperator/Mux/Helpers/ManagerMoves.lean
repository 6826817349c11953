import VcOperator.Mux.Helpers.Feed
/-!
# The turns of the server manager

Inversion for the manager's operations, and the shape of its list. The
last operation of the list is the point of the loop the manager is at;
those before it are *details*, done on the way there. `Reachable.shaped`
says so of every reachable state, so a proof about the manager looks at
one operation at a time.
-/

namespace VcOperator

namespace Mux

namespace ManagerOp

variable {sh sh' : Shared} {op : ManagerOp} {ops : List ManagerOp}

/-- The operation is done on the way to the next point of the loop. -/
def detail : ManagerOp → Bool
  | markRunning _ | markFailed _ _ | resetFields _ | updateQueueDepth | publishStatus
  | writeFirst _ => true
  | _ => false

/-- The manager has a child: from its spawn to the cleanup. -/
def tends : ManagerOp → Bool
  | takePipes _ | writeLoop | select | writeMessage _ | cleanup _ => true
  | _ => false

theorem detail_of_tends (h : op.tends = true) :
    op.detail = false := by
  cases op <;> first | rfl | cases h

/-- The operation reports on the child, and does nothing to it. -/
def reports : ManagerOp → Bool
  | markFailed _ _ | updateQueueDepth | publishStatus => true
  | _ => false

theorem detail_of_reports {op : ManagerOp} (h : op.reports = true) : op.detail = true := by
  cases op <;> first | rfl | cases h

/-- Nothing the manager goes by is changed: the queue, the children, the
shutdown, and the mutex. A signal may have been taken off the restart
channel. -/
structure Aside (sh sh' : Shared) : Prop where
  toServer : sh'.toServer = sh.toServer
  toServerOpen : sh'.toServerOpen = sh.toServerOpen
  children : sh'.children = sh.children
  shutdown : sh'.shutdown = sh.shutdown
  stateLocked : sh'.stateLocked = sh.stateLocked
  restartRx : sh'.restartRx ⊆ sh.restartRx

@[refl] theorem Aside.refl (sh : Shared) : Aside sh sh :=
  ⟨rfl, rfl, rfl, rfl, rfl, List.Subset.refl _⟩

/-- **What an operation of the manager does**, as far as the manager itself
goes by it. -/
inductive Moved (cfg : ManagerConfig) (loc : ManagerLocals) (sh : Shared) :
    Choice → ManagerOp → Shared → List ManagerOp → Prop
  | detail {choice : Choice} {op : ManagerOp} {sh' : Shared} (hop : op.detail = true)
      (h : Aside sh sh') : Moved cfg loc sh choice op sh' []
  /-- `server_manager` returns at the head of the loop, or after the cleanup. -/
  | returned {choice : Choice} {op : ManagerOp}
      (hop : op = .loopHead ∨ op = .awaitFirst ∨ ∃ b, op = .afterReset b) :
      Moved cfg loc sh choice op { sh with toServerOpen := false } []
  | dropped {msg : Value} {rest : List Value} (hmsg : sh.toServer = msg :: rest) :
      Moved cfg loc sh .received .awaitFirst
        { sh with toServer := rest, toServerOpen := false } []
  | head {choice : Choice} {op : ManagerOp} (hop : op = .awaitFirst ∨ op = .checkLimit none) :
      Moved cfg loc sh choice .loopHead sh [op]
  | first {msg : Value} {rest : List Value} (hmsg : sh.toServer = msg :: rest) :
      Moved cfg loc sh .received .awaitFirst { sh with toServer := rest }
        [.updateQueueDepth, .checkLimit (some msg)]
  | underLimit {choice : Choice} {firstMsg : Option Value} :
      Moved cfg loc sh choice (.checkLimit firstMsg) sh [.spawn firstMsg]
  | atLimit {choice : Choice} {firstMsg : Option Value} {sh' : Shared}
      (hlimit : limitReached cfg loc = true) (h : Aside { sh with stateLocked := true } sh') :
      Moved cfg loc sh choice (.checkLimit firstMsg) sh' [.publishHoldingGuard]
  | published {choice : Choice} :
      Moved cfg loc sh choice .publishHoldingGuard sh.publishStatus []
  | spawned {pid : ℕ} {firstMsg : Option Value} :
      Moved cfg loc sh (.spawned pid) (.spawn firstMsg)
        { sh with children := sh.children ++ [⟨pid, true, [], false⟩] }
        [.markRunning pid, .publishStatus, .takePipes firstMsg]
  | spawnFailed {firstMsg : Option Value} :
      Moved cfg loc sh .spawnFailed (.spawn firstMsg) { sh with toServerOpen := false } []
  | piped {firstMsg : Option Value} :
      Moved cfg loc sh .go (.takePipes firstMsg)
        { sh with children := startReader sh.children }
        ((match firstMsg with | some msg => [.writeFirst msg] | none => []) ++ [.writeLoop])
  | pipeMissing {firstMsg : Option Value} :
      Moved cfg loc sh .pipeMissing (.takePipes firstMsg) { sh with toServerOpen := false } []
  | wroteFirst {msg : Value} :
      Moved cfg loc sh .written (.writeFirst msg)
        { sh with children := writeToChild msg sh.children } []
  | lostFirst {msg : Value} {e : String} :
      Moved cfg loc sh (.writeFailed e) (.writeFirst msg) sh []
  | loop {choice : Choice} (hshutdown : sh.shutdown = false) :
      Moved cfg loc sh choice .writeLoop sh [.select]
  | halted {choice : Choice} (hshutdown : sh.shutdown = true) :
      Moved cfg loc sh choice .writeLoop sh [.cleanup true]
  | received {msg : Value} {rest : List Value} (hmsg : sh.toServer = msg :: rest) :
      Moved cfg loc sh .received .select { sh with toServer := rest }
        [.updateQueueDepth, .writeMessage msg]
  /-- A branch of the `select!` that leaves the loop. -/
  | left {choice : Choice} {b : Bool} {sh' : Shared} (details : List ManagerOp)
      (hdetails : ∀ op ∈ details, op.reports = true) (h : Aside sh sh') :
      Moved cfg loc sh choice .select sh' (details ++ [.cleanup b])
  | wrote {msg : Value} :
      Moved cfg loc sh .written (.writeMessage msg)
        { sh with children := writeToChild msg sh.children } [.writeLoop]
  | lost {msg : Value} {e : String} :
      Moved cfg loc sh (.writeFailed e) (.writeMessage msg) sh
        [.markFailed e "write failure", .publishStatus, .cleanup true]
  | cleanup {choice : Choice} {b : Bool} :
      Moved cfg loc sh choice (.cleanup b)
        { sh with serverEvents := sh.serverEvents ++ [.reset "MCP server restarted"] }
        [.resetFields b, .updateQueueDepth, .publishStatus, .afterReset b]
  | backoff {choice : Choice} {b : Bool} {t : ℕ} :
      Moved cfg loc sh choice (.afterReset b) sh [.sleep t]
  | woke {choice : Choice} {t : ℕ} : Moved cfg loc sh choice (.sleep t) sh [.loopHead]

variable {cfg : ManagerConfig} {choice : Choice} {loc loc' : ManagerLocals}

theorem moved_runSelect (h : runSelect choice sh = some (sh', ops)) :
    Moved cfg loc sh choice .select sh' ops := by
  cases choice with
  | received =>
    simp only [runSelect] at h
    split at h
    · cases h
    · rename_i msg rest hmsg
      cases h
      exact .received hmsg
  | queueClosed =>
    simp only [runSelect] at h
    split at h <;> cases h
    exact .left [.updateQueueDepth] (by simp [reports]) (.refl sh)
  | childExited =>
    simp only [runSelect] at h
    split at h <;> cases h
    exact .left [.publishStatus] (by simp [reports]) (.refl sh)
  | waitError e =>
    cases h
    exact .left [.markFailed e "wait error", .publishStatus] (by simp [reports])
      (.refl sh)
  | joinError =>
    cases h
    exact .left [.publishStatus] (by simp [reports]) (.refl sh)
  | heartbeatRestart =>
    simp only [runSelect] at h
    split at h
    · cases h
    · rename_i reason rest hreasons
      cases h
      have hrest : rest ⊆ sh.restartRx := by
        rw [hreasons]
        exact List.subset_cons_self ..
      exact .left [.markFailed reason reason, .publishStatus] (by simp [reports])
        ⟨rfl, rfl, rfl, rfl, rfl, hrest⟩
  | shutdown =>
    simp only [runSelect] at h
    split at h <;> cases h
    exact .left [] (by simp) (.refl sh)
  | go | spawned _ | spawnFailed | pipeMissing | written | writeFailed _ => cases h

/-- **Inversion.** -/
theorem moved_run (h : op.run cfg choice loc sh = some (loc', sh', ops)) :
    Moved cfg loc sh choice op sh' ops := by
  cases op with
  | loopHead =>
    simp only [run] at h
    split at h
    · cases h; exact .returned (.inl rfl)
    · split at h <;> cases h
      · exact .head (.inl rfl)
      · exact .head (.inr rfl)
  | awaitFirst =>
    simp only [run] at h
    split at h
    · rename_i msg rest hmsg
      split at h <;> cases h
      · exact .dropped hmsg
      · exact .first hmsg
    · cases h; exact .returned (.inr (.inl rfl))
    · split at h <;> cases h
      exact .returned (.inr (.inl rfl))
    · cases h
  | checkLimit firstMsg =>
    simp only [run] at h
    split at h
    · rename_i hlimit
      cases h
      exact .atLimit hlimit ⟨rfl, rfl, rfl, rfl, rfl, List.Subset.refl _⟩
    · cases h
      exact .underLimit
  | publishHoldingGuard => cases h; exact .published
  | spawn firstMsg =>
    simp only [run] at h
    split at h <;> cases h
    · exact .spawned
    · exact .spawnFailed
  | takePipes firstMsg =>
    simp only [run] at h
    split at h <;> cases h
    · exact .piped
    · exact .pipeMissing
  | writeFirst msg =>
    simp only [run] at h
    split at h <;> cases h
    · exact .wroteFirst
    · exact .lostFirst
  | writeLoop =>
    cases hshutdown : sh.shutdown with
    | true =>
      simp only [run, hshutdown, if_true, leave] at h
      cases h
      exact .halted hshutdown
    | false =>
      simp only [run, hshutdown, Bool.false_eq_true, if_false] at h
      cases h
      exact .loop hshutdown
  | select =>
    obtain ⟨⟨sh₁, ops₁⟩, hsel, heq⟩ := Option.map_eq_some_iff.1 h
    cases heq
    exact moved_runSelect hsel
  | writeMessage msg =>
    simp only [run] at h
    split at h <;> cases h
    · exact .wrote
    · exact .lost
  | cleanup b => cases h; exact .cleanup
  | afterReset b =>
    simp only [run] at h
    split at h <;> cases h
    · exact .returned (.inr (.inr ⟨b, rfl⟩))
    · exact .backoff
  | sleep t =>
    simp only [run] at h
    split at h <;> cases h
    exact .woke
  | markRunning _ | markFailed _ _ | resetFields _ | updateQueueDepth | publishStatus =>
    cases h
    exact .detail rfl ⟨rfl, rfl, rfl, rfl, rfl, List.Subset.refl _⟩

/-- **Only the restart limit leaves the mutex locked.** -/
theorem Moved.stateLocked (h : Moved cfg loc sh choice op sh' ops) :
    sh'.stateLocked = sh.stateLocked ∨ (∃ firstMsg, op = .checkLimit firstMsg) ∧
      limitReached cfg loc = true ∧ ops = [.publishHoldingGuard] := by
  cases h with
  | detail _ haside | left _ _ haside => exact .inl haside.stateLocked
  | atLimit hlimit => exact .inr ⟨⟨_, rfl⟩, hlimit, rfl⟩
  | returned | dropped | head | first | underLimit | published | spawned | spawnFailed | piped
  | pipeMissing | wroteFirst | lostFirst | loop | halted | received | wrote | lost | cleanup
  | backoff | woke => exact .inl rfl

/-- The manager asks for no restart. -/
theorem Moved.restartRx (h : Moved cfg loc sh choice op sh' ops) :
    sh'.restartRx ⊆ sh.restartRx := by
  cases h with
  | detail _ haside | left _ _ haside | atLimit _ haside => exact haside.restartRx
  | returned | dropped | head | first | underLimit | published | spawned | spawnFailed | piped
  | pipeMissing | wroteFirst | lostFirst | loop | halted | received | wrote | lost | cleanup
  | backoff | woke => exact List.Subset.refl _

/-! ## The shape of the list -/

/-- Details, and one operation that is none. -/
def Shaped (ops : List ManagerOp) : Prop :=
  ∃ details op, ops = details ++ [op] ∧ (∀ op ∈ details, op.detail = true) ∧ op.detail = false

/-- The operation at the head is a detail, and the rest has the shape, or
it is the whole list. -/
theorem Shaped.head_rest {rest : List ManagerOp} (h : Shaped (op :: rest)) :
    op.detail = true ∧ Shaped rest ∨ op.detail = false ∧ rest = [] := by
  obtain ⟨details, op', heq, hdetails, hop'⟩ := h
  cases details with
  | nil =>
    cases heq
    exact .inr ⟨hop', rfl⟩
  | cons d details =>
    cases heq
    refine .inl ⟨hdetails _ (List.mem_cons_self ..), details, op', rfl, fun x hx => ?_, hop'⟩
    exact hdetails x (List.mem_cons_of_mem _ hx)

/-- A detail leaves nothing to do. -/
theorem Moved.eq_nil (h : Moved cfg loc sh choice op sh' ops) (hop : op.detail = true) :
    ops = [] := by
  cases h with
  | detail | returned | dropped | published | spawnFailed | pipeMissing | wroteFirst
  | lostFirst => rfl
  | head | first | underLimit | atLimit | spawned | piped | loop | halted | received | left
  | wrote | lost | cleanup | backoff | woke => cases hop

/-- What an operation leaves to do has the shape, unless it was a detail
or `server_manager` has returned. -/
theorem Moved.shaped (h : Moved cfg loc sh choice op sh' ops) :
    ops = [] ∨ Shaped ops := by
  cases h with
  | detail | returned | dropped | published | spawnFailed | pipeMissing | wroteFirst
  | lostFirst => exact .inl rfl
  | head hop =>
    refine .inr ⟨[], _, rfl, by simp, ?_⟩
    rcases hop with rfl | rfl <;> rfl
  | underLimit | atLimit | loop | halted | wrote | backoff | woke =>
    exact .inr ⟨[], _, rfl, by simp, rfl⟩
  | first | received => exact .inr ⟨[_], _, rfl, by simp [ManagerOp.detail], rfl⟩
  | spawned | lost => exact .inr ⟨[_, _], _, rfl, by simp [ManagerOp.detail], rfl⟩
  | @piped firstMsg =>
    cases firstMsg with
    | none => exact .inr ⟨[], _, rfl, by simp, rfl⟩
    | some msg => exact .inr ⟨[_], _, rfl, by simp [ManagerOp.detail], rfl⟩
  | left _ hdetails =>
    exact .inr ⟨_, _, rfl, fun op hop => detail_of_reports (hdetails op hop), rfl⟩
  | cleanup => exact .inr ⟨[_, _, _], _, rfl, by simp [ManagerOp.detail], rfl⟩

end ManagerOp

/-- The manager's list has the shape, or the manager has returned. -/
def System.Shaped (s : System) : Prop := s.manager = [] ∨ ManagerOp.Shaped s.manager

variable {cfg : Config} {ok : System → Label → Prop} {s s' : System} {l : Label}

/-- The head of the manager's list is a detail, or all of the list. -/
theorem System.Shaped.head_rest {op : ManagerOp} {rest : List ManagerOp} (hs : s.Shaped)
    (hops : s.manager = op :: rest) :
    op.detail = true ∧ ManagerOp.Shaped rest ∨ op.detail = false ∧ rest = [] := by
  rcases hs with hnil | hshaped
  · rw [hops] at hnil
    cases hnil
  · rw [hops] at hshaped
    exact hshaped.head_rest

/-- At a point between turns the head is all of the list. -/
theorem System.Shaped.rest_eq_nil {op : ManagerOp} {rest : List ManagerOp} (hs : s.Shaped)
    (hops : s.manager = op :: rest) (hpoint : op.detail = false) : rest = [] := by
  rcases hs.head_rest hops with ⟨hdetail, -⟩ | ⟨-, hrest⟩
  · rw [hpoint] at hdetail
    cases hdetail
  · exact hrest

/-- A step is the manager's, or leaves the manager and what it goes by alone. -/
theorem Stepped.manager_cases (h : Stepped cfg s l s') :
    (∃ choice op rest ops, l = .manager choice ∧ s.manager = op :: rest ∧
      (op.locks && s.shared.stateLocked) = false ∧ s'.manager = ops ++ rest ∧
      ManagerOp.Moved cfg.manager s.locals s.shared choice op s'.shared ops) ∨
    s'.manager = s.manager ∧ (∀ choice, l ≠ .manager choice) := by
  cases h with
  | manager hops hlock hrun =>
    exact .inl ⟨_, _, _, _, rfl, hops, hlock, rfl, ManagerOp.moved_run hrun⟩
  | connect | receive | disconnect | decodeError | handshakeTimeout | handshakeTick
  | writerFails | handler | writer | routerTurn | router | reaperTick | reaper | heartbeatTick
  | heartbeatEvent | heartbeat | childOutput | readerEnds | childExits | shutdown | elapse =>
    exact .inr ⟨rfl, nofun⟩

/-- The other tasks leave the manager where it is. -/
theorem Stepped.manager_eq (h : Stepped cfg s l s') (hl : ∀ choice, l ≠ .manager choice) :
    s'.manager = s.manager := by
  rcases h.manager_cases with ⟨choice, -, -, -, heq, -⟩ | ⟨hsame, -⟩
  · exact absurd heq (hl choice)
  · exact hsame

/-- Inversion of the manager's step, with its list known. -/
theorem moved_of_step {choice : Choice} {op : ManagerOp} {rest : List ManagerOp}
    (hops : s.manager = op :: rest) (hstep : s.step cfg (.manager choice) = some s') :
    ∃ ops, s'.manager = ops ++ rest ∧
      ManagerOp.Moved cfg.manager s.locals s.shared choice op s'.shared ops := by
  rcases (stepped_of_step hstep).manager_cases with
    ⟨choice', op', rest', ops, hl, hops', -, hmanager, hmoved⟩ | ⟨-, hl⟩
  · cases hl
    rw [hops] at hops'
    cases hops'
    exact ⟨ops, hmanager, hmoved⟩
  · exact absurd rfl (hl choice)

theorem Stepped.shaped (h : Stepped cfg s l s') (hs : s.Shaped) : s'.Shaped := by
  rcases h.manager_cases with ⟨choice, op, rest, ops, -, hops, -, hops', hmoved⟩ | ⟨heq, -⟩
  · unfold System.Shaped
    rw [hops']
    rcases hs.head_rest hops with ⟨hdetail, hrest⟩ | ⟨-, rfl⟩
    · rw [hmoved.eq_nil hdetail]
      exact .inr hrest
    · rw [List.append_nil]
      exact hmoved.shaped
  · unfold System.Shaped
    rwa [heq]

theorem Reachable.shaped (h : Reachable cfg ok s) : s.Shaped :=
  h.invariant (.inr ⟨[], _, rfl, by simp, rfl⟩) fun _ _ _ _ hs hstep =>
    (stepped_of_step hstep).shaped hs

/-- **The steps of the other tasks** leave the children alone, but for the
end of a process or of a reader task. -/
theorem Stepped.children (h : Stepped cfg s l s') (hl : ∀ choice, l ≠ .manager choice) :
    s'.shared.children = s.shared.children ∨
    (∃ k, l = .readerEnds k ∧
      s' = s.updateChild k fun ch => { ch with reading := false }) ∨
    ∃ k, l = .childExits k ∧ s' = s.updateChild k fun ch => { ch with alive := false } := by
  cases h with
  | manager => exact absurd rfl (hl _)
  | @readerEnds k => exact .inr (.inl ⟨k, rfl, rfl⟩)
  | @childExits k => exact .inr (.inr ⟨k, rfl, rfl⟩)
  | handler hops hrun | writer hops hrun =>
    refine .inl ?_
    cases ClientOp.feeds_run hrun with
    | nothing h => exact h.children
    | trySend => rfl
    | send hroom h => exact h.children
    | flag => rfl
  | routerTurn hidle hevents => exact .inl (unfed_dispatch ..).children
  | router hops hrun => exact .inl (RouterOp.unfed_run hrun).children
  | reaper hops hrun => exact .inl (ReaperOp.unfed_run hrun).children
  | heartbeat hops hrun =>
    refine .inl ?_
    cases HeartbeatOp.feeds_run hrun with
    | nothing h => exact h.children
    | probe => rfl
  | connect | receive | disconnect | decodeError | handshakeTimeout | handshakeTick
  | writerFails | reaperTick | heartbeatTick | heartbeatEvent | childOutput | shutdown
  | elapse => exact .inl rfl

end Mux

end VcOperator
