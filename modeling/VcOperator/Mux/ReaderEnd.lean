import VcOperator.Mux.Children
/-!
# The end of a reader task

The write loop waits for a message, for the end of the process, for the
heartbeat and for the shutdown. The reader task of the incarnation is in
none of its branches: where the reader ends and the process does not, the
loop goes on, and nobody reads the child any more. `reader_end_seen` says
that this is the only gap. At the `select!` the branch of the end is
enabled exactly when the process is gone, and a run whose readers end
behind their processes leaves the loop for each of them.
-/

namespace VcOperator

namespace Mux

variable {cfg : Config} {ok : System → Label → Prop} {s s' : System} {l : Label}

/-- The operation is a point of the write loop. -/
def ManagerOp.inLoop : ManagerOp → Bool
  | writeLoop | select | writeMessage _ => true
  | _ => false

theorem ManagerOp.detail_of_inLoop {op : ManagerOp} (h : op.inLoop = true) :
    op.detail = false := by
  cases op <;> first | rfl | cases h

/-- The manager is in its write loop, or about to enter it. -/
def System.inWriteLoop (s : System) : Bool := s.manager.any ManagerOp.inLoop

/-- The reader task of the current incarnation has ended. -/
def System.readerEnded (s : System) : Bool := s.shared.children.getLast?.any (!·.reading)

/-- **The end is seen.** At the `select!` the branch of the end is enabled,
and leads out of the loop. Elsewhere in the loop the manager moves, and
each of its moves leads on to where the end is seen, unless it leaves the
loop for another reason. -/
inductive System.SeesEnd (cfg : Config) : System → Prop
  | select {s : System} (hselect : s.manager = [.select])
      (hleave : s.step cfg (.manager .childExited) =
        some { s with manager := [.publishStatus, .cleanup true] }) : SeesEnd cfg s
  | turn {s : System} (hselect : s.manager ≠ [.select])
      (hmoves : ∃ choice s', s.step cfg (.manager choice) = some s')
      (hnext : ∀ choice s', s.step cfg (.manager choice) = some s' → SeesEnd cfg s') :
      SeesEnd cfg s
  | left {s : System} (hleft : .cleanup true ∈ s.manager) : SeesEnd cfg s

/-! ## At the `select!` -/

/-- At the `select!` the end is seen when the process is gone, and only then. -/
theorem seesEnd_select_iff (hselect : s.manager = [.select]) :
    s.SeesEnd cfg ↔ ManagerOp.childAlive s.shared.children = false := by
  have hstep : ManagerOp.childAlive s.shared.children = false →
      s.step cfg (.manager .childExited) =
        some { s with manager := [.publishStatus, .cleanup true] } := by
    intro hdead
    simp [System.step, hselect, ManagerOp.locks, ManagerOp.run, ManagerOp.runSelect, hdead,
      ManagerOp.leave]
  constructor
  · intro h
    cases h with
    | select _ hleave =>
      cases halive : ManagerOp.childAlive s.shared.children with
      | false => rfl
      | true =>
        simp [System.step, hselect, ManagerOp.locks, ManagerOp.run, ManagerOp.runSelect,
          halive] at hleave
    | turn hne => exact absurd hselect hne
    | left hleft => simp [hselect] at hleft
  · exact fun hdead => .select hselect (hstep hdead)

/-! ## In the loop -/

/-- The process is gone and the mutex is free. -/
structure System.Over (s : System) : Prop where
  dead : ManagerOp.childAlive s.shared.children = false
  free : s.shared.stateLocked = false

/-- The manager's moves in the loop keep it so. -/
theorem System.Over.moved {choice : Choice} {op : ManagerOp} {ops : List ManagerOp}
    {mcfg : ManagerConfig} {loc : ManagerLocals} (hs : s.Over)
    (h : ManagerOp.Moved mcfg loc s.shared choice op s'.shared ops)
    (hop : op.detail = true ∨ op.inLoop = true) : s'.Over := by
  obtain ⟨hdead, hfree⟩ := hs
  generalize hsh : s'.shared = sh at h
  suffices hover : ManagerOp.childAlive sh.children = false ∧ sh.stateLocked = false by
    rw [← hsh] at hover
    exact ⟨hover.1, hover.2⟩
  cases h with
  | detail _ haside | left _ _ haside =>
    rw [haside.children, haside.stateLocked]
    exact ⟨hdead, hfree⟩
  | wroteFirst | wrote =>
    exact ⟨by rwa [childAlive_writeToChild], hfree⟩
  | lostFirst | loop | halted | received | lost => exact ⟨hdead, hfree⟩
  | returned hreturn =>
    rcases hreturn with rfl | rfl | ⟨b, rfl⟩ <;> rcases hop with hop | hop <;> cases hop
  | dropped | head | first | underLimit | atLimit | published | spawned | spawnFailed | piped
  | pipeMissing | cleanup | backoff | woke => rcases hop with hop | hop <;> cases hop

/-- With the mutex free, the manager's step is that of the operation at its head. -/
theorem exists_step {choice : Choice} {op : ManagerOp} {rest : List ManagerOp}
    (hops : s.manager = op :: rest) (hfree : s.shared.stateLocked = false)
    (hrun : (op.run cfg.manager choice s.locals s.shared).isSome = true) :
    ∃ s', s.step cfg (.manager choice) = some s' := by
  obtain ⟨⟨loc, sh, ops⟩, hr⟩ := Option.isSome_iff_exists.1 hrun
  refine ⟨{ s with locals := loc, shared := sh, manager := ops ++ rest }, ?_⟩
  simp [System.step, hops, hfree, hr]

theorem seesEnd_writeLoop (hs : s.Over) (hops : s.manager = [.writeLoop]) : s.SeesEnd cfg := by
  refine .turn (by simp [hops]) ⟨.go, exists_step hops hs.free rfl⟩ fun choice s' hstep => ?_
  obtain ⟨ops, hops', hmoved⟩ := moved_of_step hops hstep
  have hover : s'.Over := hs.moved hmoved (.inr rfl)
  generalize s'.shared = sh at hmoved
  cases hmoved with
  | detail hdetail => cases hdetail
  | loop => exact (seesEnd_select_iff hops').2 hover.dead
  | halted =>
    refine .left ?_
    rw [hops']
    exact List.mem_singleton_self _
  | returned hreturn => rcases hreturn with h | h | ⟨b, h⟩ <;> cases h

theorem seesEnd_writeMessage {msg : Value} (hs : s.Over) (hops : s.manager = [.writeMessage msg]) :
    s.SeesEnd cfg := by
  refine .turn (by simp [hops]) ⟨.written, exists_step hops hs.free rfl⟩ fun choice s' hstep => ?_
  obtain ⟨ops, hops', hmoved⟩ := moved_of_step hops hstep
  have hover : s'.Over := hs.moved hmoved (.inr rfl)
  generalize s'.shared = sh at hmoved
  cases hmoved with
  | detail hdetail => cases hdetail
  | wrote => exact seesEnd_writeLoop hover hops'
  | lost =>
    refine .left ?_
    rw [hops']
    simp
  | returned hreturn => rcases hreturn with h | h | ⟨b, h⟩ <;> cases h

/-- **A process that is gone is noticed**, wherever in its loop the manager
is. The induction is on the details that stand before the point of the loop. -/
theorem seesEnd_of_over {details : List ManagerOp} {op : ManagerOp} (hs : s.Over)
    (hops : s.manager = details ++ [op]) (hdetails : ∀ d ∈ details, d.detail = true)
    (hop : op.inLoop = true) : s.SeesEnd cfg := by
  induction details generalizing s with
  | nil =>
    cases op with
    | writeLoop => exact seesEnd_writeLoop hs hops
    | select => exact (seesEnd_select_iff hops).2 hs.dead
    | writeMessage msg => exact seesEnd_writeMessage hs hops
    | _ => cases hop
  | cons d details ih =>
    have hdetail : d.detail = true := hdetails d (List.mem_cons_self ..)
    have hrun : (d.run cfg.manager .written s.locals s.shared).isSome = true := by
      cases d <;> first | rfl | cases hdetail
    have hselect : s.manager ≠ [.select] := by
      intro heq
      rw [hops, List.cons_append, List.cons.injEq] at heq
      rw [heq.1] at hdetail
      cases hdetail
    refine .turn hselect ⟨.written, exists_step hops hs.free hrun⟩ fun choice s' hstep => ?_
    obtain ⟨ops, hops', hmoved⟩ := moved_of_step hops hstep
    rw [hmoved.eq_nil hdetail, List.nil_append] at hops'
    exact ih (hs.moved hmoved (.inl hdetail)) hops' fun x hx =>
      hdetails x (List.mem_cons_of_mem _ hx)

/-! ## Readers that end behind their processes -/

/-- **The condition on a step**: while the manager is in its write loop,
the reader task of the current incarnation ends only when the process is
gone. -/
def System.readerFollowsExit (s : System) : Label → Bool
  | .readerEnds k => !(s.inWriteLoop && k + 1 == s.shared.children.length) ||
      !ManagerOp.childAlive s.shared.children
  | _ => true

/-- In the write loop, a reader that has ended has ended behind its process. -/
def System.ReadToTheEnd (s : System) : Prop :=
  s.inWriteLoop = true → s.readerEnded = true → ManagerOp.childAlive s.shared.children = false

theorem inWriteLoop_of_detail {op : ManagerOp} {rest : List ManagerOp} (hop : op.detail = true)
    (hops : s.manager = op :: rest) (hops' : s'.manager = rest) :
    s'.inWriteLoop = s.inWriteLoop := by
  have hloop : op.inLoop = false := by
    cases hl : op.inLoop with
    | false => rfl
    | true =>
      rw [ManagerOp.detail_of_inLoop hl] at hop
      cases hop
  rw [System.inWriteLoop, System.inWriteLoop, hops, hops', List.any_cons, hloop, Bool.false_or]

@[simp] theorem readerEnded_writeToChild (msg : Value) (children : List Child) :
    (ManagerOp.writeToChild msg children).getLast?.any (!·.reading) =
      children.getLast?.any (!·.reading) := by
  rw [ManagerOp.writeToChild, getLast?_modify_newest]
  cases children.getLast? <;> rfl

theorem readerEnded_startReader (children : List Child) :
    (ManagerOp.startReader children).getLast?.any (!·.reading) = false := by
  rw [ManagerOp.startReader, getLast?_modify_newest]
  cases children.getLast? <;> rfl

/-- A step of the manager that keeps what the end is read off. -/
theorem System.ReadToTheEnd.congr (hs : s.ReadToTheEnd)
    (hloop : s'.inWriteLoop = true → s.inWriteLoop = true)
    (hended : s'.readerEnded = s.readerEnded)
    (halive : ManagerOp.childAlive s'.shared.children = ManagerOp.childAlive s.shared.children) :
    s'.ReadToTheEnd := by
  intro hloop' hended'
  rw [hended] at hended'
  rw [halive]
  exact hs (hloop hloop') hended'

theorem ManagerOp.Moved.readToTheEnd {choice : Choice} {op : ManagerOp}
    {rest ops : List ManagerOp} (hshaped : s.Shaped) (hs : s.ReadToTheEnd)
    (hops : s.manager = op :: rest) (hops' : s'.manager = ops ++ rest)
    (h : Moved cfg.manager s.locals s.shared choice op s'.shared ops) : s'.ReadToTheEnd := by
  have hsame : s'.shared.children = s.shared.children →
      (s'.inWriteLoop = true → s.inWriteLoop = true) → s'.ReadToTheEnd := by
    intro heq hloop
    exact hs.congr hloop (by rw [System.readerEnded, heq, System.readerEnded]) (by rw [heq])
  have hwrote : ∀ msg, s'.shared.children = writeToChild msg s.shared.children →
      (s'.inWriteLoop = true → s.inWriteLoop = true) → s'.ReadToTheEnd := by
    intro msg heq hloop
    refine hs.congr hloop ?_ (by rw [heq, childAlive_writeToChild])
    rw [System.readerEnded, heq, readerEnded_writeToChild, System.readerEnded]
  rcases hshaped.head_rest hops with ⟨hdetail, -⟩ | ⟨hpoint, rfl⟩
  · rw [h.eq_nil hdetail, List.nil_append] at hops'
    have hloop := inWriteLoop_of_detail hdetail hops hops'
    generalize hsh : s'.shared = sh at h hsame hwrote
    cases h with
    | detail _ haside => exact hsame haside.children (by rw [hloop]; exact id)
    | wroteFirst => exact hwrote _ rfl (by rw [hloop]; exact id)
    | lostFirst => exact hsame rfl (by rw [hloop]; exact id)
    | returned hreturn => rcases hreturn with rfl | rfl | ⟨b, rfl⟩ <;> cases hdetail
    | dropped | head | first | underLimit | atLimit | published | spawned | spawnFailed | piped
    | pipeMissing | loop | halted | received | left | wrote | lost | cleanup | backoff | woke =>
      cases hdetail
  · rw [List.append_nil] at hops'
    -- a point that leads out of the loop, or to no point of it
    have hout : (∀ op ∈ ops, op.inLoop = false) → s'.ReadToTheEnd := by
      intro hall hloop
      rw [System.inWriteLoop, hops', List.any_eq_true] at hloop
      obtain ⟨op, hop, hin⟩ := hloop
      rw [hall op hop] at hin
      cases hin
    have hin : op.inLoop = true → s.inWriteLoop = true := by
      intro hop
      rw [System.inWriteLoop, hops, List.any_cons, hop, Bool.true_or]
    generalize hsh : s'.shared = sh at h hsame hwrote
    cases h with
    | detail hdetail => rw [hpoint] at hdetail; cases hdetail
    | piped =>
      intro _ hended
      rw [System.readerEnded, hsh, readerEnded_startReader] at hended
      cases hended
    | loop | received => exact hsame rfl fun _ => hin rfl
    | wrote => exact hwrote _ rfl fun _ => hin rfl
    | head hop => exact hout (by rcases hop with rfl | rfl <;> simp [inLoop])
    | left _ hdetails =>
      refine hout fun op hop => ?_
      rcases List.mem_append.1 hop with hop | hop
      · cases hl : op.inLoop with
        | false => rfl
        | true =>
          have hdetail := detail_of_reports (hdetails op hop)
          rw [detail_of_inLoop hl] at hdetail
          cases hdetail
      · rw [List.mem_singleton.1 hop]
        rfl
    | returned | dropped | first | underLimit | atLimit | published | spawned | spawnFailed
    | pipeMissing | wroteFirst | lostFirst | halted | lost | cleanup | backoff | woke =>
      exact hout (by simp [inLoop])

theorem Stepped.readToTheEnd (h : Stepped cfg s l s') (hshaped : s.Shaped)
    (hs : s.ReadToTheEnd) (hok : s.readerFollowsExit l = true) : s'.ReadToTheEnd := by
  rcases h.manager_cases with ⟨choice, op, rest, ops, rfl, hops, -, hops', hmoved⟩ | ⟨heq, hl⟩
  · exact hmoved.readToTheEnd hshaped hs hops hops'
  · have hloop : s'.inWriteLoop = s.inWriteLoop := by
      rw [System.inWriteLoop, heq, System.inWriteLoop]
    rcases h.children hl with hchildren | ⟨k, rfl, rfl⟩ | ⟨k, rfl, rfl⟩
    · refine hs.congr (by rw [hloop]; exact id) ?_ (by rw [hchildren])
      rw [System.readerEnded, hchildren, System.readerEnded]
    · intro hin hended
      rw [hloop] at hin
      by_cases hk : k + 1 = s.shared.children.length
      · have hdead : ManagerOp.childAlive s.shared.children = false := by
          simpa [System.readerFollowsExit, hin, hk] using hok
        rw [childAlive_eq] at hdead ⊢
        simp only [System.updateChild, getLast?_modify, hk, if_true]
        cases hlast : s.shared.children.getLast? with
        | none => rfl
        | some ch => simpa [hlast] using hdead
      · rw [childAlive_eq]
        simp only [System.readerEnded, System.updateChild, getLast?_modify, hk, if_false]
          at hended ⊢
        rw [← childAlive_eq]
        exact hs hin hended
    · intro hin hended
      rw [hloop] at hin
      rw [childAlive_eq]
      simp only [System.readerEnded, System.updateChild, getLast?_modify] at hended ⊢
      split
      · cases s.shared.children.getLast? <;> rfl
      · rename_i hk
        rw [if_neg hk] at hended
        rw [← childAlive_eq]
        exact hs hin hended

/-- The mutex stays locked only where the manager is stuck at its limit. -/
def System.LockedAtLimit (s : System) : Prop :=
  s.shared.stateLocked = true → s.manager = [.publishHoldingGuard]

theorem Stepped.lockedAtLimit (h : Stepped cfg s l s') (hshaped : s.Shaped)
    (hs : s.LockedAtLimit) : s'.LockedAtLimit := by
  intro hlocked
  rcases h.manager_cases with ⟨choice, op, rest, ops, rfl, hops, hlock, hops', hmoved⟩ | ⟨heq, hl⟩
  · rcases hmoved.stateLocked with hsame | ⟨⟨firstMsg, rfl⟩, -, rfl⟩
    · -- the guard's owner is the manager, and it is not stopped there
      rw [hsame] at hlocked
      have hstuck := hs hlocked
      rw [hops] at hstuck
      cases hstuck
      rw [hlocked] at hlock
      cases hlock
    · rw [hops', hshaped.rest_eq_nil hops rfl, List.append_nil]
  · have hsame : s'.shared.stateLocked = s.shared.stateLocked := by
      refine h.stateLocked ?_
      cases l with
      | manager choice => exact absurd rfl (hl choice)
      | _ => rfl
    rw [heq]
    exact hs (hsame ▸ hlocked)

theorem Reachable.lockedAtLimit (h : Reachable cfg ok s) : s.LockedAtLimit :=
  h.invariant_of (fun _ hr => Reachable.shaped hr) nofun fun _ _ _ _ hshaped hs hstep =>
    (stepped_of_step hstep).lockedAtLimit hshaped hs

theorem Reachable.readToTheEnd (h : Reachable cfg (fun s l => s.readerFollowsExit l = true) s) :
    s.ReadToTheEnd :=
  h.invariant_of (fun _ hr => Reachable.shaped hr) (fun _ hended => by cases hended)
    fun _ _ _ hok hshaped hs hstep => (stepped_of_step hstep).readToTheEnd hshaped hs hok

/-! ## What leaving the loop leads to -/

/-- **Out of the loop the manager resets and restarts.** The child's end
brings it to the backoff, with the reset sent to the router and the state
cleaned up. -/
theorem restarts_of_left (hleft : s.manager = [.publishStatus, .cleanup true])
    (hfree : s.shared.stateLocked = false) (hup : s.shared.shutdown = false) :
    ∃ s', Run.exec (System.step cfg) s (List.replicate 6 (.manager .go)) = some s' ∧
      s'.manager = [.sleep (s.shared.now + s.locals.backoff)] ∧
      s'.shared.serverEvents = s.shared.serverEvents ++ [.reset "MCP server restarted"] ∧
      s'.shared.st.serverStatus = .restarting ∧
      s'.shared.st.cachedInitialize = none := by
  simp [List.replicate, Run.exec, System.step, hleft, hfree, hup, ManagerOp.locks, ManagerOp.run,
    ManagerOp.runResetFields, Shared.publishStatus, Shared.updateQueueDepth]

/-- **A reader's end is seen, where it follows the end of its process.** In
such a run the manager sees the end wherever it is in its write loop; at
the `select!` of any run it sees the end of the process and nothing else;
and from there it resets and restarts the child. -/
theorem reader_end_seen (cfg : Config) :
    (∀ s, Reachable cfg (fun s l => s.readerFollowsExit l = true) s → s.inWriteLoop = true →
      s.readerEnded = true → s.SeesEnd cfg) ∧
    (∀ s, Reachable cfg Run.Any s → s.manager = [.select] →
      (s.SeesEnd cfg ↔ ManagerOp.childAlive s.shared.children = false)) ∧
    ∀ s, Reachable cfg Run.Any s → s.manager = [.publishStatus, .cleanup true] →
      s.shared.shutdown = false →
      ∃ s', Run.exec (System.step cfg) s (List.replicate 6 (.manager .go)) = some s' ∧
        s'.manager = [.sleep (s.shared.now + s.locals.backoff)] ∧
        s'.shared.serverEvents = s.shared.serverEvents ++ [.reset "MCP server restarted"] ∧
        s'.shared.st.serverStatus = .restarting ∧
        s'.shared.st.cachedInitialize = none := by
  refine ⟨fun s h hloop hended => ?_, fun s _ hselect => seesEnd_select_iff hselect,
    fun s h hleft hup => ?_⟩
  · obtain ⟨op, hop, hin⟩ := List.any_eq_true.1 hloop
    have hpoint := ManagerOp.detail_of_inLoop hin
    have hfree : s.shared.stateLocked = false := by
      cases hlocked : s.shared.stateLocked with
      | false => rfl
      | true =>
        rw [Reachable.lockedAtLimit h hlocked, List.mem_singleton] at hop
        subst hop
        cases hin
    rcases Reachable.shaped h with hnil | ⟨details, op', hops, hdetails, -⟩
    · rw [hnil] at hop
      cases hop
    · have hop' : op'.inLoop = true := by
        rw [hops] at hop
        rcases List.mem_append.1 hop with hop | hop
        · rw [hdetails op hop] at hpoint
          cases hpoint
        · rwa [← List.mem_singleton.1 hop]
      exact seesEnd_of_over ⟨h.readToTheEnd hloop hended, hfree⟩ hops hdetails hop'
  · have hfree : s.shared.stateLocked = false := by
      cases hlocked : s.shared.stateLocked with
      | false => rfl
      | true =>
        have hstuck := Reachable.lockedAtLimit h hlocked
        rw [hleft] at hstuck
        cases hstuck
    exact restarts_of_left hleft hfree hup

/-- The child exits, and its reader comes to the end of its stdout. -/
def readToTheEndRun : List Label := startRun ++ [Label.childExits 0, .readerEnds 0]

/-- The manager is in its write loop there, and sees the end. -/
theorem reader_end_seen_readToTheEndRun :
    (Config.small.after readToTheEndRun).inWriteLoop = true ∧
      (Config.small.after readToTheEndRun).readerEnded = true ∧
      (Config.small.after readToTheEndRun).SeesEnd .small := by
  have hruns : Config.small.runs readToTheEndRun = true := by decide +kernel
  have hloop : (Config.small.after readToTheEndRun).inWriteLoop = true := by decide +kernel
  have hended : (Config.small.after readToTheEndRun).readerEnded = true := by decide +kernel
  have hreach := Config.small.reachable_of_meets System.readerFollowsExit hruns
    (by decide +kernel)
  exact ⟨hloop, hended, (reader_end_seen .small).1 _ hreach hloop hended⟩

/-- The reader of a living child ends: it closes its stdout, or writes a line
that is no message. -/
def unreadRun : List Label := startRun ++ [Label.readerEnds 0]

/-- **A living child whose reader has ended is kept running.** -/
theorem not_seesEnd_unreadRun : ¬ ∀ (cfg : Config) (s : System), Reachable cfg Run.Any s →
    s.inWriteLoop = true → s.readerEnded = true → s.SeesEnd cfg := by
  intro hall
  have hruns : Config.small.runs unreadRun = true := by decide +kernel
  have hselect : (Config.small.after unreadRun).manager = [.select] := by
    have hmain : (Config.small.after unreadRun).manager.map
        (fun op => match op with | .select => true | _ => false) = [true] := by decide +kernel
    obtain ⟨op, hops, hop⟩ := List.map_eq_singleton_iff.1 hmain
    rw [hops]
    cases op <;> first | rfl | cases hop
  have hsees := hall .small _ (Config.small.reachable_after hruns) (by decide +kernel)
    (by decide +kernel)
  have hdead := (seesEnd_select_iff hselect).1 hsees
  have halive : ManagerOp.childAlive (Config.small.after unreadRun).shared.children = true := by
    decide +kernel
  rw [halive] at hdead
  cases hdead

end Mux

end VcOperator
