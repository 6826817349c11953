import VcOperator.Mux.Helpers.ManagerMoves
import VcOperator.Mux.Helpers.Sound
/-!
# The way to the child's stdin

A message that was put on the queue is, until it is written or lost, on
the queue or in the manager's hands. `Stepped.conveys` says all that one
step can do to it: a message comes onto the way only out of the hands of
a handler or of the inspector, and what is written comes from the way and
goes to the newest child.
-/

namespace VcOperator

namespace Mux

/-- The messages an operation of the manager has in its hands. -/
def ManagerOp.inHand : ManagerOp → List Value
  | checkLimit firstMsg | spawn firstMsg | takePipes firstMsg => firstMsg.toList
  | writeFirst msg | writeMessage msg => [msg]
  | _ => []

/-- The operation writes the message to the child. -/
def ManagerOp.Writes (op : ManagerOp) (msg : Value) : Prop :=
  op = .writeFirst msg ∨ op = .writeMessage msg

/-- The message a handler's operation is about to put on the queue. -/
def ClientOp.outgoing : ClientOp → List Value
  | trySend msg | send msg _ => [msg.val]
  | _ => []

/-- What was written to the `k`-th of the children: nothing, before it is spawned. -/
def writtenIn (children : List Child) (k : ℕ) : List Value :=
  ((children[k]?).map (·.written)).getD []

namespace System

/-- What is on its way to the child, the next message first. -/
def onTheWay (s : System) : List Value :=
  s.manager.flatMap ManagerOp.inHand ++ s.shared.toServer

/-- What was written to the stdin of an incarnation. -/
def writtenTo (s : System) (k : ℕ) : List Value := writtenIn s.shared.children k

end System

variable {cfg : Config} {s s' : System} {l : Label} {sh sh' : Shared}

theorem System.mem_onTheWay {m : Value} :
    m ∈ s.onTheWay ↔ (∃ op ∈ s.manager, m ∈ op.inHand) ∨ m ∈ s.shared.toServer := by
  rw [System.onTheWay, List.mem_append, List.mem_flatMap]

/-- **One step on the way to the child.** -/
structure System.Conveys (s : System) (l : Label) (s' : System) : Prop where
  comes : ∀ m ∈ s'.onTheWay, m ∈ s.onTheWay ∨ ∃ p, s'.shared.put = s.shared.put ++ [p] ∧ m = p.msg
  put : s'.shared.put = s.shared.put ∨ ∃ p, s'.shared.put = s.shared.put ++ [p] ∧
    ((∃ c op rest, l = .handler c ∧ s.handlers c = op :: rest ∧ p.msg ∈ op.outgoing) ∨
      ∃ n, p.msg = HeartbeatOp.pingMessage n)
  written : ∀ k, s'.writtenTo k = s.writtenTo k ∨
    ∃ m ∈ s.onTheWay, s'.writtenTo k = s.writtenTo k ++ [m] ∧
      k + 1 = s.shared.children.length ∧ ∃ op ∈ s.manager, op.Writes m

/-! ## The manager's part -/

theorem writtenIn_modify {children : List Child} {j : ℕ} {f : Child → Child}
    (hf : ∀ ch, (f ch).written = ch.written) (k : ℕ) :
    writtenIn (children.modify j f) k = writtenIn children k := by
  unfold writtenIn
  rw [List.getElem?_modify]
  cases children[k]? with
  | none => rfl
  | some ch =>
    by_cases hjk : j = k
    · simp [hjk, hf]
    · simp [hjk]

theorem writtenIn_append (children : List Child) (pid k : ℕ) :
    writtenIn (children ++ [⟨pid, true, [], false⟩]) k = writtenIn children k := by
  unfold writtenIn
  rcases Nat.lt_trichotomy k children.length with hlt | rfl | hgt
  · rw [List.getElem?_append_left hlt]
  · simp
  · rw [List.getElem?_eq_none (by simp; omega), List.getElem?_eq_none (by omega)]

/-- A write reaches the newest child. -/
theorem writtenIn_writeToChild (msg : Value) (children : List Child) (k : ℕ) :
    writtenIn (ManagerOp.writeToChild msg children) k = writtenIn children k ∨
      writtenIn (ManagerOp.writeToChild msg children) k = writtenIn children k ++ [msg] ∧
        k + 1 = children.length := by
  unfold writtenIn ManagerOp.writeToChild
  rw [List.getElem?_modify]
  cases hget : children[k]? with
  | none => exact .inl rfl
  | some ch =>
    have hk := (List.getElem?_eq_some_iff.1 hget).1
    by_cases hlast : children.length - 1 = k
    · exact .inr ⟨by simp [hlast], by omega⟩
    · exact .inl (by simp [hlast])

namespace ManagerOp

variable {mcfg : ManagerConfig} {choice : Choice} {loc loc' : ManagerLocals} {op : ManagerOp}
  {ops : List ManagerOp}

/-- **What an operation of the manager conveys.** -/
structure Conveys (sh : Shared) (op : ManagerOp) (sh' : Shared) (ops : List ManagerOp) : Prop where
  comes : ∀ m, (∃ op' ∈ ops, m ∈ op'.inHand) ∨ m ∈ sh'.toServer → m ∈ op.inHand ∨ m ∈ sh.toServer
  written : ∀ k, writtenIn sh'.children k = writtenIn sh.children k ∨
    ∃ m, op.Writes m ∧ writtenIn sh'.children k = writtenIn sh.children k ++ [m] ∧
      k + 1 = sh.children.length

theorem Writes.inHand {msg : Value} (h : op.Writes msg) : op.inHand = [msg] := by
  rcases h with rfl | rfl <;> rfl

/-- An operation that writes nothing, and goes on with empty hands. -/
theorem Conveys.of_empty (hops : ∀ op' ∈ ops, op'.inHand = []) (hto : sh'.toServer ⊆ sh.toServer)
    (hchildren : ∀ k, writtenIn sh'.children k = writtenIn sh.children k) :
    Conveys sh op sh' ops where
  comes := by
    rintro m (⟨op', hop', hm⟩ | hm)
    · rw [hops op' hop'] at hm
      cases hm
    · exact .inr (hto hm)
  written := fun k => .inl (hchildren k)

/-- The branches of the `select!`. -/
theorem conveys_runSelect (h : runSelect choice sh = some (sh', ops)) :
    Conveys sh .select sh' ops := by
  cases choice with
  | received =>
    simp only [runSelect] at h
    split at h
    · cases h
    · rename_i msg rest hmsg
      cases h
      refine ⟨fun m hm => .inr ?_, fun _ => .inl rfl⟩
      rw [hmsg]
      simpa [inHand] using hm
  | queueClosed | childExited | heartbeatRestart | shutdown =>
    simp only [runSelect] at h
    split at h <;> cases h
    exact .of_empty (by simp [leave, inHand]) (List.Subset.refl _) fun _ => rfl
  | waitError e | joinError =>
    cases h
    exact .of_empty (by simp [leave, inHand]) (List.Subset.refl _) fun _ => rfl
  | go | spawned _ | spawnFailed | pipeMissing | written | writeFailed _ => cases h

theorem conveys_run (h : op.run mcfg choice loc sh = some (loc', sh', ops)) :
    Conveys sh op sh' ops := by
  by_cases hselect : op = .select
  · subst hselect
    obtain ⟨⟨sh₁, ops₁⟩, hsel, heq⟩ := Option.map_eq_some_iff.1 h
    cases heq
    exact conveys_runSelect hsel
  cases moved_run h with
  | left => exact absurd rfl hselect
  | detail hop haside =>
    refine .of_empty (by simp) (haside.toServer ▸ List.Subset.refl _) fun k => ?_
    rw [haside.children]
  | returned | published | spawnFailed | pipeMissing | lostFirst =>
    exact .of_empty (by simp) (List.Subset.refl _) fun _ => rfl
  | loop | halted | lost | cleanup | backoff | woke =>
    exact .of_empty (by simp [inHand]) (List.Subset.refl _) fun _ => rfl
  | received => exact absurd rfl hselect
  | head hop =>
    refine .of_empty (fun op' hop' => ?_) (List.Subset.refl _) fun _ => rfl
    rw [List.mem_singleton.1 hop']
    rcases hop with rfl | rfl <;> rfl
  | dropped hmsg =>
    refine .of_empty (by simp) ?_ fun _ => rfl
    rw [hmsg]
    exact List.subset_cons_self ..
  | first hmsg =>
    refine ⟨fun m hm => .inr ?_, fun _ => .inl rfl⟩
    rw [hmsg]
    simpa [inHand] using hm
  | underLimit => exact ⟨by simp [inHand], fun _ => .inl rfl⟩
  | atLimit hlimit haside =>
    refine .of_empty (by simp [inHand]) (haside.toServer ▸ List.Subset.refl _) fun k => ?_
    rw [haside.children]
  | spawned => exact ⟨by simp [inHand], fun k => .inl (writtenIn_append ..)⟩
  | @piped firstMsg =>
    refine ⟨?_, fun k => .inl (writtenIn_modify ?_ k)⟩
    · cases firstMsg <;> simp [inHand]
    · exact fun _ => rfl
  | @wroteFirst msg =>
    refine ⟨fun m hm => .inr (by simpa using hm), fun k => ?_⟩
    exact (writtenIn_writeToChild msg sh.children k).imp_right fun h => ⟨msg, .inl rfl, h⟩
  | @wrote msg =>
    refine ⟨fun m hm => .inr (by simpa [inHand] using hm), fun k => ?_⟩
    exact (writtenIn_writeToChild msg sh.children k).imp_right fun h => ⟨msg, .inr rfl, h⟩

end ManagerOp

/-! ## The steps -/

/-- A step that puts nothing, and writes nothing. -/
theorem System.Conveys.frame (hto : s'.shared.toServer = s.shared.toServer)
    (hput : s'.shared.put = s.shared.put) (hmanager : s'.manager = s.manager)
    (hwritten : ∀ k, writtenIn s'.shared.children k = writtenIn s.shared.children k) :
    s.Conveys l s' where
  comes := fun m hm => by
    rw [onTheWay, hmanager, hto] at hm
    exact .inl hm
  put := .inl hput
  written := fun k => .inl (hwritten k)

/-- A step that puts one message. -/
theorem System.Conveys.putting {p : Put} (hto : s'.shared.toServer = s.shared.toServer ++ [p.msg])
    (hput : s'.shared.put = s.shared.put ++ [p]) (hmanager : s'.manager = s.manager)
    (hchildren : s'.shared.children = s.shared.children)
    (hp : (∃ c op rest, l = .handler c ∧ s.handlers c = op :: rest ∧ p.msg ∈ op.outgoing) ∨
      ∃ n, p.msg = HeartbeatOp.pingMessage n) : s.Conveys l s' where
  comes := fun m hm => by
    rw [mem_onTheWay, hmanager, hto] at hm
    rcases hm with hm | hm
    · exact .inl (mem_onTheWay.2 (.inl hm))
    · rcases List.mem_append.1 hm with hm | hm
      · exact .inl (mem_onTheWay.2 (.inr hm))
      · exact .inr ⟨p, hput, List.mem_singleton.1 hm⟩
  put := .inr ⟨p, hput, hp⟩
  written := fun k => by
    rw [writtenTo, writtenTo, hchildren]
    exact .inl rfl

/-- **A step of a mux, on the way to the child.** -/
theorem Stepped.conveys (h : Stepped cfg s l s') (hs : s.Sound) : s.Conveys l s' := by
  cases h with
  | @handler c op rest ops sh hops hrun =>
    cases ClientOp.feeds_run hrun with
    | nothing hunfed =>
      exact .frame hunfed.toServer hunfed.put rfl fun _ => by rw [hunfed.children]
    | flag => exact .frame rfl rfl rfl fun _ => rfl
    | @trySend msg hroom =>
      exact .putting rfl rfl rfl rfl (.inl ⟨c, _, rest, rfl, hops, List.mem_singleton_self _⟩)
    | @send msg isInitialize _ hroom hunfed =>
      exact .putting hunfed.toServer hunfed.put rfl hunfed.children
        (.inl ⟨c, _, rest, rfl, hops, List.mem_singleton_self _⟩)
  | @writer c op rest ops sh hops hrun =>
    rcases hs.writers c op (by simp [hops]) with rfl | rfl <;>
    · cases hrun
      exact .frame rfl rfl rfl fun _ => rfl
  | @routerTurn event rest hidle hevents =>
    have hunfed := unfed_dispatch event rest s.shared
    exact .frame hunfed.toServer hunfed.put rfl fun k => congrArg (writtenIn · k) hunfed.children
  | router hops hrun =>
    have hunfed := RouterOp.unfed_run hrun
    exact .frame hunfed.toServer hunfed.put rfl fun k => congrArg (writtenIn · k) hunfed.children
  | reaper hops hrun =>
    have hunfed := ReaperOp.unfed_run hrun
    exact .frame hunfed.toServer hunfed.put rfl fun k => congrArg (writtenIn · k) hunfed.children
  | heartbeat hops hrun =>
    cases HeartbeatOp.feeds_run hrun with
    | nothing hunfed =>
      exact .frame hunfed.toServer hunfed.put rfl fun k => congrArg (writtenIn · k) hunfed.children
    | @probe n t hroom => exact .putting rfl rfl rfl rfl (.inr ⟨n, rfl⟩)
  | @manager choice op rest ops loc sh hops hlock hrun =>
    obtain ⟨hcomes, hwritten⟩ := ManagerOp.conveys_run hrun
    have hrest : ∀ m, (∃ op' ∈ rest, m ∈ op'.inHand) → m ∈ s.onTheWay := by
      rintro m ⟨op', hop', hm⟩
      exact System.mem_onTheWay.2 (.inl ⟨op', by simp [hops, hop'], hm⟩)
    have hfirst : ∀ m, m ∈ op.inHand ∨ m ∈ s.shared.toServer → m ∈ s.onTheWay := by
      rintro m (hm | hm)
      · exact System.mem_onTheWay.2 (.inl ⟨op, by simp [hops], hm⟩)
      · exact System.mem_onTheWay.2 (.inr hm)
    refine ⟨fun m hm => .inl ?_, .inl (ManagerOp.unput_run hrun).put, fun k => ?_⟩
    · rcases System.mem_onTheWay.1 hm with ⟨op', hop', hm⟩ | hm
      · rcases List.mem_append.1 hop' with hop' | hop'
        · exact hfirst m (hcomes m (.inl ⟨op', hop', hm⟩))
        · exact hrest m ⟨op', hop', hm⟩
      · exact hfirst m (hcomes m (.inr hm))
    · refine (hwritten k).imp_right ?_
      rintro ⟨m, hwrites, heq, hk⟩
      have hm : m ∈ op.inHand := by rw [hwrites.inHand]; exact List.mem_singleton_self m
      exact ⟨m, hfirst m (.inl hm), heq, hk, op, by simp [hops], hwrites⟩
  | readerEnds hreads | childExits =>
    refine .frame rfl rfl rfl fun k => writtenIn_modify ?_ k
    exact fun _ => rfl
  | connect | receive | disconnect | decodeError | handshakeTimeout | handshakeTick
  | writerFails | reaperTick | heartbeatTick | heartbeatEvent | childOutput | shutdown
  | elapse => exact .frame rfl rfl rfl fun _ => rfl

/-! ## What comes onto the way -/

namespace ClientOp

variable {enc : Value → ℕ} {c : ℕ} {op : ClientOp} {ops : List ClientOp} {P : Value → Prop}

/-- What an operation has yet to forward: a `notifications/initialized`, a
message without an id, or a request, of which `P` holds. -/
def Forwards (P : Value → Prop) : ClientOp → Prop
  | markServerInitialized msg => method msg.val = "notifications/initialized"
  | trySend msg => msg.val.get "id" = none ∨ method msg.val = "notifications/initialized"
  | send msg _ => P msg.val
  | _ => True

theorem Forwards.imp {Q : Value → Prop} (h : op.Forwards P) (hPQ : ∀ m, P m → Q m) :
    op.Forwards Q := by
  cases op with
  | send msg _ => exact hPQ _ h
  | _ => exact h

/-- `P` holds of what is given the next id, once that is issued. -/
def AllIssued (P : Value → Prop) (c : ℕ) (sh sh' : Shared) : Prop :=
  ∀ val, (val.get "id").isSome = true → sh'.st.nextGlobalId = sh.st.nextGlobalId + 1 →
    P (setId val (.string (globalId c sh.st.nextGlobalId)))

/-- **What an operation goes on to forward**, where `P` holds of what is
given the next id. -/
theorem forwards_run (h : op.run enc c sh = some (sh', ops)) (hsound : op.Sound sh.received c)
    (hop : op.Forwards P) (hP : AllIssued P c sh sh') : ∀ op' ∈ ops, op'.Forwards P := by
  intro op' hop'
  cases goesOn_of_run h hop' with
  | initialized hmethod => exact hmethod
  | notification _ _ hid => exact .inl hid
  | announce => exact .inr hop
  | @flushSend msg _ _ hid h' | @send msg _ hid h' =>
    subst h'
    exact hP msg.val (by rw [hid]; rfl) rfl
  | @sendInitialize val lid h' =>
    subst h'
    have hnext := (quiet_initializePending sh c).nextGlobalId
    show P (setId val (.string (globalId c (initializePending sh c).st.nextGlobalId)))
    rw [hnext]
    exact hP val hsound.2 (congrArg (· + 1) hnext)
  | _ => trivial

end ClientOp

/-- What the handlers have yet to forward. -/
def System.Forwards (P : Value → Prop) (s : System) : Prop :=
  ∀ c, ∀ op ∈ s.handlers c, op.Forwards P

theorem Stepped.forwards {P : Value → Prop} (h : Stepped cfg s l s') (hsound : s.Sound)
    (hs : s.Forwards P) (hP : ∀ c, ClientOp.AllIssued P c s.shared s'.shared) :
    s'.Forwards P := by
  cases h with
  | connect | receive =>
    exact forall_mem_update hs fun op hop => by rw [List.mem_singleton.1 hop]; trivial
  | disconnect | decodeError | handshakeTimeout =>
    exact forall_mem_update hs (by simp [System.farewell, ClientOp.Forwards])
  | @handler c op rest ops sh hops hrun =>
    refine forall_mem_update hs fun op' hop' => ?_
    rcases List.mem_append.1 hop' with hop' | hop'
    · exact ClientOp.forwards_run hrun (hsound.handlers c op (by simp [hops]))
        (hs c op (by simp [hops])) (hP c) op' hop'
    · exact hs c op' (by simp [hops, hop'])
  | writer | handshakeTick | writerFails | routerTurn | router | reaperTick | reaper
  | heartbeatTick | heartbeatEvent | heartbeat | manager | childOutput | readerEnds | childExits
  | shutdown | elapse => exact hs

theorem Reachable.forwards {ok : System → Label → Prop} (h : Reachable cfg ok s) :
    s.Forwards fun _ => True :=
  h.invariant_of (I := System.Forwards fun _ => True) (J := System.Sound)
    (fun _ hr => Reachable.sound hr) (fun c op hop => by cases hop)
    fun _ _ _ _ hsound hs hstep =>
      (stepped_of_step hstep).forwards hsound hs fun _ _ _ _ => trivial

end Mux

end VcOperator
