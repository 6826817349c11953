import VcOperator.Mux.Helpers.Sound
/-!
# The handshakes

What the operations do to the handshakes of the clients. A handler changes
its own client's, and unregistering removes it; the router, the reaper,
the inspector and the manager change none.
-/

namespace VcOperator

namespace Mux

variable {sh sh' : Shared} {st st' : MuxState} {c : ℕ}

/-! ## One handshake -/

/-- A completed handshake holds nothing back. -/
def MuxState.Released (st : MuxState) (c : ℕ) : Prop :=
  ∀ h, st.clientHandshakes.get c = some h → h.initialized = true → h.bufferedMessages = []

/-- Client `c`'s handshake, where it has one, is not complete. -/
def MuxState.Unfinished (st : MuxState) (c : ℕ) : Prop :=
  ∀ h, st.clientHandshakes.get c = some h → h.initialized = false

theorem MuxState.Released.buffered (hr : st.Released c) (h : st.isHandshakeComplete c = true) :
    st.bufferedMessages c = [] := by
  unfold isHandshakeComplete at h
  unfold bufferedMessages
  split at h
  · rename_i hs hget
    exact hr hs hget h
  · rfl

theorem MuxState.unfinished_of_not_complete (h : ¬ st.isHandshakeComplete c = true) :
    st.Unfinished c := by
  intro hs hget
  unfold isHandshakeComplete at h
  rw [hget] at h
  exact Bool.not_eq_true _ ▸ h

/-- The handshake of a client is as it was, up to the mark of a pending `initialize`. -/
structure SameHandshake (c : ℕ) (st st' : MuxState) : Prop where
  buffered : st'.bufferedMessages c = st.bufferedMessages c
  flag : ∀ h', st'.clientHandshakes.get c = some h' → ∃ h, st.clientHandshakes.get c = some h ∧
    h'.initialized = h.initialized ∧ h'.bufferedMessages = h.bufferedMessages

theorem SameHandshake.of_get_eq (h : st'.clientHandshakes.get c = st.clientHandshakes.get c) :
    SameHandshake c st st' where
  buffered := by simp only [MuxState.bufferedMessages, h]
  flag := fun h' hget => ⟨h', by rw [← h, hget], rfl, rfl⟩

theorem SameHandshake.of_eq (h : st'.clientHandshakes = st.clientHandshakes) :
    SameHandshake c st st' :=
  .of_get_eq (by rw [h])

theorem SameHandshake.released (h : SameHandshake c st st') (hr : st.Released c) :
    st'.Released c := by
  intro h' hget hdone
  obtain ⟨h₀, hget₀, hflag, hbuf⟩ := h.flag h' hget
  rw [hbuf]
  exact hr h₀ hget₀ (hflag ▸ hdone)

theorem SameHandshake.unfinished (h : SameHandshake c st st') (hu : st.Unfinished c) :
    st'.Unfinished c := by
  intro h' hget
  obtain ⟨h₀, hget₀, hflag, -⟩ := h.flag h' hget
  rw [hflag]
  exact hu h₀ hget₀

theorem sameHandshake_initializePending (sh : Shared) (c c' : ℕ) :
    SameHandshake c' sh.st (ClientOp.initializePending sh c).st := by
  simp only [ClientOp.initializePending, MuxState.markInitializePending]
  split
  · rename_i h hget
    rcases eq_or_ne c' c with rfl | hne
    · refine ⟨?_, fun h' hget' => ?_⟩
      · simp only [MuxState.bufferedMessages, HashMap.get_insert, hget]
      rw [HashMap.get_insert, Option.some.injEq] at hget'
      subst hget'
      exact ⟨h, hget, rfl, rfl⟩
    · exact .of_get_eq (HashMap.get_insert_ne hne _)
  · exact .of_eq rfl

namespace MuxState

theorem get_markHandshakeComplete_ne {c' : ℕ} (hne : c' ≠ c) (st : MuxState) :
    (st.markHandshakeComplete c).clientHandshakes.get c' = st.clientHandshakes.get c' := by
  unfold markHandshakeComplete
  split
  · exact HashMap.get_insert_ne hne _
  · rfl

/-- A handshake that is completed holds nothing back. -/
theorem buffered_markHandshakeComplete (st : MuxState) (c : ℕ) :
    (st.markHandshakeComplete c).bufferedMessages c = [] := by
  unfold markHandshakeComplete
  split
  · simp only [bufferedMessages, HashMap.get_insert]
  · rename_i hget
    simp only [bufferedMessages, hget]

theorem get_bufferMessage_ne {c' : ℕ} (hne : c' ≠ c) (st : MuxState) (msg : Tagged Value) :
    (st.bufferMessage c msg).clientHandshakes.get c' = st.clientHandshakes.get c' := by
  unfold bufferMessage
  split
  · exact HashMap.get_insert_ne hne _
  · rfl

theorem released_bufferMessage (hu : st.Unfinished c) (msg : Tagged Value) :
    (st.bufferMessage c msg).Released c := by
  unfold bufferMessage
  split
  · rename_i h hget
    intro h' hget' hdone
    replace hget' : (st.clientHandshakes.insert c _).get c = some h' := hget'
    rw [HashMap.get_insert, Option.some.injEq] at hget'
    subst hget'
    rw [hu h hget] at hdone
    cases hdone
  · intro h' hget' hdone
    rw [hu h' hget'] at hdone
    cases hdone

theorem buffered_unregisterClient_self (st : MuxState) (c : ℕ) :
    (st.unregisterClient c).bufferedMessages c = [] := by
  rw [bufferedMessages_unregisterClient, if_pos rfl]

end MuxState

theorem MuxState.released_of_nil (h : st.bufferedMessages c = []) : st.Released c := by
  intro hs hget _
  rwa [bufferedMessages, hget] at h

/-! ## The tasks that leave the handshakes alone -/

/-- The router changes no handshake. -/
theorem RouterOp.clientHandshakes_run {order : List String} {op : RouterOp} {ops : List RouterOp}
    (h : op.run order sh = some (sh', ops)) :
    sh'.st.clientHandshakes = sh.st.clientHandshakes :=
  congrArg (·.st.clientHandshakes) (run_frame h)

theorem clientHandshakes_dispatch (event : ServerEvent) (rest : List ServerEvent) (sh : Shared) :
    (RouterOp.dispatch event { sh with serverEvents := rest }).1.st.clientHandshakes =
      sh.st.clientHandshakes :=
  congrArg (·.st.clientHandshakes) (RouterOp.dispatch_frame event rest sh)

/-- Nor does the reaper. -/
theorem ReaperOp.clientHandshakes_run {order : List String} {op : ReaperOp} {ops : List ReaperOp}
    (h : op.run order sh = some (sh', ops)) :
    sh'.st.clientHandshakes = sh.st.clientHandshakes :=
  congrArg (·.st.clientHandshakes) (run_frame h)

/-- Nor does the inspector. -/
theorem HeartbeatOp.clientHandshakes_run {hb hb' : HeartbeatState} {op : HeartbeatOp}
    {ops : List HeartbeatOp} (h : op.run hb sh = some (hb', sh', ops)) :
    sh'.st.clientHandshakes = sh.st.clientHandshakes :=
  congrArg (·.st.clientHandshakes) (run_frame h)

/-- Nor does the manager. -/
theorem ManagerOp.clientHandshakes_run {mcfg : ManagerConfig} {choice : Choice}
    {loc loc' : ManagerLocals} {op : ManagerOp} {ops : List ManagerOp}
    (h : op.run mcfg choice loc sh = some (loc', sh', ops)) :
    sh'.st.clientHandshakes = sh.st.clientHandshakes :=
  congrArg (·.st.clientHandshakes) (run_frame h)

/-! ## What is new in a handshake -/

/-- Client `c` has completed its handshake. -/
def MuxState.Completed (st : MuxState) (c : ℕ) : Prop :=
  ∃ h, st.clientHandshakes.get c = some h ∧ h.initialized = true

/-- **Between two states no handshake is completed**, but where `done` says
so, and no message is buffered but those of `new`. -/
structure Handshaking (st st' : MuxState) (done : ℕ → Prop) (new : Tagged Value → Prop) : Prop where
  completed : ∀ c, st'.Completed c → st.Completed c ∨ done c
  buffered : ∀ c, ∀ m ∈ st'.bufferedMessages c, m ∈ st.bufferedMessages c ∨ new m

variable {done : ℕ → Prop} {new : Tagged Value → Prop}

theorem Handshaking.of_same (h : ∀ c, SameHandshake c st st') : Handshaking st st' done new where
  completed := by
    rintro c ⟨h', hget, hdone⟩
    obtain ⟨h₀, hget₀, hflag, -⟩ := (h c).flag h' hget
    exact .inl ⟨h₀, hget₀, hflag ▸ hdone⟩
  buffered := fun c m hm => .inl ((h c).buffered ▸ hm)

theorem Handshaking.of_eq (h : st'.clientHandshakes = st.clientHandshakes) :
    Handshaking st st' done new :=
  .of_same fun _ => .of_eq h

/-- A client that is unregistered has no handshake any more. -/
theorem handshaking_unregisterClient (st : MuxState) (c : ℕ) :
    Handshaking st (st.unregisterClient c) done new where
  completed := by
    rintro c' ⟨h, hget, hdone⟩
    replace hget : (st.clientHandshakes.remove c).get c' = some h := hget
    rcases eq_or_ne c' c with rfl | hne
    · rw [HashMap.get_remove] at hget
      cases hget
    · rw [HashMap.get_remove_ne hne] at hget
      exact .inl ⟨h, hget, hdone⟩
  buffered := by
    intro c' m hm
    rw [st.bufferedMessages_unregisterClient] at hm
    split at hm
    · cases hm
    · exact .inl hm

/-- A client that registers has not completed its handshake. -/
theorem handshaking_registerClient (st : MuxState) (now : ℕ) :
    Handshaking st (st.registerClient now) done new where
  completed := by
    rintro c ⟨h, hget, hdone⟩
    replace hget : (st.clientHandshakes.insert st.nextClientId _).get c = some h := hget
    rcases eq_or_ne c st.nextClientId with rfl | hne
    · rw [HashMap.get_insert, Option.some.injEq] at hget
      rw [← hget] at hdone
      cases hdone
    · rw [HashMap.get_insert_ne hne] at hget
      exact .inl ⟨h, hget, hdone⟩
  buffered := by
    intro c m hm
    rw [st.bufferedMessages_registerClient] at hm
    split at hm
    · cases hm
    · exact .inl hm

/-- **What a handler's operation does to the handshakes.** -/
theorem ClientOp.handshaking_run {enc : Value → ℕ} {op : ClientOp} {ops : List ClientOp}
    (h : op.run enc c sh = some (sh', ops)) :
    Handshaking sh.st sh'.st (fun c' => op = .completeHandshake ∧ c' = c)
      (fun m => op = .bufferMessage m) := by
  have hforwards : ∀ {msg : Tagged Value} {sh₁ : Shared} {ops₁ : List ClientOp},
      Forwarded c msg sh sh₁ ops₁ → sh₁.st.clientHandshakes = sh.st.clientHandshakes := by
    rintro _ _ _ (_ | _ | _) <;> rfl
  cases op with
  | completeHandshake =>
    cases h
    refine ⟨?_, fun c' m hm => ?_⟩
    · rintro c' ⟨h', hget, hdone⟩
      rcases eq_or_ne c' c with rfl | hne
      · exact .inr ⟨rfl, rfl⟩
      · replace hget : (sh.st.markHandshakeComplete c).clientHandshakes.get c' = some h' := hget
        rw [MuxState.get_markHandshakeComplete_ne hne] at hget
        exact .inl ⟨h', hget, hdone⟩
    · obtain ⟨hs, hst, -, hbuf⟩ := sh.st.markHandshakeComplete_spec c
      replace hm : m ∈ (sh.st.markHandshakeComplete c).bufferedMessages c' := hm
      rw [hst, hbuf] at hm
      split at hm
      · cases hm
      · exact .inl hm
  | bufferMessage msg =>
    cases h
    refine ⟨?_, fun c' m hm => ?_⟩
    · rintro c' ⟨h', hget, hdone⟩
      replace hget : (sh.st.bufferMessage c msg).clientHandshakes.get c' = some h' := hget
      rcases eq_or_ne c' c with rfl | hne
      · unfold MuxState.bufferMessage at hget
        split at hget
        · rename_i h₀ hget₀
          rw [HashMap.get_insert, Option.some.injEq] at hget
          rw [← hget] at hdone
          exact .inl ⟨h₀, hget₀, hdone⟩
        · exact .inl ⟨h', hget, hdone⟩
      · rw [MuxState.get_bufferMessage_ne hne] at hget
        exact .inl ⟨h', hget, hdone⟩
    · obtain ⟨hs, hst, -, hbuf⟩ := sh.st.bufferMessage_spec c msg
      replace hm : m ∈ (sh.st.bufferMessage c msg).bufferedMessages c' := hm
      rw [hst, hbuf] at hm
      split at hm
      · refine (List.mem_append.1 hm).imp_right fun hm => ?_
        rw [List.mem_singleton.1 hm]
      · exact .inl hm
  | unregisterClient => cases h; exact handshaking_unregisterClient sh.st c
  | forwardRequest msg =>
    rw [run, Option.some.injEq] at h
    exact .of_eq (hforwards (forwarded_of_run h))
  | flushBuffered buffered =>
    cases buffered with
    | nil => cases h; exact .of_eq rfl
    | cons msg buffered =>
      cases hr : runForwardRequest c msg sh with
      | mk sh₁ ops₁ =>
        rw [run, hr] at h
        cases h
        exact .of_eq (hforwards (forwarded_of_run hr))
  | handleInitialize val lid =>
    rw [run, Option.some.injEq] at h
    have hsame := sameHandshake_initializePending sh c
    cases initialized_of_run h with
    | cached | parked | refused | forwarded =>
      exact .of_same fun c' => ⟨(hsame c').buffered, (hsame c').flag⟩
  | trySend msg | markServerInitialized msg | checkHandshake msg =>
    simp only [run] at h
    split at h <;> cases h <;> exact .of_eq rfl
  | send msg isInitialize =>
    simp only [run] at h
    split at h
    · cases h; exact .of_eq rfl
    · split at h
      · cases h
        cases isInitialize <;> exact .of_eq rfl
      · cases h
  | handleClientMessage _ | rejectTooLarge _ | rejectHandshakeTimeout | updateQueueDepth
  | publishStatus | releasePermit => cases h; exact .of_eq rfl

/-- **What a step of a mux does to the handshakes.** -/
theorem Stepped.handshaking {cfg : Config} {s s' : System} {l : Label} (h : Stepped cfg s l s')
    (hs : s.Sound) :
    Handshaking s.shared.st s'.shared.st
      (fun c => ∃ rest, l = .handler c ∧ s.handlers c = .completeHandshake :: rest)
      (fun m => ∃ c rest, l = .handler c ∧ s.handlers c = .bufferMessage m :: rest) := by
  cases h with
  | @handler c op rest ops sh hops hrun =>
    obtain ⟨hcompleted, hbuffered⟩ := ClientOp.handshaking_run hrun
    refine ⟨fun c' hc' => (hcompleted c' hc').imp_right ?_,
      fun c' m hm => (hbuffered c' m hm).imp_right ?_⟩
    · rintro ⟨rfl, rfl⟩
      exact ⟨rest, rfl, hops⟩
    · rintro rfl
      exact ⟨c, rest, rfl, hops⟩
  | @writer c op rest ops sh hops hrun =>
    rcases hs.writers c op (by simp [hops]) with rfl | rfl
    · cases hrun; exact handshaking_unregisterClient s.shared.st c
    · cases hrun; exact .of_eq rfl
  | connect => exact handshaking_registerClient s.shared.st s.shared.now
  | @routerTurn event rest => exact .of_eq (clientHandshakes_dispatch event rest s.shared)
  | router hops hrun => exact .of_eq (RouterOp.clientHandshakes_run hrun)
  | reaper hops hrun => exact .of_eq (ReaperOp.clientHandshakes_run hrun)
  | heartbeat hops hrun => exact .of_eq (HeartbeatOp.clientHandshakes_run hrun)
  | manager hops hlock hrun => exact .of_eq (ManagerOp.clientHandshakes_run hrun)
  | receive | disconnect | decodeError | handshakeTimeout | handshakeTick | writerFails
  | reaperTick | heartbeatTick | heartbeatEvent | childOutput | readerEnds | childExits
  | shutdown | elapse => exact .of_eq rfl

end Mux

end VcOperator
