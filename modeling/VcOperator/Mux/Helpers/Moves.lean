import VcOperator.Mux.Helpers.Routed
/-!
# What a handler's lock sections do

The two functions that forward a request, `forward_request` and the
`initialize` branch of `handle_client_message`, by the branch they take,
and the operations an operation goes on with (`GoesOn`). Every invariant
of the request containers and of the handlers' lists cites these
inversions, and none unfolds the functions.
-/

namespace VcOperator

namespace Mux

/-! ## The handshake buffers -/

namespace MuxState

variable (st : MuxState) (c : ℕ)

/-- Completing a handshake empties that client's buffer, and only it. -/
theorem markHandshakeComplete_spec : ∃ hs,
    st.markHandshakeComplete c = { st with clientHandshakes := hs } ∧
    (∀ c', (hs.get c').isSome = (st.clientHandshakes.get c').isSome) ∧
    ∀ c', { st with clientHandshakes := hs }.bufferedMessages c' =
      if c' = c then [] else st.bufferedMessages c' := by
  cases hget : st.clientHandshakes.get c with
  | none =>
    refine ⟨st.clientHandshakes, ?_, fun _ => rfl, fun c' => ?_⟩
    · simp only [markHandshakeComplete, hget]
    · split_ifs with hc
      · subst hc
        simp only [bufferedMessages, hget]
      · rfl
  | some h =>
    refine ⟨st.clientHandshakes.insert c { h with initialized := true, bufferedMessages := [] },
      ?_, fun c' => ?_, fun c' => ?_⟩
    · simp only [markHandshakeComplete, hget]
    · rcases eq_or_ne c' c with rfl | hne
      · simp only [HashMap.get_insert, hget, Option.isSome_some]
      · simp only [HashMap.get_insert_ne hne]
    · split_ifs with hc
      · subst hc
        simp only [bufferedMessages, HashMap.get_insert]
      · simp only [bufferedMessages, HashMap.get_insert_ne hc]

/-- Buffering a message adds it to that client's buffer, where the client has one. -/
theorem bufferMessage_spec (msg : Tagged Value) : ∃ hs,
    st.bufferMessage c msg = { st with clientHandshakes := hs } ∧
    (∀ c', (hs.get c').isSome = (st.clientHandshakes.get c').isSome) ∧
    ∀ c', { st with clientHandshakes := hs }.bufferedMessages c' =
      if c' = c ∧ (st.clientHandshakes.get c).isSome then st.bufferedMessages c' ++ [msg]
      else st.bufferedMessages c' := by
  cases hget : st.clientHandshakes.get c with
  | none =>
    refine ⟨st.clientHandshakes, ?_, fun _ => rfl, fun c' => ?_⟩
    · simp only [bufferMessage, hget]
    · simp
  | some h =>
    refine ⟨st.clientHandshakes.insert c
      { h with bufferedMessages := h.bufferedMessages ++ [msg] }, ?_, fun c' => ?_, fun c' => ?_⟩
    · simp only [bufferMessage, hget]
    · rcases eq_or_ne c' c with rfl | hne
      · simp only [HashMap.get_insert, hget, Option.isSome_some]
      · simp only [HashMap.get_insert_ne hne]
    · rcases eq_or_ne c' c with rfl | hne
      · simp [bufferedMessages, hget]
      · simp [bufferedMessages, HashMap.get_insert_ne hne, hne]

/-- A client that is unregistered loses its buffer, and no other client does. -/
theorem bufferedMessages_unregisterClient (c' : ℕ) :
    (st.unregisterClient c).bufferedMessages c' =
      if c' = c then [] else st.bufferedMessages c' := by
  split_ifs with hc
  · subst hc
    simp only [unregisterClient, bufferedMessages, HashMap.get_remove]
  · simp only [unregisterClient, bufferedMessages, HashMap.get_remove_ne hc]

/-- A client that registers starts with an empty buffer. -/
theorem bufferedMessages_registerClient (now c' : ℕ) :
    (st.registerClient now).bufferedMessages c' =
      if c' = st.nextClientId then [] else st.bufferedMessages c' := by
  split_ifs with hc
  · subst hc
    simp only [registerClient, bufferedMessages, HashMap.get_insert]
  · simp only [registerClient, bufferedMessages, HashMap.get_insert_ne hc]

end MuxState

/-! ## The branches -/

namespace ClientOp

variable {c : ℕ} {msg lid : Tagged Value} {val : Value} {sh sh' : Shared} {ops : List ClientOp}

/-- **The branches of `handle_client_message`.** -/
inductive Dispatched (encodedLen : Value → ℕ) (maxRequestBytes : ℕ) (msg : Tagged Value) :
    List ClientOp → Prop
  | tooLarge : Dispatched encodedLen maxRequestBytes msg [rejectTooLarge msg]
  | initialized (hmethod : method msg.val = "notifications/initialized") :
      Dispatched encodedLen maxRequestBytes msg [markServerInitialized msg]
  | notification (hlen : encodedLen msg.val ≤ maxRequestBytes)
      (hmethod : method msg.val ≠ "notifications/initialized")
      (hid : msg.val.get "id" = none) :
      Dispatched encodedLen maxRequestBytes msg [trySend msg, updateQueueDepth, publishStatus]
  | initRequest {id : Value} (hmethod : method msg.val = "initialize")
      (hid : msg.val.get "id" = some id) :
      Dispatched encodedLen maxRequestBytes msg [handleInitialize msg.val ⟨id, msg.occ⟩]
  | request {id : Value} (hmethod : method msg.val ≠ "initialize")
      (hdone : method msg.val ≠ "notifications/initialized") (hid : msg.val.get "id" = some id) :
      Dispatched encodedLen maxRequestBytes msg [checkHandshake msg]

theorem dispatched (encodedLen : Value → ℕ) (maxRequestBytes : ℕ) (msg : Tagged Value) :
    Dispatched encodedLen maxRequestBytes msg (dispatch encodedLen maxRequestBytes msg) := by
  rw [dispatch]
  by_cases hlen : maxRequestBytes < encodedLen msg.val
  · rw [if_pos hlen]; exact .tooLarge
  rw [if_neg hlen]
  by_cases hdone : method msg.val = "notifications/initialized"
  · rw [if_pos hdone]; exact .initialized hdone
  rw [if_neg hdone]
  cases hid : msg.val.get "id" with
  | none => exact .notification (Nat.le_of_not_lt hlen) hdone hid
  | some id =>
    by_cases hinit : method msg.val = "initialize"
    · simp only [if_pos hinit]; exact .initRequest hinit hid
    · simp only [if_neg hinit]; exact .request hinit hdone hid

/-- **The branches of `forward_request`.** -/
inductive Forwarded (c : ℕ) (msg : Tagged Value) (sh : Shared) : Shared → List ClientOp → Prop
  | noId (hid : msg.val.get "id" = none) : Forwarded c msg sh sh []
  | refused {id : Value} (hid : msg.val.get "id" = some id)
      (hfull : maxPending ≤ sh.st.pending.len) :
      Forwarded c msg sh (sh.reply (overloaded c ⟨id, msg.occ⟩)) []
  | forwarded {id : Value} (hid : msg.val.get "id" = some id)
      (hroom : sh.st.pending.len < maxPending) :
      Forwarded c msg sh (insertPending sh c ⟨id, msg.occ⟩ false)
        [send (withGlobalId sh c msg.val msg.occ) false]

theorem forwarded_of_run (h : runForwardRequest c msg sh = (sh', ops)) :
    Forwarded c msg sh sh' ops := by
  simp only [runForwardRequest] at h
  split at h
  · rename_i hid; cases h; exact .noId hid
  · rename_i hid
    split at h
    · rename_i hfull; cases h; exact .refused hid hfull
    · rename_i hroom; cases h; exact .forwarded hid (Nat.lt_of_not_le hroom)

/-- The state the branches of `initialize` start from. -/
def initializePending (sh : Shared) (c : ℕ) : Shared :=
  { sh with st := sh.st.markInitializePending c }

/-- **The branches of `initialize`.** -/
inductive Initialized (c : ℕ) (val : Value) (lid : Tagged Value) (sh : Shared) :
    Shared → List ClientOp → Prop
  | cached {v : Value} (hcached : sh.st.cachedInitialize = some v) :
      Initialized c val lid sh (sh.reply ⟨c, setId v lid.val, some lid.occ, .mux⟩) []
  | parked (hcached : sh.st.cachedInitialize = none) (hinit : sh.st.initializing = true) :
      Initialized c val lid sh
        { sh with st := { sh.st with initWaiting := sh.st.initWaiting ++ [(c, lid)] } } []
  | refused (hcached : sh.st.cachedInitialize = none) (hinit : sh.st.initializing = false)
      (hfull : maxPending ≤ sh.st.pending.len) :
      Initialized c val lid sh (sh.reply (overloaded c lid)) []
  | forwarded (hcached : sh.st.cachedInitialize = none) (hinit : sh.st.initializing = false)
      (hroom : sh.st.pending.len < maxPending) :
      Initialized c val lid sh (insertPending sh c lid true)
        [send (withGlobalId sh c val lid.occ) true]

theorem initialized_of_run (h : runInitialize c val lid sh = (sh', ops)) :
    Initialized c val lid (initializePending sh c) sh' ops := by
  simp only [runInitialize] at h
  split at h
  · rename_i hcached; cases h; exact .cached hcached
  · rename_i hcached
    split at h
    · rename_i hinit; cases h; exact .parked hcached hinit
    · rename_i hinit
      rw [Bool.not_eq_true] at hinit
      split at h
      · rename_i hfull; cases h; exact .refused hcached hinit hfull
      · rename_i hroom; cases h; exact .forwarded hcached hinit (Nat.lt_of_not_le hroom)

/-- Marking a handshake as pending moves no request. -/
theorem quiet_initializePending (sh : Shared) (c : ℕ) : Quiet sh (initializePending sh c) := by
  simp only [initializePending, MuxState.markInitializePending]
  split
  · rename_i h hget
    refine ⟨rfl, rfl, rfl, rfl, rfl, fun c' => ?_, fun c' => ?_, rfl, rfl, rfl, .inl ⟨rfl, rfl⟩⟩
    · rcases eq_or_ne c' c with rfl | hne
      · simp only [MuxState.bufferedMessages, HashMap.get_insert, hget]
      · simp only [MuxState.bufferedMessages, HashMap.get_insert_ne hne]
    · rcases eq_or_ne c' c with rfl | hne
      · simp only [HashMap.get_insert, hget, Option.isSome_some]
      · simp only [HashMap.get_insert_ne hne]
  · rfl

/-- A `try_send` moves no request: what it loses or enqueues is its own message. -/
theorem quiet_trySend {enc : Value → ℕ} (h : (trySend msg).run enc c sh = some (sh', ops)) :
    Quiet sh sh' ∧ ops = [] := by
  simp only [run] at h
  split at h <;> cases h
  · exact ⟨(still_enqueue sh _).toQuiet, rfl⟩
  · exact ⟨.refl sh, rfl⟩

/-- Nor does a `send`: its request is in `pending` by then. -/
theorem quiet_send {enc : Value → ℕ} {isInitialize : Bool}
    (h : (send msg isInitialize).run enc c sh = some (sh', ops)) :
    Quiet sh sh' ∧ (ops = [] ∨ ops = [updateQueueDepth, publishStatus]) := by
  simp only [run] at h
  split at h
  · cases h; exact ⟨.refl sh, .inl rfl⟩
  · split at h
    · cases h
      refine ⟨?_, .inr rfl⟩
      cases isInitialize <;> exact .of_st_eq rfl rfl rfl rfl
    · cases h

/-- The first lock section of `notifications/initialized` moves no request. -/
theorem quiet_markServerInitialized {enc : Value → ℕ}
    (h : (markServerInitialized msg).run enc c sh = some (sh', ops)) :
    Quiet sh sh' ∧ (ops = [completeHandshake] ∨ ops = [trySend msg, completeHandshake]) := by
  simp only [run] at h
  split at h <;> cases h
  · exact ⟨.refl sh, .inl rfl⟩
  · exact ⟨⟨rfl, rfl, rfl, rfl, rfl, fun _ => rfl, fun _ => rfl, rfl, rfl, rfl, .inl ⟨rfl, rfl⟩⟩,
      .inr rfl⟩

/-! ## What an operation goes on with -/

/-- **The operations that may replace one of a handler**, each by itself. -/
inductive GoesOn (enc : Value → ℕ) (c : ℕ) (sh sh' : Shared) : ClientOp → ClientOp → Prop
  | tooLarge {msg : Tagged Value} :
      GoesOn enc c sh sh' (handleClientMessage msg) (rejectTooLarge msg)
  | initialized {msg : Tagged Value} (hmethod : method msg.val = "notifications/initialized") :
      GoesOn enc c sh sh' (handleClientMessage msg) (markServerInitialized msg)
  | notification {msg : Tagged Value} (hlen : enc msg.val ≤ sh.st.maxRequestBytes)
      (hmethod : method msg.val ≠ "notifications/initialized") (hid : msg.val.get "id" = none) :
      GoesOn enc c sh sh' (handleClientMessage msg) (trySend msg)
  | initRequest {msg : Tagged Value} {id : Value} (hmethod : method msg.val = "initialize")
      (hid : msg.val.get "id" = some id) :
      GoesOn enc c sh sh' (handleClientMessage msg) (handleInitialize msg.val ⟨id, msg.occ⟩)
  | request {msg : Tagged Value} (hmethod : method msg.val ≠ "notifications/initialized") :
      GoesOn enc c sh sh' (handleClientMessage msg) (checkHandshake msg)
  | announce {msg : Tagged Value} (hflag : sh.st.serverInitialized = false) :
      GoesOn enc c sh sh' (markServerInitialized msg) (trySend msg)
  | complete {msg : Tagged Value} :
      GoesOn enc c sh sh' (markServerInitialized msg) completeHandshake
  | flush : GoesOn enc c sh sh' completeHandshake (flushBuffered (sh.st.bufferedMessages c))
  | flushed {msg : Tagged Value} {buffered : List (Tagged Value)} :
      GoesOn enc c sh sh' (flushBuffered (msg :: buffered)) (flushBuffered buffered)
  | flushSend {msg : Tagged Value} {buffered : List (Tagged Value)} {id : Value}
      (hid : msg.val.get "id" = some id) (h' : sh' = insertPending sh c ⟨id, msg.occ⟩ false) :
      GoesOn enc c sh sh' (flushBuffered (msg :: buffered))
        (send (withGlobalId sh c msg.val msg.occ) false)
  | send {msg : Tagged Value} {id : Value} (hid : msg.val.get "id" = some id)
      (h' : sh' = insertPending sh c ⟨id, msg.occ⟩ false) :
      GoesOn enc c sh sh' (forwardRequest msg) (send (withGlobalId sh c msg.val msg.occ) false)
  | sendInitialize {val : Value} {lid : Tagged Value}
      (h' : sh' = insertPending (initializePending sh c) c lid true) :
      GoesOn enc c sh sh' (handleInitialize val lid)
        (ClientOp.send (withGlobalId (initializePending sh c) c val lid.occ) true)
  | forward {msg : Tagged Value} (hcomplete : sh.st.isHandshakeComplete c = true) :
      GoesOn enc c sh sh' (checkHandshake msg) (forwardRequest msg)
  | buffer {msg : Tagged Value} : GoesOn enc c sh sh' (checkHandshake msg) (bufferMessage msg)
  | depth {op : ClientOp} : GoesOn enc c sh sh' op updateQueueDepth
  | status {op : ClientOp} : GoesOn enc c sh sh' op publishStatus

/-- An operation goes on with nothing else. -/
theorem goesOn_of_run {enc : Value → ℕ} {op op' : ClientOp}
    (h : op.run enc c sh = some (sh', ops)) (hop' : op' ∈ ops) : GoesOn enc c sh sh' op op' := by
  cases op with
  | handleClientMessage msg =>
    rw [run, Option.some.injEq, Prod.mk.injEq] at h
    obtain ⟨rfl, hops⟩ := h
    have hd := dispatched enc sh.st.maxRequestBytes msg
    rw [hops] at hd
    cases hd with
    | tooLarge => rw [List.mem_singleton.1 hop']; exact .tooLarge
    | initialized hmethod => rw [List.mem_singleton.1 hop']; exact .initialized hmethod
    | initRequest hmethod hid => rw [List.mem_singleton.1 hop']; exact .initRequest hmethod hid
    | request hmethod hdone hid => rw [List.mem_singleton.1 hop']; exact .request hdone
    | notification hlen hmethod hid =>
      simp only [List.mem_cons, List.not_mem_nil, or_false] at hop'
      rcases hop' with rfl | rfl | rfl
      · exact .notification hlen hmethod hid
      · exact .depth
      · exact .status
  | markServerInitialized msg =>
    simp only [run] at h
    split at h
    · cases h
      rw [List.mem_singleton.1 hop']
      exact .complete
    · rename_i hflag
      cases h
      simp only [List.mem_cons, List.not_mem_nil, or_false] at hop'
      rcases hop' with rfl | rfl
      · exact .announce (by simpa using hflag)
      · exact .complete
  | trySend msg =>
    obtain ⟨-, rfl⟩ := quiet_trySend h
    cases hop'
  | send msg isInitialize =>
    obtain ⟨-, rfl | rfl⟩ := quiet_send h
    · cases hop'
    · simp only [List.mem_cons, List.not_mem_nil, or_false] at hop'
      rcases hop' with rfl | rfl
      · exact .depth
      · exact .status
  | completeHandshake =>
    cases h
    simp only [List.mem_cons, List.not_mem_nil, or_false] at hop'
    rcases hop' with rfl | rfl | rfl
    · exact .flush
    · exact .depth
    · exact .status
  | flushBuffered buffered =>
    cases buffered with
    | nil => cases h; cases hop'
    | cons msg buffered =>
      cases hrun : runForwardRequest c msg sh with
      | mk sh₁ ops₁ =>
        rw [run, hrun] at h
        cases h
        rcases List.mem_append.1 hop' with hop' | hop'
        · cases forwarded_of_run hrun with
          | noId | refused => cases hop'
          | forwarded hid => rw [List.mem_singleton.1 hop']; exact .flushSend hid rfl
        · rw [List.mem_singleton.1 hop']
          exact .flushed
  | handleInitialize val lid =>
    rw [run, Option.some.injEq] at h
    cases initialized_of_run h with
    | cached | parked | refused => cases hop'
    | forwarded => rw [List.mem_singleton.1 hop']; exact .sendInitialize rfl
  | checkHandshake msg =>
    simp only [run] at h
    split at h
    · rename_i hcomplete
      cases h
      rw [List.mem_singleton.1 hop']
      exact .forward hcomplete
    · cases h
      rw [List.mem_singleton.1 hop']
      exact .buffer
  | forwardRequest msg =>
    rw [run, Option.some.injEq] at h
    cases forwarded_of_run h with
    | noId | refused => cases hop'
    | forwarded hid => rw [List.mem_singleton.1 hop']; exact .send hid rfl
  | rejectTooLarge _ | bufferMessage _ | rejectHandshakeTimeout | unregisterClient
  | updateQueueDepth | publishStatus | releasePermit => cases h; cases hop'

end ClientOp

end Mux

end VcOperator
