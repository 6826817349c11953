import VcOperator.Mux.Helpers.Feed
import VcOperator.Mux.Helpers.Handshakes
import VcOperator.Mux.Helpers.Sound
/-!
# The order of one client's messages

What a client sends passes through its handler, and a request that comes
before the handshake through the handshake's buffer as well, on its way
to the `to_server` channel. A client's *lane* is all of that in one list:
what is on the channel, then what is buffered, then what the handler has
in its hands. Every step shortens the lane or adds a newer message at its
end, so the lane stays increasing, and with it the channel.

One step does not. A message without an id is put on the channel at once,
whatever is buffered, and so overtakes the requests the handshake holds
back.
-/

namespace VcOperator

namespace Mux

/-! ## The lane -/

/-- The two messages of the handshake, which have no place in the order. -/
def handshakeMessage (msg : Value) : Bool :=
  decide (method msg = "initialize") || decide (method msg = "notifications/initialized")

/-- The frame a message is of, where it has a place in the order. -/
def Tagged.place (msg : Tagged Value) : List ℕ :=
  if handshakeMessage msg.val then [] else [msg.occ.seq]

/-- The same, of a message put on the channel for client `c`. -/
def Put.place (c : ℕ) (p : Put) : List ℕ :=
  match p.source with
  | .client o => if o.client = c then Tagged.place ⟨p.msg, o⟩ else []
  | .heartbeat _ => []

/-- **The frames of client `c` that were put on the channel**, in that order. -/
def Shared.forwarded (sh : Shared) (c : ℕ) : List ℕ := sh.put.flatMap (Put.place c)

/-- The frames its handshake holds back. -/
def MuxState.heldBack (st : MuxState) (c : ℕ) : List ℕ :=
  (st.bufferedMessages c).flatMap Tagged.place

/-- The frames an operation has in its hands. -/
def ClientOp.carried : ClientOp → List ℕ
  | handleClientMessage msg | markServerInitialized msg | trySend msg | checkHandshake msg
  | bufferMessage msg | forwardRequest msg | send msg _ => msg.place
  | flushBuffered buffered => buffered.flatMap Tagged.place
  | _ => []

/-- A client's lane. -/
def System.lane (s : System) (c : ℕ) : List ℕ :=
  s.shared.forwarded c ++ s.shared.st.heldBack c ++ (s.handlers c).flatMap ClientOp.carried

/-- **Every client's messages are on the channel in the order they came in.** -/
def Shared.InOrder (sh : Shared) : Prop := ∀ c, (sh.forwarded c).Pairwise (· < ·)

/-- **The condition on a step**: a message without an id is put on the
channel only while nothing of its client is held back. -/
def System.forwardsInTurn (s : System) : Label → Bool
  | .handler c =>
    match s.handlers c with
    | .trySend msg :: _ =>
      handshakeMessage msg.val || !s.shared.hasRoom || (s.shared.st.bufferedMessages c).isEmpty
    | _ => true
  | _ => true

variable {cfg : Config} {ok : System → Label → Prop} {s s' : System} {l : Label}
variable {sh sh' : Shared} {st st' : MuxState} {c : ℕ}

theorem forwarded_of_put_eq (h : sh'.put = sh.put) (c : ℕ) : sh'.forwarded c = sh.forwarded c := by
  rw [Shared.forwarded, Shared.forwarded, h]

@[simp] theorem forwarded_enqueue (sh : Shared) (p : Put) (c : ℕ) :
    (sh.enqueue p).forwarded c = sh.forwarded c ++ p.place c := by
  simp [Shared.forwarded, Shared.enqueue]

theorem place_put (msg : Tagged Value) (c : ℕ) :
    Put.place c ⟨msg.val, .client msg.occ⟩ = if msg.occ.client = c then msg.place else [] := rfl

@[simp] theorem place_withGlobalId (sh : Shared) (c : ℕ) (msg : Tagged Value) :
    (ClientOp.withGlobalId sh c msg.val msg.occ).place = msg.place := by
  have hmethod : method (ClientOp.withGlobalId sh c msg.val msg.occ).val = method msg.val :=
    method_setId _ _
  simp only [Tagged.place, handshakeMessage, hmethod]
  rfl

theorem heldBack_of_buffered_eq (h : st'.bufferedMessages c = st.bufferedMessages c) :
    st'.heldBack c = st.heldBack c := by
  rw [MuxState.heldBack, MuxState.heldBack, h]

theorem heldBack_of_nil (h : st.bufferedMessages c = []) : st.heldBack c = [] := by
  rw [MuxState.heldBack, h, List.flatMap_nil]

/-- A message is buffered last, or not at all. -/
theorem MuxState.heldBack_bufferMessage (st : MuxState) (c : ℕ) (msg : Tagged Value) :
    ((st.bufferMessage c msg).heldBack c).Sublist (st.heldBack c ++ msg.place) := by
  unfold bufferMessage
  split
  · rename_i h hget
    simp [heldBack, bufferedMessages, hget]
  · exact List.sublist_append_left ..

/-! ## What a handler's operation does to its client's lane -/

namespace ClientOp

variable {enc : Value → ℕ} {op op' : ClientOp} {ops : List ClientOp}

/-- The operations that are a handler's whole list. -/
def opens : ClientOp → Bool
  | handleClientMessage _ | checkHandshake _ | bufferMessage _ => true
  | _ => false

/-- What an operation at hand says of its client's handshake: a request is
forwarded only where nothing is held back, and buffered only before the
handshake is complete. -/
def InTurn (st : MuxState) (c : ℕ) : ClientOp → Prop
  | markServerInitialized msg | trySend msg => msg.occ.client = c
  | handleInitialize val _ => method val = "initialize"
  | bufferMessage _ => st.Unfinished c
  | forwardRequest _ | flushBuffered _ => st.bufferedMessages c = []
  | send msg isInitialize => msg.occ.client = c ∧
      if isInitialize then method msg.val = "initialize" else st.bufferedMessages c = []
  | _ => True

/-- An operation that is no buffering stays in turn while nothing is held back. -/
theorem InTurn.mono (hop : op.InTurn st c) (hopens : op.opens = false)
    (h : st.bufferedMessages c = [] → st'.bufferedMessages c = []) : op.InTurn st' c := by
  cases op with
  | forwardRequest _ | flushBuffered _ => exact h hop
  | send msg isInitialize =>
    refine ⟨hop.1, ?_⟩
    cases isInitialize with
    | false => exact h hop.2
    | true => exact hop.2
  | bufferMessage _ => cases hopens
  | _ => exact hop

/-- What is in turn stays so where the handshake is as it was. -/
theorem InTurn.same (hop : op.InTurn st c) (h : SameHandshake c st st') : op.InTurn st' c := by
  by_cases hopens : op.opens = true
  · cases op with
    | bufferMessage _ => exact h.unfinished hop
    | handleClientMessage _ | checkHandshake _ => trivial
    | _ => cases hopens
  · exact hop.mono (by simpa using hopens) fun hnil => by rw [h.buffered, hnil]

/-- **What a handler's operation does to its client's lane, and to the
others'.** -/
structure Advances (c : ℕ) (sh : Shared) (op : ClientOp) (sh' : Shared) (ops : List ClientOp) :
    Prop where
  lane : (sh'.forwarded c ++ sh'.st.heldBack c ++ ops.flatMap carried).Sublist
    (sh.forwarded c ++ sh.st.heldBack c ++ op.carried)
  others : ∀ c', c' ≠ c → sh'.forwarded c' = sh.forwarded c' ∧ SameHandshake c' sh.st sh'.st
  released : sh'.st.Released c
  inTurn : ∀ op' ∈ ops, op'.InTurn sh'.st c
  stays : op.opens = false → sh.st.bufferedMessages c = [] → sh'.st.bufferedMessages c = []
  opens : ∀ op' ∈ ops, op'.opens = true → op.opens = true ∧ ops = [op']

/-- An operation that leaves the channel and the handshakes alone. -/
theorem Advances.of_same (hr : sh.st.Released c) (hput : sh'.put = sh.put)
    (hsame : ∀ c', SameHandshake c' sh.st sh'.st)
    (hcarried : (ops.flatMap carried).Sublist op.carried)
    (hinTurn : ∀ op' ∈ ops, op'.InTurn sh'.st c)
    (hopens : ∀ op' ∈ ops, op'.opens = true → op.opens = true ∧ ops = [op']) :
    Advances c sh op sh' ops where
  lane := by
    rw [forwarded_of_put_eq hput, heldBack_of_buffered_eq (hsame c).buffered]
    exact (List.Sublist.refl _).append hcarried
  others := fun c' _ => ⟨forwarded_of_put_eq hput c', hsame c'⟩
  released := (hsame c).released hr
  inTurn := hinTurn
  stays := fun _ hnil => by rw [(hsame c).buffered, hnil]
  opens := hopens

theorem Forwarded.advances {msg : Tagged Value} (h : Forwarded c msg sh sh' ops)
    (hr : sh.st.Released c) (hmsg : msg.occ.client = c) (hnil : sh.st.bufferedMessages c = [])
    (hop : op.carried = msg.place) : Advances c sh op sh' ops := by
  cases h with
  | noId hid =>
    exact .of_same hr rfl (fun _ => .of_eq rfl) (List.nil_sublist _) (by simp) (by simp)
  | refused hid hfull =>
    exact .of_same hr rfl (fun _ => .of_eq rfl) (List.nil_sublist _) (by simp) (by simp)
  | forwarded hid hroom =>
    refine .of_same hr rfl (fun _ => .of_eq rfl) ?_ ?_ ?_
    · rw [hop, List.flatMap_singleton, carried, place_withGlobalId]
    · intro op' hop'
      rw [List.mem_singleton.1 hop']
      exact ⟨hmsg, hnil⟩
    · intro op' hop' hopens
      rw [List.mem_singleton.1 hop'] at hopens
      cases hopens

theorem Dispatched.advances {msg : Tagged Value}
    (h : Dispatched enc sh.st.maxRequestBytes msg ops) (hr : sh.st.Released c)
    (hmsg : msg.occ.client = c) : Advances c sh (handleClientMessage msg) sh ops := by
  have hsame : ∀ c', SameHandshake c' sh.st sh.st := fun _ => .of_eq rfl
  cases h with
  | tooLarge =>
    exact .of_same hr rfl hsame (List.nil_sublist _) (by simp [InTurn]) (by simp [opens])
  | initialized hmethod =>
    refine .of_same hr rfl hsame ?_ (by simpa [InTurn] using hmsg) (by simp [opens])
    rw [List.flatMap_singleton, carried, carried]
  | notification hlen hmethod hid =>
    refine .of_same hr rfl hsame ?_ (by simpa [InTurn] using hmsg) (by simp [opens])
    simp [carried]
  | initRequest hmethod hid =>
    exact .of_same hr rfl hsame (List.nil_sublist _) (by simpa [InTurn] using hmethod)
      (by simp [opens])
  | request hmethod hdone hid =>
    refine .of_same hr rfl hsame ?_ (by simp [InTurn]) (by simp [opens])
    rw [List.flatMap_singleton, carried, carried]

theorem Initialized.advances {val : Value} {lid : Tagged Value}
    (h : Initialized c val lid (initializePending sh c) sh' ops) (hr : sh.st.Released c)
    (hlid : lid.occ.client = c) (hmethod : method val = "initialize") :
    Advances c sh (handleInitialize val lid) sh' ops := by
  have hmark := sameHandshake_initializePending sh c
  cases h with
  | cached hcached | parked hcached hinit | refused hcached hinit hfull =>
    exact .of_same hr rfl (fun c' => ⟨(hmark c').buffered, (hmark c').flag⟩)
      (List.nil_sublist _) (by simp) (by simp)
  | forwarded hcached hinit hroom =>
    have hmethod' : method (setId val (.string
        (globalId c (initializePending sh c).st.nextGlobalId))) = "initialize" :=
      (method_setId _ _).trans hmethod
    refine .of_same hr rfl (fun c' => ⟨(hmark c').buffered, (hmark c').flag⟩) ?_ ?_
      (by simp [opens])
    · simp [carried, Tagged.place, handshakeMessage, withGlobalId, hmethod']
    · intro op' hop'
      rw [List.mem_singleton.1 hop']
      exact ⟨hlid, hmethod'⟩

/-- A message is put on the channel. -/
theorem Advances.enqueue (hr : sh.st.Released c) {msg : Tagged Value}
    (hput : sh'.put = sh.put ++ [⟨msg.val, .client msg.occ⟩]) (hst : sh'.st = sh.st)
    (hmsg : msg.occ.client = c) (hnil : msg.place = [] ∨ sh.st.bufferedMessages c = [])
    (hop : op.carried = msg.place) (hops : ops = [] ∨ ops = [updateQueueDepth, publishStatus]) :
    Advances c sh op sh' ops := by
  have hforwarded : ∀ c', sh'.forwarded c' =
      sh.forwarded c' ++ if msg.occ.client = c' then msg.place else [] := by
    intro c'
    rw [Shared.forwarded, hput, List.flatMap_append, List.flatMap_singleton, place_put]
    rfl
  have hcarried : ops.flatMap carried = [] := by
    rcases hops with rfl | rfl <;> rfl
  refine ⟨?_, fun c' hc' => ⟨?_, .of_eq (by rw [hst])⟩, by rwa [hst], ?_,
    fun _ hb => by rwa [hst], ?_⟩
  · rw [hforwarded, if_pos hmsg, hcarried, hop, hst, List.append_nil]
    rcases hnil with hplace | hbuf
    · rw [hplace, List.append_nil, List.append_nil]
    · rw [heldBack_of_nil hbuf, List.append_nil, List.append_nil]
  · rw [hforwarded, if_neg (fun h => hc' (h.symm.trans hmsg)), List.append_nil]
  · rcases hops with rfl | rfl <;> simp [InTurn]
  · rcases hops with rfl | rfl <;> simp [ClientOp.opens]

/-- **One operation of a handler, for its client's lane.** -/
theorem advances_run (h : op.run enc c sh = some (sh', ops))
    (hop : op.Sound sh.received c) (hr : sh.st.Released c) (hturn : op.InTurn sh.st c)
    (hfirst : ∀ msg, op = .trySend msg → sh.hasRoom = true →
      msg.place = [] ∨ sh.st.bufferedMessages c = []) : Advances c sh op sh' ops := by
  have hsame : ∀ c', SameHandshake c' sh.st sh.st := fun _ => .of_eq rfl
  cases op with
  | handleClientMessage msg =>
    cases h
    exact (dispatched enc sh.st.maxRequestBytes msg).advances hr hop.2
  | markServerInitialized msg =>
    simp only [run] at h
    split at h
    · cases h
      exact .of_same hr rfl hsame (List.nil_sublist _) (by simp [InTurn]) (by simp [opens])
    · cases h
      refine .of_same hr rfl (fun _ => .of_eq rfl) ?_ ?_ (by simp [opens])
      · simp [carried]
      · simpa [InTurn] using hturn
  | trySend msg =>
    simp only [run] at h
    split at h
    · rename_i hroom
      cases h
      exact .enqueue hr rfl rfl hturn (hfirst msg rfl hroom) rfl (.inl rfl)
    · cases h
      exact .of_same hr rfl hsame (List.nil_sublist _) (by simp) (by simp)
  | send msg isInitialize =>
    have hnil : msg.place = [] ∨ sh.st.bufferedMessages c = [] := by
      cases isInitialize with
      | false => exact .inr hturn.2
      | true =>
        have hmethod : method msg.val = "initialize" := hturn.2
        exact .inl (by simp [Tagged.place, handshakeMessage, hmethod])
    simp only [run] at h
    split at h
    · cases h
      exact .of_same hr rfl hsame (List.nil_sublist _) (by simp) (by simp)
    · split at h
      · cases h
        refine .enqueue hr ?_ ?_ hturn.1 hnil rfl (.inr rfl) <;> cases isInitialize <;> rfl
      · cases h
  | completeHandshake =>
    cases h
    have hnil := sh.st.buffered_markHandshakeComplete c
    refine ⟨?_, fun c' hc' => ⟨rfl, .of_get_eq (MuxState.get_markHandshakeComplete_ne hc' _)⟩,
      MuxState.released_of_nil hnil, ?_, fun _ _ => hnil, by simp [opens]⟩
    · rw [heldBack_of_nil hnil]
      simp [carried, MuxState.heldBack, Shared.forwarded]
    · simpa [InTurn] using hnil
  | flushBuffered buffered =>
    cases buffered with
    | nil =>
      cases h
      exact .of_same hr rfl hsame (List.nil_sublist _) (by simp) (by simp)
    | cons msg buffered =>
      cases hrun : runForwardRequest c msg sh with
      | mk sh₁ ops₁ =>
        rw [run, hrun] at h
        cases h
        have hmsg := (hop msg (List.mem_cons_self ..)).1.2
        have hadv : Advances c sh (forwardRequest msg) sh' ops₁ :=
          (forwarded_of_run hrun).advances hr hmsg hturn rfl
        have hnil := hadv.stays rfl hturn
        refine ⟨?_, hadv.others, hadv.released, fun op' hop' => ?_, fun _ _ => hnil,
          fun op' hop' hopens => ?_⟩
        · have hlane := hadv.lane.append (List.Sublist.refl (buffered.flatMap Tagged.place))
          simpa [carried] using hlane
        · rcases List.mem_append.1 hop' with hop' | hop'
          · exact hadv.inTurn op' hop'
          · rw [List.mem_singleton.1 hop']
            exact hnil
        · rcases List.mem_append.1 hop' with hop' | hop'
          · cases (hadv.opens op' hop' hopens).1
          · rw [List.mem_singleton.1 hop'] at hopens
            cases hopens
  | handleInitialize val lid =>
    rw [run, Option.some.injEq] at h
    exact (initialized_of_run h).advances hr hop.1.client_eq hturn
  | checkHandshake msg =>
    simp only [run] at h
    split at h
    · rename_i hdone
      cases h
      refine .of_same hr rfl hsame ?_ ?_ (by simp [opens])
      · rw [List.flatMap_singleton, carried, carried]
      · simpa [InTurn] using hr.buffered hdone
    · rename_i hdone
      cases h
      refine .of_same hr rfl hsame ?_ ?_ (by simp [opens])
      · rw [List.flatMap_singleton, carried, carried]
      · simpa [InTurn] using MuxState.unfinished_of_not_complete hdone
  | bufferMessage msg =>
    cases h
    refine ⟨?_, fun c' hc' => ⟨rfl, .of_get_eq (MuxState.get_bufferMessage_ne hc' _ _)⟩,
      MuxState.released_bufferMessage hturn msg, by simp, by simp [opens], by simp⟩
    have hheld := sh.st.heldBack_bufferMessage c msg
    have hlane := (List.Sublist.refl (sh.forwarded c)).append hheld
    simpa [carried, Shared.forwarded] using hlane
  | forwardRequest msg =>
    rw [run, Option.some.injEq] at h
    exact (forwarded_of_run h).advances hr hop.1.2 hturn rfl
  | unregisterClient =>
    cases h
    have hnil := sh.st.buffered_unregisterClient_self c
    refine ⟨?_, fun c' hc' => ⟨rfl, .of_get_eq (HashMap.get_remove_ne hc')⟩,
      MuxState.released_of_nil hnil, by simp, fun _ _ => hnil, by simp⟩
    have hheld : (sh.unregister c).st.heldBack c = [] := heldBack_of_nil hnil
    rw [hheld]
    simp [Shared.forwarded, Shared.unregister]
  | rejectTooLarge _ | rejectHandshakeTimeout | updateQueueDepth | publishStatus
  | releasePermit =>
    cases h
    exact .of_same hr rfl (fun _ => .of_eq rfl) (List.nil_sublist _) (by simp) (by simp)

end ClientOp

/-- The probes have no place in the order. -/
theorem HeartbeatOp.forwarded_run {hb hb' : HeartbeatState} {op : HeartbeatOp}
    {ops : List HeartbeatOp} (h : op.run hb sh = some (hb', sh', ops)) (c : ℕ) :
    sh'.forwarded c = sh.forwarded c := by
  cases feeds_run h with
  | nothing hu => exact forwarded_of_put_eq hu.put c
  | probe hroom => rw [forwarded_enqueue]; exact List.append_nil _

/-! ## The steps of a mux -/

/-- **What holds of a client's lane in every state a run in turn reaches.** -/
structure System.Lane (s : System) (c : ℕ) : Prop where
  increasing : (s.lane c).Pairwise (· < ·)
  below : ∀ n ∈ s.lane c, n < s.shared.received.length
  released : s.shared.st.Released c
  inTurn : ∀ op ∈ s.handlers c, op.InTurn s.shared.st c
  alone : ∀ op ∈ s.handlers c, op.opens = true → s.handlers c = [op]

/-- A step that shortens the lane, and leaves the handler's list alone. -/
theorem System.Lane.frame (hl : s.Lane c) (hput : s'.shared.forwarded c = s.shared.forwarded c)
    (hsame : SameHandshake c s.shared.st s'.shared.st)
    (hreceived : s.shared.received <+: s'.shared.received)
    (hhandlers : s'.handlers c = s.handlers c) : s'.Lane c := by
  have hlane : s'.lane c = s.lane c := by
    rw [lane, lane, hput, heldBack_of_buffered_eq hsame.buffered, hhandlers]
  refine ⟨by rw [hlane]; exact hl.increasing, fun n hn => ?_, hsame.released hl.released, ?_,
    by rw [hhandlers]; exact hl.alone⟩
  · rw [hlane] at hn
    exact Nat.lt_of_lt_of_le (hl.below n hn) hreceived.length_le
  · rw [hhandlers]
    exact fun op hop => (hl.inTurn op hop).same hsame

/-- Its client is unregistered, by its writer. -/
theorem System.Lane.unregister (hl : s.Lane c)
    (hshared : s'.shared = s.shared.unregister c) (hhandlers : s'.handlers c = s.handlers c) :
    s'.Lane c := by
  have hnil : s'.shared.st.bufferedMessages c = [] := by
    rw [hshared]
    exact s.shared.st.buffered_unregisterClient_self c
  have hget : s'.shared.st.clientHandshakes.get c = none := by
    rw [hshared]
    exact HashMap.get_remove _ c
  have hsub : (s'.lane c).Sublist (s.lane c) := by
    rw [lane, lane, heldBack_of_nil hnil, hhandlers, List.append_nil, hshared]
    exact (List.sublist_append_left ..).append (List.Sublist.refl _)
  refine ⟨hl.increasing.sublist hsub, fun n hn => ?_, MuxState.released_of_nil hnil,
    fun op hop => ?_, by rw [hhandlers]; exact hl.alone⟩
  · rw [hshared]
    exact hl.below n (hsub.subset hn)
  · rw [hhandlers] at hop
    by_cases hopens : op.opens = true
    · cases op with
      | bufferMessage _ =>
        intro h hsome
        rw [hget] at hsome
        cases hsome
      | handleClientMessage _ | checkHandshake _ => trivial
      | _ => cases hopens
    · exact (hl.inTurn op hop).mono (by simpa using hopens) fun _ => hnil

/-- A handler does its next operation. -/
theorem System.Lane.handler {op : ClientOp} {rest ops : List ClientOp} (hl : s.Lane c)
    (hops : s.handlers c = op :: rest) (hadv : op.Advances c s.shared s'.shared ops)
    (hreceived : s'.shared.received = s.shared.received)
    (hhandlers : s'.handlers c = ops ++ rest) : s'.Lane c := by
  have hrest : op.opens = true → rest = [] := by
    intro hopens
    have halone := hl.alone op (by simp [hops]) hopens
    rw [hops] at halone
    exact (List.cons.inj halone).2
  have hopens : ∀ op' ∈ rest, op'.opens = false := by
    intro op' hop'
    by_contra hcon
    have halone := hl.alone op' (by simp [hops, hop']) (by simpa using hcon)
    rw [hops] at halone
    rw [(List.cons.inj halone).2] at hop'
    cases hop'
  have hsub : (s'.lane c).Sublist (s.lane c) := by
    have hlane := hadv.lane.append (List.Sublist.refl (rest.flatMap ClientOp.carried))
    simpa [lane, hops, hhandlers] using hlane
  refine ⟨hl.increasing.sublist hsub, fun n hn => ?_, hadv.released, ?_, ?_⟩
  · rw [hreceived]
    exact hl.below n (hsub.subset hn)
  · intro op' hop'
    rw [hhandlers] at hop'
    rcases List.mem_append.1 hop' with hop' | hop'
    · exact hadv.inTurn op' hop'
    · refine (hl.inTurn op' (by simp [hops, hop'])).mono (hopens op' hop') fun hnil => ?_
      refine hadv.stays ?_ hnil
      by_contra hcon
      rw [hrest (by simpa using hcon)] at hop'
      cases hop'
  · intro op' hop' hop''
    rw [hhandlers] at hop' ⊢
    rcases List.mem_append.1 hop' with hop' | hop'
    · obtain ⟨hop₀, heq⟩ := hadv.opens op' hop' hop''
      rw [heq, hrest hop₀]
      rfl
    · rw [hopens op' hop'] at hop''
      cases hop''

/-- A handler that was idle is given operations that carry nothing. -/
theorem System.Lane.idle (hl : s.Lane c) (hput : s'.shared.put = s.shared.put)
    (hreceived : s'.shared.received = s.shared.received)
    (hbuffered : s'.shared.st.bufferedMessages c = [] ∨
      SameHandshake c s.shared.st s'.shared.st)
    (hcarried : (s'.handlers c).flatMap ClientOp.carried = [])
    (hinTurn : ∀ op ∈ s'.handlers c, op.InTurn s'.shared.st c)
    (hopens : ∀ op ∈ s'.handlers c, op.opens = false) : s'.Lane c := by
  have hsub : (s'.lane c).Sublist (s.lane c) := by
    rw [lane, hcarried, List.append_nil, forwarded_of_put_eq hput]
    rcases hbuffered with hnil | hsame
    · rw [heldBack_of_nil hnil, List.append_nil]
      exact (List.sublist_append_left ..).trans (List.sublist_append_left ..)
    · rw [heldBack_of_buffered_eq hsame.buffered]
      exact List.sublist_append_left ..
  refine ⟨hl.increasing.sublist hsub, fun n hn => ?_, ?_, hinTurn, fun op hop hop' => ?_⟩
  · rw [hreceived]
    exact hl.below n (hsub.subset hn)
  · rcases hbuffered with hnil | hsame
    · exact MuxState.released_of_nil hnil
    · exact hsame.released hl.released
  · rw [hopens op hop] at hop'
    cases hop'

/-- A frame comes in, the newest of all. -/
theorem System.Lane.receive (hl : s.Lane c) (hidle : s.handlers c = []) (msg : Value) :
    (s.receive c msg).Lane c := by
  have hhandlers : (s.receive c msg).handlers c =
      [.handleClientMessage ⟨msg, c, s.shared.received.length⟩] := Function.update_self ..
  have hlane : (s.receive c msg).lane c = s.lane c ++
      Tagged.place ⟨msg, c, s.shared.received.length⟩ := by
    rw [lane, lane, hhandlers, hidle, List.flatMap_nil, List.append_nil, List.flatMap_singleton]
    rfl
  have hplace : ∀ n ∈ Tagged.place ⟨msg, c, s.shared.received.length⟩,
      n = s.shared.received.length := by
    intro n hn
    unfold Tagged.place at hn
    split at hn
    · cases hn
    · exact List.mem_singleton.1 hn
  have hlength : (s.receive c msg).shared.received.length = s.shared.received.length + 1 :=
    List.length_append
  refine ⟨?_, fun n hn => ?_, hl.released, ?_, ?_⟩
  · rw [hlane]
    refine List.pairwise_append.2 ⟨hl.increasing, ?_, fun n hn m hm => ?_⟩
    · unfold Tagged.place
      split
      · exact .nil
      · exact List.pairwise_singleton _ _
    · rw [hplace m hm]
      exact hl.below n hn
  · rw [hlane] at hn
    rw [hlength]
    rcases List.mem_append.1 hn with hn | hn
    · exact Nat.lt_succ_of_lt (hl.below n hn)
    · rw [hplace n hn]
      exact Nat.lt_succ_self _
  · rw [hhandlers]
    intro op hop
    rw [List.mem_singleton.1 hop]
    trivial
  · rw [hhandlers]
    intro op hop _
    rw [List.mem_singleton.1 hop]

/-- **A step in turn keeps every lane.** -/
theorem Stepped.lane (h : Stepped cfg s l s') (hok : s.forwardsInTurn l = true) (hs : s.Sound)
    (hall : ∀ c, s.Lane c) : ∀ c, s'.Lane c := by
  intro c
  have hl := hall c
  cases h with
  | connect hpermit =>
    rcases eq_or_ne c s.shared.st.nextClientId with rfl | hne
    · refine hl.idle rfl rfl (.inl ?_) ?_ ?_ ?_
      · exact (MuxState.bufferedMessages_registerClient ..).trans (if_pos rfl)
      · rw [System.connect_handlers, Function.update_self]
        rfl
      · rw [System.connect_handlers, Function.update_self]
        simp [ClientOp.InTurn]
      · rw [System.connect_handlers, Function.update_self]
        simp [ClientOp.opens]
    · exact hl.frame rfl (.of_get_eq (HashMap.get_insert_ne hne _)) List.prefix_rfl
        (Function.update_of_ne hne _ _)
  | @receive c₀ msg hidle =>
    rcases eq_or_ne c c₀ with rfl | hne
    · exact hl.receive hidle.2 msg
    · exact hl.frame rfl (.of_eq rfl) (List.prefix_append ..) (Function.update_of_ne hne _ _)
  | @disconnect c₀ hidle | @decodeError c₀ hidle | @handshakeTimeout c₀ hidle =>
    rcases eq_or_ne c c₀ with rfl | hne
    · refine hl.idle rfl rfl (.inr (.of_eq rfl)) ?_ ?_ ?_ <;>
        rw [System.endReader_handlers, Function.update_self] <;>
        simp [System.farewell, ClientOp.carried, ClientOp.InTurn, ClientOp.opens]
    · exact hl.frame rfl (.of_eq rfl) List.prefix_rfl (Function.update_of_ne hne _ _)
  | @handler c₀ op rest ops sh hops hrun =>
    have hop := hs.handlers c₀ op (by simp [hops])
    have hreceived := (ClientOp.keeps_run hrun hs.shared hop).received
    have hfirst : ∀ msg, op = .trySend msg → s.shared.hasRoom = true →
        msg.place = [] ∨ s.shared.st.bufferedMessages c₀ = [] := by
      intro msg hmsg hroom
      subst hmsg
      rw [System.forwardsInTurn, hops] at hok
      simp only [hroom, Bool.not_true, Bool.or_false, Bool.or_eq_true,
        List.isEmpty_iff] at hok
      exact hok.imp_left fun hhandshake => by rw [Tagged.place, if_pos hhandshake]
    have hadv := ClientOp.advances_run hrun hop (hall c₀).released
      ((hall c₀).inTurn op (by simp [hops])) hfirst
    rcases eq_or_ne c c₀ with rfl | hne
    · exact hl.handler hops hadv hreceived (Function.update_self ..)
    · exact hl.frame (hadv.others c hne).1 (hadv.others c hne).2
        (hreceived ▸ List.prefix_rfl) (Function.update_of_ne hne _ _)
  | @writer c₀ op rest ops sh hops hrun =>
    rcases hs.writers c₀ op (by simp [hops]) with rfl | rfl
    · cases hrun
      rcases eq_or_ne c c₀ with rfl | hne
      · exact hl.unregister rfl rfl
      · exact hl.frame rfl (.of_get_eq (HashMap.get_remove_ne hne)) List.prefix_rfl rfl
    · cases hrun
      exact hl.frame rfl (.of_eq rfl) List.prefix_rfl rfl
  | @routerTurn event rest hidle hevents =>
    have hunfed := unfed_dispatch event rest s.shared
    exact hl.frame (forwarded_of_put_eq hunfed.put c)
      (.of_eq (clientHandshakes_dispatch event rest s.shared))
      ((still_dispatch event rest s.shared).received ▸ List.prefix_rfl) rfl
  | router hops hrun =>
    have hkeeps := RouterOp.keeps_run hrun hs.shared (hs.router _ (by simp [hops]))
    exact hl.frame (forwarded_of_put_eq (RouterOp.unfed_run hrun).put c)
      (.of_eq (RouterOp.clientHandshakes_run hrun)) (hkeeps.received ▸ List.prefix_rfl) rfl
  | reaper hops hrun =>
    have hkeeps := ReaperOp.keeps_run hrun hs.shared (hs.reaper _ (by simp [hops]))
    exact hl.frame (forwarded_of_put_eq (ReaperOp.unfed_run hrun).put c)
      (.of_eq (ReaperOp.clientHandshakes_run hrun)) (hkeeps.received ▸ List.prefix_rfl) rfl
  | heartbeat hops hrun =>
    exact hl.frame (HeartbeatOp.forwarded_run hrun c)
      (.of_eq (HeartbeatOp.clientHandshakes_run hrun))
      ((HeartbeatOp.still_run hrun).received ▸ List.prefix_rfl) rfl
  | manager hops hlock hrun =>
    exact hl.frame (forwarded_of_put_eq (ManagerOp.unput_run hrun).put c)
      (.of_eq (ManagerOp.clientHandshakes_run hrun))
      ((ManagerOp.still_run hrun).received ▸ List.prefix_rfl) rfl
  | handshakeTick | writerFails | reaperTick | heartbeatTick | heartbeatEvent | childOutput
  | readerEnds | childExits | shutdown | elapse =>
    exact hl.frame rfl (.of_eq rfl) List.prefix_rfl rfl

theorem lane_init (cfg : Config) (c : ℕ) : (System.init cfg).Lane c where
  increasing := by
    have hlane : (System.init cfg).lane c = [] := rfl
    rw [hlane]
    exact .nil
  below := fun n hn => by cases hn
  released := MuxState.released_of_nil rfl
  inTurn := fun op hop => by cases hop
  alone := fun op hop => by cases hop

/-- **Each client's messages are forwarded in the order it sent them**,
where no message without an id overtakes one that is held back. -/
theorem forwarded_in_order (cfg : Config) (s : System)
    (h : Reachable cfg (fun s l => s.forwardsInTurn l = true) s) : s.shared.InOrder := by
  have hlane : ∀ c, s.Lane c :=
    h.invariant_of (I := fun s => ∀ c, s.Lane c) (fun _ hr => Reachable.sound hr)
      (lane_init cfg) fun s l s' hok hs hall hstep => (stepped_of_step hstep).lane hok hs hall
  intro c
  have hincreasing := (hlane c).increasing
  rw [System.lane, List.append_assoc] at hincreasing
  exact (List.pairwise_append.1 hincreasing).1

/-- A client asks before its handshake, completes it, and then notifies. -/
def inTurnRun : List Label :=
  [.connect, .handler 1,
    .receive 1 (.object [("id", .number (.posInt 7)), ("method", .string "tools/list")]),
    .handler 1, .handler 1, .handler 1,
    .receive 1 (.object [("method", .string "notifications/initialized")]),
    .handler 1, .handler 1, .handler 1, .handler 1, .handler 1, .handler 1, .handler 1, .handler 1,
    .handler 1, .handler 1, .handler 1,
    .receive 1 (.object [("method", .string "notifications/progress")]), .handler 1, .handler 1]

theorem forwarded_in_order_inTurnRun :
    (Config.small.after inTurnRun).shared.forwarded 1 = [0, 2] ∧
      (Config.small.after inTurnRun).shared.InOrder := by
  have hruns : Config.small.runs inTurnRun = true := by decide +kernel
  exact ⟨by decide +kernel, forwarded_in_order .small _
    (Config.small.reachable_of_meets System.forwardsInTurn hruns (by decide +kernel))⟩

/-- It asks before its handshake, notifies at once, and then completes it. -/
def overtakenRun : List Label :=
  [.connect, .handler 1,
    .receive 1 (.object [("id", .number (.posInt 7)), ("method", .string "tools/list")]),
    .handler 1, .handler 1, .handler 1,
    .receive 1 (.object [("method", .string "notifications/progress")]),
    .handler 1, .handler 1, .handler 1, .handler 1,
    .receive 1 (.object [("method", .string "notifications/initialized")]),
    .handler 1, .handler 1, .handler 1, .handler 1, .handler 1, .handler 1]

/-- **The notification overtakes the request.** -/
theorem not_inOrder_overtakenRun : ¬ ∀ (cfg : Config) (s : System), Reachable cfg Run.Any s →
    s.shared.InOrder := by
  intro hall
  have hruns : Config.small.runs overtakenRun = true := by decide +kernel
  have hforwarded : (Config.small.after overtakenRun).shared.forwarded 1 = [1, 0] := by
    decide +kernel
  have hincreasing := hall .small _ (Config.small.reachable_after hruns) 1
  rw [hforwarded] at hincreasing
  exact absurd hincreasing (by decide)

end Mux

end VcOperator
