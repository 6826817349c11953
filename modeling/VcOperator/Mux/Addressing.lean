import VcOperator.Mux.Helpers.Lockstep
import VcOperator.Mux.Helpers.Sound
/-!
# Who sees a response

`handle_server_message` tells a notification from a response by
`get("id")` alone. A response that is a message of its own has an id, and
goes to the client whose request it answers; a batch array has none, so
the responses in it go to every client. This file proves the first for
every run in which the child batches no response: `Addressed` says that
each copy made of a response stands on the channel of the client that
asked (or of a registered waiter, where it asked for `initialize`), and
`only_addressee_sees_response` adds that two runs that differ in nothing
but the results of one client's requests look the same to every other.
-/

namespace VcOperator

namespace Mux

/-! ## The responses of a message -/

/-- A JSON-RPC response: a result or an error, under an id that is not null. -/
def isResponse (msg : Value) : Bool :=
  ((msg.get "result").isSome || (msg.get "error").isSome) &&
    ((msg.get "id").any fun id => !id.isNull)

/-- The responses a child message contains: itself, or those of its batch. -/
def responses (msg : Value) : List Value :=
  match msg with
  | .array es => es.filter isResponse
  | v => [v].filter isResponse

/-- The message is no batch with a response in it. -/
def batchesNoResponse (msg : Value) : Bool :=
  match msg with
  | .array es => !es.any isResponse
  | _ => true

/-- **The condition on a step**: the child batches no response. -/
def Label.batchesNoResponse : Label → Bool
  | .childOutput _ msg => Mux.batchesNoResponse msg
  | _ => true

theorem isResponse_eq_false_of_noId {msg : Value} (h : msg.get "id" = none) :
    isResponse msg = false := by
  rw [isResponse, h, Option.any_none, Bool.and_false]

theorem isResponse_eq_false_of_null {msg id : Value} (h : msg.get "id" = some id)
    (hnull : id.isNull = true) : isResponse msg = false := by
  simp [isResponse, h, hnull]

/-- A message with an id is at most one response, itself. -/
theorem eq_of_mem_responses {msg id r : Value} (h : msg.get "id" = some id)
    (hr : r ∈ responses msg) : r = msg := by
  obtain ⟨ms, rfl⟩ := Value.exists_members_of_get h
  exact List.mem_singleton.1 (List.mem_filter.1 hr).1

theorem responses_eq_nil_of_noId {msg : Value} (hbatch : batchesNoResponse msg = true)
    (h : msg.get "id" = none) : responses msg = [] := by
  cases msg with
  | array es => simpa [batchesNoResponse, responses] using hbatch
  | null | bool _ | number _ | string _ | object _ =>
    simp [responses, isResponse_eq_false_of_noId h]

theorem responses_eq_nil_of_null {msg id : Value} (h : msg.get "id" = some id)
    (hnull : id.isNull = true) : responses msg = [] := by
  refine List.eq_nil_iff_forall_not_mem.2 fun r hr => ?_
  have hresp : isResponse r = true := by
    cases msg with
    | array es | object ms | null | bool _ | number _ | string _ =>
      exact (List.mem_filter.1 hr).2
  rw [eq_of_mem_responses h hr, isResponse_eq_false_of_null h hnull] at hresp
  cases hresp

/-! ## Where a copy may stand -/

/-- **A copy made out of a child message reaches only whom its responses
answer**: the client that asked, or a registered waiter of an `initialize`. -/
def Delivery.Addressed (sh : Shared) (d : Delivery) : Prop :=
  ∀ msg addressee, d.origin = .child msg addressee → ∀ r ∈ responses msg,
    ∃ i ∈ sh.issued, (r.get "id").bind idStr = some (globalId i.clientId i.n) ∧
      (d.client = i.clientId ∧ d.answers = some i.occ ∨
        i.isInitialize = true ∧ ∃ lid, (d.client, lid) ∈ sh.st.initWaiting ∧
          d.answers = some lid.occ)

/-- **What a step may deliver.** -/
def System.Addresses (s s' : System) : Prop :=
  ∃ ds, s'.shared.sent = s.shared.sent ++ ds ∧ ∀ d ∈ ds, d.Addressed s.shared

variable {issued issued' : List Issue} {sh sh' : Shared}

/-- The entry is that of the request the responses of `msg` answer. -/
def Answers (issued : List Issue) (msg : Value) (p : Pending) : Prop :=
  ∃ i ∈ issued, i.clientId = p.clientId ∧ i.occ = p.localId.occ ∧
    i.isInitialize = p.isInitialize ∧
    ∀ r ∈ responses msg, (r.get "id").bind idStr = some (globalId i.clientId i.n)

/-- **What the router has in its hands is addressed.** -/
def RouterOp.Addressed (issued : List Issue) : RouterOp → Prop
  | broadcast msg => responses msg = []
  | takePending msg id => ∀ r ∈ responses msg, (r.get "id").bind idStr = some id
  | cacheInitialize msg p => p.isInitialize = true ∧ Answers issued msg p
  | findTarget msg p | sendTarget msg p => Answers issued msg p
  | resetState _ | publishStatus => True

theorem RouterOp.Addressed.mono (hsub : issued ⊆ issued') {op : RouterOp}
    (h : op.Addressed issued) : op.Addressed issued' := by
  have hanswers : ∀ msg p, Answers issued msg p → Answers issued' msg p := by
    rintro msg p ⟨i, hi, h⟩
    exact ⟨i, hsub hi, h⟩
  cases op with
  | cacheInitialize msg p => exact ⟨h.1, hanswers msg p h.2⟩
  | findTarget msg p | sendTarget msg p => exact hanswers msg p h
  | broadcast _ | takePending _ _ | resetState _ | publishStatus => exact h

/-- **What the router begins with**, on a message that batches no response. -/
theorem RouterOp.addressed_handleServerMessage {msg : Value}
    (hbatch : batchesNoResponse msg = true) :
    ∀ op ∈ handleServerMessage msg, op.Addressed issued := by
  intro op hop
  simp only [handleServerMessage] at hop
  split at hop
  · rename_i hid
    rw [List.mem_singleton.1 hop]
    exact responses_eq_nil_of_noId hbatch hid
  · rename_i id hid
    split at hop
    · rename_i hnull
      rw [List.mem_singleton.1 hop]
      exact responses_eq_nil_of_null hid hnull
    · split at hop
      · cases hop
      · rename_i key hkey
        rw [List.mem_singleton.1 hop]
        intro r hr
        rw [eq_of_mem_responses hid hr, hid, Option.bind_some, hkey]

theorem Delivery.addressed_of_mux {d : Delivery} (h : d.origin = .mux) : d.Addressed sh := by
  intro msg addressee horigin
  rw [h] at horigin
  cases horigin

/-- **One operation of the router delivers only to whom it should.** -/
theorem RouterOp.addressed_run {order : List String} {op : RouterOp} {ops : List RouterOp}
    (h : op.run order sh = some (sh', ops)) (hk : sh.Keyed) (hop : op.Addressed sh.issued) :
    (∀ op' ∈ ops, op'.Addressed sh.issued) ∧ sh'.serverEvents = sh.serverEvents ∧
      ∃ ds, sh'.sent = sh.sent ++ ds ∧ ∀ d ∈ ds, d.Addressed sh := by
  cases op with
  | broadcast msg =>
    cases h
    refine ⟨by simp, rfl, _, rfl, fun d hd msg' a horigin r hr => ?_⟩
    obtain ⟨c, -, rfl⟩ := List.mem_map.1 (List.mem_filter.1 hd).1
    cases horigin
    rw [show responses msg = [] from hop] at hr
    cases hr
  | takePending msg id =>
    simp only [run] at h
    cases hp : sh.st.pending.get id with
    | none =>
      rw [hp] at h
      cases h
      exact ⟨by simp, rfl, [], (List.append_nil _).symm, by simp⟩
    | some p =>
      rw [hp] at h
      cases h
      refine ⟨?_, rfl, [], (List.append_nil _).symm, by simp⟩
      obtain ⟨i, hi, hid, hclient, hocc, hinit⟩ := hk.pending id p hp
      have hanswers : Answers sh.issued msg p := by
        refine ⟨i, hi, hclient, hocc, hinit, fun r hr => ?_⟩
        rw [hop r hr, hid]
      intro op' hop'
      rcases List.mem_append.1 hop' with hop' | hop'
      · split at hop'
        · rename_i hpinit
          rw [List.mem_singleton.1 hop']
          exact ⟨hpinit, hanswers⟩
        · cases hop'
      · rw [List.mem_singleton.1 hop']
        exact hanswers
  | cacheInitialize msg p =>
    cases h
    refine ⟨by simp, rfl, _, rfl, fun d hd msg' a horigin r hr => ?_⟩
    obtain ⟨⟨c, lid⟩, hw, rfl⟩ := List.mem_map.1 (List.mem_filter.1 hd).1
    cases horigin
    obtain ⟨hpinit, i, hi, -, -, hinit, hid⟩ := hop
    exact ⟨i, hi, hid r hr, .inr ⟨hinit.trans hpinit, lid, hw, rfl⟩⟩
  | findTarget msg p =>
    simp only [run] at h
    split at h
    · cases h
      refine ⟨fun op' hop' => ?_, rfl, [], (List.append_nil _).symm, by simp⟩
      rcases List.mem_cons.1 hop' with rfl | hop'
      · exact hop
      · rw [List.mem_singleton.1 hop']
        trivial
    · cases h
      exact ⟨by simp [Addressed], rfl, [], (List.append_nil _).symm, by simp⟩
  | sendTarget msg p =>
    cases h
    refine ⟨by simp, rfl, _, rfl, fun d hd msg' a horigin r hr => ?_⟩
    rw [List.mem_singleton.1 hd] at horigin ⊢
    cases horigin
    obtain ⟨i, hi, hclient, hocc, -, hid⟩ := hop
    exact ⟨i, hi, hid r hr, .inl ⟨hclient.symm, by rw [hocc]⟩⟩
  | resetState reason =>
    simp only [run] at h
    split at h
    · cases h
      refine ⟨by simp, rfl, _, rfl, fun d hd => Delivery.addressed_of_mux ?_⟩
      rcases List.mem_append.1 (List.mem_filter.1 hd).1 with hd | hd <;>
        obtain ⟨x, -, rfl⟩ := List.mem_map.1 hd <;> rfl
    · cases h
  | publishStatus => cases h; exact ⟨by simp, rfl, [], (List.append_nil _).symm, by simp⟩

/-! ## What the other tasks deliver -/

/-- **No child message is involved**: none is added for the router, and
what is delivered was made by the mux. -/
structure Spoken (sh sh' : Shared) : Prop where
  events : ∀ msg, .message msg ∈ sh'.serverEvents → .message msg ∈ sh.serverEvents
  sent : ∃ ds, sh'.sent = sh.sent ++ ds ∧ ∀ d ∈ ds, d.origin = .mux

theorem Spoken.of_eq (hevents : sh'.serverEvents = sh.serverEvents)
    (hsent : sh'.sent = sh.sent) : Spoken sh sh' :=
  ⟨fun _ h => hevents ▸ h, [], by rw [hsent, List.append_nil], by simp⟩

theorem spoken_replyAll (sh : Shared) {ds : List Delivery} (h : ∀ d ∈ ds, d.origin = .mux) :
    Spoken sh (sh.replyAll ds) :=
  ⟨fun _ h => h, _, rfl, fun d hd => h d (List.mem_filter.1 hd).1⟩

theorem spoken_reply (sh : Shared) {d : Delivery} (h : d.origin = .mux) :
    Spoken sh (sh.reply d) :=
  spoken_replyAll sh fun d' hd' => by rw [List.mem_singleton.1 hd', h]

theorem ClientOp.Forwarded.spoken {c : ℕ} {msg : Tagged Value} {ops : List ClientOp}
    (h : Forwarded c msg sh sh' ops) : Spoken sh sh' := by
  cases h with
  | noId hid | forwarded hid => exact .of_eq rfl rfl
  | refused hid => exact spoken_reply sh rfl

theorem ClientOp.Initialized.spoken {c : ℕ} {val : Value} {lid : Tagged Value}
    {ops : List ClientOp} (h : Initialized c val lid (initializePending sh c) sh' ops) :
    Spoken sh sh' := by
  cases h with
  | parked hcached hinit | forwarded hcached hinit => exact .of_eq rfl rfl
  | cached hcached =>
    obtain ⟨hevents, ds, hsent, hmux⟩ := spoken_reply (initializePending sh c)
      (d := ⟨c, setId _ lid.val, some lid.occ, .mux⟩) rfl
    exact ⟨hevents, ds, hsent, hmux⟩
  | refused hcached hinit =>
    obtain ⟨hevents, ds, hsent, hmux⟩ := spoken_reply (initializePending sh c)
      (d := overloaded c lid) rfl
    exact ⟨hevents, ds, hsent, hmux⟩

/-- **A handler delivers no child message.** -/
theorem ClientOp.spoken_run {enc : Value → ℕ} {c : ℕ} {op : ClientOp} {ops : List ClientOp}
    (h : op.run enc c sh = some (sh', ops)) : Spoken sh sh' := by
  cases op with
  | forwardRequest msg =>
    rw [run, Option.some.injEq] at h
    exact (forwarded_of_run h).spoken
  | flushBuffered buffered =>
    cases buffered with
    | nil => cases h; exact .of_eq rfl rfl
    | cons msg buffered =>
      cases hr : runForwardRequest c msg sh with
      | mk sh₁ ops₁ =>
        rw [run, hr] at h
        cases h
        exact (forwarded_of_run hr).spoken
  | handleInitialize val lid =>
    rw [run, Option.some.injEq] at h
    exact (initialized_of_run h).spoken
  | rejectTooLarge msg | rejectHandshakeTimeout => cases h; exact spoken_reply sh rfl
  | markServerInitialized msg | trySend msg | checkHandshake msg =>
    simp only [run] at h
    split at h <;> cases h <;> exact .of_eq rfl rfl
  | send msg isInitialize =>
    simp only [run] at h
    split at h
    · cases h; exact .of_eq rfl rfl
    · split at h <;> cases h
      cases isInitialize <;> exact .of_eq rfl rfl
  | handleClientMessage _ | completeHandshake | bufferMessage _ | updateQueueDepth
  | publishStatus | unregisterClient | releasePermit => cases h; exact .of_eq rfl rfl

theorem ReaperOp.spoken_run {order : List String} {op : ReaperOp} {ops : List ReaperOp}
    (h : op.run order sh = some (sh', ops)) : Spoken sh sh' := by
  cases op with
  | reap timeout =>
    simp only [run] at h
    split at h <;> cases h
    exact .of_eq rfl rfl
  | replyExpired expired =>
    cases h
    refine spoken_replyAll sh fun d hd => ?_
    obtain ⟨e, -, rfl⟩ := List.mem_map.1 hd
    rfl
  | readTimeout | publishStatus => cases h; exact .of_eq rfl rfl

theorem HeartbeatOp.spoken_run {hb hb' : HeartbeatState} {op : HeartbeatOp}
    {ops : List HeartbeatOp} (h : op.run hb sh = some (hb', sh', ops)) : Spoken sh sh' :=
  .of_eq (by rw [run_frame h]) (still_run h).sent

/-- The manager tells the router of a reset, and of nothing else. -/
theorem ManagerOp.spoken_run {cfg : ManagerConfig} {choice : Choice} {loc loc' : ManagerLocals}
    {op : ManagerOp} {ops : List ManagerOp}
    (h : op.run cfg choice loc sh = some (loc', sh', ops)) : Spoken sh sh' := by
  have hsent := (still_run h).sent
  cases op with
  | cleanup again =>
    cases h
    refine ⟨fun msg hmsg => ?_, [], (List.append_nil _).symm, by simp⟩
    simpa using hmsg
  | loopHead =>
    refine .of_eq ?_ hsent
    simp only [run] at h
    split at h
    · cases h; rfl
    · split at h <;> cases h <;> rfl
  | awaitFirst =>
    refine .of_eq ?_ hsent
    simp only [run] at h
    split at h
    · split at h <;> cases h <;> rfl
    · cases h; rfl
    · split at h <;> cases h
      rfl
    · cases h
  | checkLimit _ | spawn _ | takePipes _ | writeFirst _ | writeMessage _ | afterReset _
  | sleep _ =>
    refine .of_eq ?_ hsent
    simp only [run] at h
    split at h <;> cases h <;> rfl
  | select =>
    obtain ⟨⟨sh₁, ops₁⟩, hsel, heq⟩ := Option.map_eq_some_iff.1 h
    cases heq
    exact .of_eq (by rw [runSelect_frame hsel]) hsent
  | writeLoop | markRunning _ | markFailed _ _ | resetFields _ | updateQueueDepth
  | publishStatus | publishHoldingGuard => cases h; exact .of_eq rfl hsent

/-! ## Every step -/

/-- **What the child wrote and the router works on is addressed.** -/
structure System.Addressed (s : System) : Prop where
  router : ∀ op ∈ s.router, op.Addressed s.shared.issued
  events : ∀ msg, .message msg ∈ s.shared.serverEvents → batchesNoResponse msg = true

variable {cfg : Config} {s s' : System} {l : Label}

/-- A step in which no child message is involved. -/
theorem System.Addressed.spoken (ha : s.Addressed) (h : Spoken s.shared s'.shared)
    (hissued : s.shared.issued ⊆ s'.shared.issued) (hrouter : s'.router = s.router) :
    s'.Addressed ∧ s.Addresses s' := by
  obtain ⟨ds, hsent, hmux⟩ := h.sent
  refine ⟨⟨fun op hop => ?_, fun msg hmsg => ha.events msg (h.events msg hmsg)⟩,
    ds, hsent, fun d hd => Delivery.addressed_of_mux (hmux d hd)⟩
  exact (ha.router op (hrouter ▸ hop)).mono hissued

/-- **One step, when it batches no response.** -/
theorem Stepped.addressed (h : Stepped cfg s l s') (hk : s.shared.Keyed) (ha : s.Addressed)
    (hok : l.batchesNoResponse = true) : s'.Addressed ∧ s.Addresses s' := by
  have hself : s.shared.issued ⊆ s.shared.issued := List.Subset.refl _
  cases h with
  | connect | receive | disconnect | decodeError | handshakeTimeout | handshakeTick | writerFails
  | reaperTick | heartbeatTick | heartbeatEvent | readerEnds | childExits | shutdown | elapse =>
    exact ha.spoken (.of_eq rfl rfl) hself rfl
  | handler hops hrun | writer hops hrun =>
    exact ha.spoken (ClientOp.spoken_run hrun) (ClientOp.issues_run hrun).issued_subset rfl
  | reaper hops hrun =>
    exact ha.spoken (ReaperOp.spoken_run hrun)
      ((ReaperOp.shrinks_run hrun).issued.symm ▸ hself) rfl
  | heartbeat hops hrun =>
    exact ha.spoken (HeartbeatOp.spoken_run hrun)
      ((HeartbeatOp.still_run hrun).issued.symm ▸ hself) rfl
  | manager hops hlock hrun =>
    exact ha.spoken (ManagerOp.spoken_run hrun)
      ((ManagerOp.still_run hrun).issued.symm ▸ hself) rfl
  | @childOutput k msg hreads =>
    refine ⟨⟨ha.router, fun msg' hmsg' => ?_⟩, [], (List.append_nil _).symm, by simp⟩
    rcases List.mem_append.1 hmsg' with hmsg' | hmsg'
    · exact ha.events msg' hmsg'
    · cases List.mem_singleton.1 hmsg'
      exact hok
  | @routerTurn event rest hidle hevents =>
    have hrest : ∀ msg, .message msg ∈ rest → batchesNoResponse msg = true := fun msg hmsg =>
      ha.events msg (hevents ▸ List.mem_cons_of_mem _ hmsg)
    have hstill := still_dispatch event rest s.shared
    refine ⟨?_, [], by rw [List.append_nil]; exact hstill.sent, by simp⟩
    cases event with
    | reset reason => exact ⟨by simp [RouterOp.dispatch, RouterOp.Addressed], hrest⟩
    | message msg =>
      have hbatch := ha.events msg (hevents ▸ List.mem_cons_self ..)
      simp only [RouterOp.dispatch]
      split
      · exact ⟨by simp, hrest⟩
      · exact ⟨RouterOp.addressed_handleServerMessage hbatch, hrest⟩
  | @router order op rest ops sh hops hrun =>
    have hop := ha.router op (by simp [hops])
    obtain ⟨hnew, hevents, ds, hsent, hds⟩ := RouterOp.addressed_run hrun hk hop
    have hissued := (RouterOp.shrinks_run hrun).issued
    refine ⟨⟨fun op' hop' => ?_, fun msg hmsg => ha.events msg (hevents ▸ hmsg)⟩, ds, hsent, hds⟩
    rw [hissued]
    rcases List.mem_append.1 hop' with hop' | hop'
    · exact hnew op' hop'
    · exact ha.router op' (by simp [hops, hop'])

theorem addressed_init (cfg : Config) : (System.init cfg).Addressed where
  router := fun op hop => by cases hop
  events := fun msg hmsg => by cases hmsg

/-! ## Two runs -/

/-- Two results of one request of client `A` that is no `initialize`. -/
def ResultsOf (A : ℕ) (issued : List Issue) (msg msg' : Value) : Prop :=
  isResponse msg = true ∧ isResponse msg' = true ∧ msg'.get "id" = msg.get "id" ∧
    ∃ id, (msg.get "id").bind idStr = some id ∧ NamesRequestOf A issued id

/-- **Two child messages that differ only in the results for `A`**, on
their own or in a batch. -/
inductive DifferOnlyFor (A : ℕ) (issued : List Issue) : Value → Value → Prop
  | same (msg : Value) : DifferOnlyFor A issued msg msg
  | result {msg msg' : Value} (h : ResultsOf A issued msg msg') : DifferOnlyFor A issued msg msg'
  | batch {es es' : List Value}
      (h : List.Forall₂ (fun e e' => e = e' ∨ ResultsOf A issued e e') es es') :
      DifferOnlyFor A issued (.array es) (.array es')

/-- Two steps that differ only in that. -/
inductive Label.DifferOnlyFor (A : ℕ) (issued : List Issue) : Label → Label → Prop
  | same (l : Label) : DifferOnlyFor A issued l l
  | childOutput {k : ℕ} {msg msg' : Value} (h : Mux.DifferOnlyFor A issued msg msg') :
      DifferOnlyFor A issued (.childOutput k msg) (.childOutput k msg')

/-- The messages client `c` was sent. -/
def System.messagesTo (s : System) (c : ℕ) : List Value :=
  (s.shared.sent.filter (·.client = c)).map (·.msg)

/-- Batches that contain no response and differ only in results are the same. -/
theorem eq_of_batchesNoResponse {A : ℕ} {es es' : List Value}
    (h : List.Forall₂ (fun e e' => e = e' ∨ ResultsOf A issued e e') es es')
    (hbatch : es.any isResponse = false) : es = es' := by
  induction h with
  | nil => rfl
  | @cons e e' es es' he _ ih =>
    rw [List.any_cons, Bool.or_eq_false_iff] at hbatch
    rcases he with rfl | he
    · rw [ih hbatch.2]
    · rw [he.1] at hbatch
      cases hbatch.1

theorem sameBut_of_differOnlyFor {A : ℕ} {msg msg' : Value}
    (h : DifferOnlyFor A issued msg msg') (hbatch : batchesNoResponse msg = true) :
    ServerEvent.SameBut A issued (.message msg) (.message msg') := by
  cases h with
  | same => exact .same _
  | result h =>
    obtain ⟨-, -, hsame, id, hid, hnames⟩ := h
    exact .answer hsame hid hnames
  | batch h =>
    rw [eq_of_batchesNoResponse h (by simpa [batchesNoResponse] using hbatch)]
    exact .same _

theorem System.Twins.messagesTo_eq {A B : ℕ} {t : System} (h : s.Twins A t) (hAB : A ≠ B) :
    s.messagesTo B = t.messagesTo B := by
  have hfilter : ∀ ds : List Delivery,
      ds.filter (·.client = B) = (sentToOthers A ds).filter (·.client = B) := by
    intro ds
    rw [sentToOthers, List.filter_filter]
    refine List.filter_congr fun d _ => ?_
    by_cases hd : d.client = B
    · simp [hd, Ne.symm hAB]
    · simp [hd]
  rw [messagesTo, messagesTo, hfilter s.shared.sent, h.shared.sent, ← hfilter]

/-- **Where the child batches no response, only the addressee sees a
response.** Each copy of one stands where it should; and two runs that
differ only in the results for `A` look the same to every other client. -/
theorem only_addressee_sees_response (cfg : Config) :
    (∀ s l s', Reachable cfg (fun _ l => l.batchesNoResponse = true) s →
      l.batchesNoResponse = true → s.step cfg l = some s' → s.Addresses s') ∧
    ∀ A B s t, A ≠ B →
      Run.Lockstep (System.step cfg) (fun s l m => l.batchesNoResponse = true ∧
        m.batchesNoResponse = true ∧ l.DifferOnlyFor A s.shared.issued m) (System.init cfg) s t →
      s.messagesTo B = t.messagesTo B := by
  constructor
  · intro s l s' h hok hstep
    have ha : s.Addressed := Run.Reach.invariant_of (I := System.Addressed)
      (J := fun s => s.shared.Keyed) (fun _ hr => Reachable.keyed hr) (addressed_init cfg)
      (fun _ _ _ hok hk ha hs => ((stepped_of_step hs).addressed hk ha hok).1) h
    exact ((stepped_of_step hstep).addressed (Reachable.keyed h) ha hok).2
  · intro A B s t hAB h
    refine (h.related (R := System.Twins A) (.refl A _) ?_).messagesTo_eq hAB
    rintro s t l m s' t' hr htwins ⟨hl, -, hlm⟩ hs ht
    cases hlm with
    | same l => exact htwins.step (Reachable.keyed hr) hs ht
    | childOutput h => exact htwins.childOutput (sameBut_of_differOnlyFor h hl) hs ht

/-! ## A batch -/

/-- The child is started. Two clients connect; the first says it is
initialized, and asks for its tools. -/
def askRun : List Label :=
  [.manager .go, .manager .go, .manager (.spawned 1), .manager .go, .manager .go, .manager .go,
    .connect, .handler 1, .connect, .handler 2,
    .receive 1 (.object [("method", .string "notifications/initialized")]),
    .handler 1, .handler 1, .handler 1, .handler 1, .handler 1, .handler 1, .handler 1,
    .receive 1 (.object [("id", .number (.posInt 7)), ("method", .string "tools/list")]),
    .handler 1, .handler 1, .handler 1, .handler 1, .handler 1, .handler 1]

/-- The child's answer. -/
def answer (result : String) : Value :=
  .object [("id", .string "c1:1"), ("result", .string result)]

/-- The child answers, and the router finds whom the answer is for. -/
def answerRun (result : String) : List Label :=
  askRun ++ Label.childOutput 0 (answer result) :: [.routerTurn, .router [], .router []]

/-- Two muxes whose child answers differently. -/
theorem lockstep_answerRun {L : System → Label → Label → Prop} (hL : ∀ s l, l ∈ askRun ++
      [.routerTurn, .router [], .router []] → L s l l)
    (hdiffer : L (Config.small.after askRun) (.childOutput 0 (answer "a"))
      (.childOutput 0 (answer "b"))) :
    Run.Lockstep (System.step .small) L (System.init .small)
      (Config.small.after (answerRun "a")) (Config.small.after (answerRun "b")) := by
  have hask : Config.small.runs askRun = true := by decide +kernel
  have hruns : ∀ r ∈ ["a", "b"], Config.small.runs (askRun ++ [.childOutput 0 (answer r)]) = true ∧
      Config.small.runs (answerRun r) = true := by decide +kernel
  have hstep : ∀ r ∈ ["a", "b"], (Config.small.after askRun).step .small
      (.childOutput 0 (answer r)) =
        some (Config.small.after (askRun ++ [.childOutput 0 (answer r)])) :=
    fun r hr => Config.small.step_after hask (hruns r hr).1
  have hrest : ∀ r ∈ ["a", "b"], Run.exec (System.step .small)
      (Config.small.after (askRun ++ [.childOutput 0 (answer r)]))
      [.routerTurn, .router [], .router []] = some (Config.small.after (answerRun r)) := by
    intro r hr
    have hexec := Config.small.exec_eq_after (hruns r hr).2
    rw [answerRun, Run.exec_append, Config.small.exec_eq_after hask, Option.bind_some, Run.exec,
      hstep r hr] at hexec
    exact hexec
  have hinit : Run.Lockstep (System.step .small) L (System.init .small) _ _ := .init
  have hasked := hinit.append_exec
    (fun s l hl => hL s l (List.mem_append_left _ hl)) (Config.small.exec_eq_after hask)
    (Config.small.exec_eq_after hask)
  exact (hasked.step hdiffer (hstep "a" (by simp)) (hstep "b" (by simp))).append_exec
    (fun s l hl => hL s l (List.mem_append_right _ hl)) (hrest "a" (by simp))
    (hrest "b" (by simp))

/-- The answer goes to the client that asked; and the other client sees
no difference between two answers. -/
theorem only_addressee_sees_response_answerRun :
    (Config.small.after (answerRun "a")).Addresses
        (Config.small.after (answerRun "a" ++ [.router []])) ∧
      ((Config.small.after (answerRun "a" ++ [.router []])).messagesTo 1).length = 1 ∧
      (Config.small.after (answerRun "a")).messagesTo 2 =
        (Config.small.after (answerRun "b")).messagesTo 2 := by
  have hruns : Config.small.runs (answerRun "a") = true := by decide +kernel
  have hruns' : Config.small.runs (answerRun "a" ++ [.router []]) = true := by decide +kernel
  have hmeets : Run.meets (System.step .small) (fun _ l => l.batchesNoResponse)
      (System.init .small) (answerRun "a") = true := by decide +kernel
  refine ⟨(only_addressee_sees_response .small).1 _ _ _
    (Config.small.reachable_of_meets _ hruns hmeets) rfl (Config.small.step_after hruns hruns'),
    by decide +kernel, (only_addressee_sees_response .small).2 1 2 _ _ (by decide)
    (lockstep_answerRun (fun s l hl => ?_) ⟨rfl, rfl, .childOutput (.result ?_)⟩)⟩
  · have hall : ∀ l ∈ askRun ++ [.routerTurn, .router [], .router []],
        l.batchesNoResponse = true := by decide
    exact ⟨hall l hl, hall l hl, .same l⟩
  · refine ⟨by decide, by decide, rfl, "c1:1", by decide, ?_⟩
    unfold NamesRequestOf
    decide +kernel

/-- The child answers in a batch, and the router has it in its hands. -/
def leakRun : List Label := askRun ++ [Label.childOutput 0 (.array [answer "a"]), .routerTurn]

/-- **A batch brings a response to a client that did not ask.** -/
theorem not_addresses_leakRun : ¬ ∀ (cfg : Config) (s s' : System) (l : Label),
    Reachable cfg Run.Any s → s.step cfg l = some s' → s.Addresses s' := by
  intro hall
  have hruns : Config.small.runs leakRun = true := by decide +kernel
  have hruns' : Config.small.runs (leakRun ++ [.router []]) = true := by decide +kernel
  obtain ⟨ds, hds, haddr⟩ := hall _ _ _ _ (Config.small.reachable_after hruns)
    (Config.small.step_after hruns hruns')
  have hbefore : (Config.small.after leakRun).shared.sent = [] :=
    List.isEmpty_iff.1 (by decide +kernel)
  rw [hbefore, List.nil_append] at hds
  have hissued : ∀ i ∈ (Config.small.after leakRun).shared.issued,
      i.clientId = 1 ∧ i.isInitialize = false := by decide +kernel
  have hleak : ∃ d ∈ (Config.small.after (leakRun ++ [.router []])).shared.sent,
      d.client = 2 ∧ (match d.origin with
        | .child msg _ => !(responses msg).isEmpty
        | .mux => false) = true := by decide +kernel
  obtain ⟨d, hd, hclient, horigin⟩ := hleak
  split at horigin
  · rename_i msg a hchild
    obtain ⟨r, hr⟩ := List.exists_mem_of_ne_nil (responses msg) (by simpa using horigin)
    obtain ⟨i, hi, -, ⟨hc, -⟩ | ⟨hinit, -⟩⟩ := haddr d (hds ▸ hd) msg a hchild r hr
    · rw [hclient, (hissued i hi).1] at hc
      cases hc
    · rw [(hissued i hi).2] at hinit
      cases hinit
  · cases horigin

end Mux

end VcOperator
