import VcOperator.Mux.Helpers.Ids
/-!
# Two runs in lockstep

No task reads what stands on the channel to the router or on a client's
channel: it only adds to them. `Shared.behind` puts more in front of both,
and an operation does the same behind it (`run_behind`). Two shared parts
that differ in nothing else (`Shared.Twins`) so stay that way.
-/

namespace VcOperator

namespace Mux

/-- More stands on the channels to the router and to the clients, before
what is there already. -/
def Shared.behind (sh : Shared) (events : List ServerEvent) (sent : List Delivery) : Shared :=
  { sh with serverEvents := events ++ sh.serverEvents, sent := sent ++ sh.sent }

variable (sh : Shared) (events : List ServerEvent) (ds : List Delivery)

namespace Shared

@[simp] theorem behind_st : (sh.behind events ds).st = sh.st := rfl

@[simp] theorem behind_now : (sh.behind events ds).now = sh.now := rfl

@[simp] theorem behind_toServerOpen : (sh.behind events ds).toServerOpen = sh.toServerOpen := rfl

@[simp] theorem behind_shutdown : (sh.behind events ds).shutdown = sh.shutdown := rfl

@[simp] theorem behind_children : (sh.behind events ds).children = sh.children := rfl

@[simp] theorem behind_toServer : (sh.behind events ds).toServer = sh.toServer := rfl

@[simp] theorem behind_restartRx : (sh.behind events ds).restartRx = sh.restartRx := rfl

@[simp] theorem behind_hasRoom : (sh.behind events ds).hasRoom = sh.hasRoom := rfl

theorem behind_replyAll (xs : List Delivery) :
    (sh.behind events ds).replyAll xs = (sh.replyAll xs).behind events ds := by
  simp only [replyAll, behind, List.append_assoc]
  rfl

theorem behind_reply (d : Delivery) :
    (sh.behind events ds).reply d = (sh.reply d).behind events ds := behind_replyAll ..

end Shared

namespace ClientOp

theorem runForwardRequest_behind (c : ℕ) (msg : Tagged Value) :
    runForwardRequest c msg (sh.behind events ds) =
      ((runForwardRequest c msg sh).1.behind events ds, (runForwardRequest c msg sh).2) := by
  simp only [runForwardRequest, Shared.behind_st, Shared.behind_reply]
  split
  · rfl
  · split <;> rfl

theorem runInitialize_behind (c : ℕ) (val : Value) (lid : Tagged Value) :
    runInitialize c val lid (sh.behind events ds) =
      ((runInitialize c val lid sh).1.behind events ds, (runInitialize c val lid sh).2) := by
  cases hcached : (initializePending sh c).st.cachedInitialize with
  | some v =>
    simp only [initializePending] at hcached
    simp only [runInitialize, Shared.behind_st, hcached]
    exact Prod.ext (Shared.behind_reply (initializePending sh c) events ds _) rfl
  | none =>
    simp only [initializePending] at hcached
    simp only [runInitialize, Shared.behind_st, hcached]
    split
    · rfl
    · by_cases hfull : maxPending ≤ (sh.st.markInitializePending c).pending.len
      · simp only [hfull, ↓reduceIte]
        exact Prod.ext (Shared.behind_reply (initializePending sh c) events ds _) rfl
      · simp only [hfull, ↓reduceIte]
        rfl

/-- **A handler's operation does the same behind them.** -/
theorem run_behind (enc : Value → ℕ) (c : ℕ) (op : ClientOp) :
    op.run enc c (sh.behind events ds) =
      (op.run enc c sh).map fun r => (r.1.behind events ds, r.2) := by
  cases op with
  | markServerInitialized msg =>
    cases h : sh.st.serverInitialized <;> simp only [run, Shared.behind_st, h] <;> rfl
  | trySend msg =>
    cases h : sh.hasRoom <;> simp only [run, Shared.behind_hasRoom, h] <;> rfl
  | checkHandshake msg =>
    cases h : sh.st.isHandshakeComplete c <;> simp only [run, Shared.behind_st, h] <;> rfl
  | send msg isInitialize =>
    cases hopen : sh.toServerOpen <;> cases hroom : sh.hasRoom <;> cases isInitialize <;>
      simp only [run, Shared.behind_toServerOpen, Shared.behind_hasRoom, hopen, hroom] <;> rfl
  | flushBuffered buffered =>
    cases buffered with
    | nil => rfl
    | cons msg buffered => simp only [run, runForwardRequest_behind]; rfl
  | forwardRequest msg => simp only [run, runForwardRequest_behind]; rfl
  | handleInitialize val lid => simp only [run, runInitialize_behind]; rfl
  | rejectTooLarge msg | rejectHandshakeTimeout => simp only [run, Shared.behind_reply]; rfl
  | handleClientMessage _ | completeHandshake | bufferMessage _ | updateQueueDepth | publishStatus
  | unregisterClient | releasePermit => rfl

end ClientOp

theorem RouterOp.run_behind (order : List String) (op : RouterOp) :
    op.run order (sh.behind events ds) =
      (op.run order sh).map fun r => (r.1.behind events ds, r.2) := by
  cases op with
  | broadcast msg => simp only [run, Shared.behind_st, Shared.behind_replyAll]; rfl
  | takePending msg id =>
    cases h : sh.st.pending.get id <;> simp only [run, Shared.behind_st, h] <;> rfl
  | cacheInitialize msg p =>
    exact congrArg (fun r => some (r, [])) (Shared.behind_replyAll (storeInitialize msg sh) ..)
  | findTarget msg p =>
    by_cases h : p.clientId ∈ sh.st.clients <;>
      simp only [run, Shared.behind_st, h, ↓reduceIte] <;> rfl
  | sendTarget msg p =>
    simp only [run, Shared.behind, List.append_assoc, Option.map_some]
  | resetState reason =>
    by_cases h : order.Perm sh.st.pending.keys <;>
      simp only [run, Shared.behind_st, h, ↓reduceIte]
    · exact congrArg (fun r => some (r, [])) (Shared.behind_replyAll (clearState reason sh) ..)
    · rfl
  | publishStatus => rfl


theorem ReaperOp.run_behind (order : List String) (op : ReaperOp) :
    op.run order (sh.behind events ds) =
      (op.run order sh).map fun r => (r.1.behind events ds, r.2) := by
  cases op with
  | reap timeout =>
    by_cases h : order.Perm sh.st.pending.keys <;>
      simp only [run, Shared.behind_st, h, ↓reduceIte] <;> rfl
  | replyExpired expired => simp only [run, Shared.behind_replyAll]; rfl
  | readTimeout | publishStatus => rfl

theorem HeartbeatOp.run_behind (hb : HeartbeatState) (op : HeartbeatOp) :
    op.run hb (sh.behind events ds) =
      (op.run hb sh).map fun r => (r.1, r.2.1.behind events ds, r.2.2) := by
  cases op with
  | probe =>
    simp only [run, Shared.behind_st, apply_ite (Option.map _)]
    rfl
  | checkRestart => cases h : hb.shouldRestart <;> simp only [run, h] <;> rfl
  | sendProbe n t =>
    cases hopen : sh.toServerOpen <;> cases hroom : sh.hasRoom <;>
      simp only [run, Shared.behind_toServerOpen, Shared.behind_hasRoom, hopen, hroom] <;> rfl
  | awaitResponse n t deadline =>
    by_cases hfired : heartbeatId n ∈ hb.fired <;> by_cases hdue : deadline ≤ sh.now <;>
      simp only [run, Shared.behind_now, hfired, hdue, ↓reduceIte] <;> rfl
  | updateStateMetrics | publishStatus => rfl

theorem ManagerOp.runSelect_behind (choice : Choice) :
    runSelect choice (sh.behind events ds) =
      (runSelect choice sh).map fun r => (r.1.behind events ds, r.2) := by
  cases choice with
  | received | queueClosed =>
    cases h : sh.toServer <;> simp only [runSelect, Shared.behind_toServer, h] <;> rfl
  | heartbeatRestart =>
    cases h : sh.restartRx <;> simp only [runSelect, Shared.behind_restartRx, h] <;> rfl
  | childExited =>
    cases h : childAlive sh.children <;> simp only [runSelect, Shared.behind_children, h] <;> rfl
  | shutdown =>
    cases h : sh.shutdown <;> simp only [runSelect, Shared.behind_shutdown, h] <;> rfl
  | go | spawned _ | spawnFailed | pipeMissing | written | writeFailed _ | waitError _
  | joinError => rfl

theorem ManagerOp.run_behind (cfg : ManagerConfig) (choice : Choice) (loc : ManagerLocals)
    (op : ManagerOp) :
    op.run cfg choice loc (sh.behind events ds) =
      (op.run cfg choice loc sh).map fun r => (r.1, r.2.1.behind events ds, r.2.2) := by
  cases op with
  | loopHead =>
    cases hdown : sh.shutdown <;> cases hlazy : cfg.lazyStart && loc.restarts == 0 <;>
      simp only [run, Shared.behind_shutdown, hdown, hlazy] <;> rfl
  | awaitFirst =>
    cases choice <;> cases hqueue : sh.toServer <;> cases hdown : sh.shutdown <;>
      simp only [run, Shared.behind_toServer, Shared.behind_shutdown, hqueue, hdown] <;> rfl
  | checkLimit _ => cases h : limitReached cfg loc <;> simp only [run, h] <;> rfl
  | afterReset again =>
    cases h : sh.shutdown || !again <;> simp only [run, Shared.behind_shutdown, h] <;> rfl
  | sleep t =>
    by_cases h : t ≤ sh.now <;> simp only [run, Shared.behind_now, h, ↓reduceIte] <;> rfl
  | spawn _ | takePipes _ | writeFirst _ | writeMessage _ => cases choice <;> rfl
  | select =>
    simp only [run, runSelect_behind]
    cases runSelect choice sh <;> rfl
  | cleanup again => simp only [run, Shared.behind, List.append_assoc, Option.map_some]
  | publishHoldingGuard | markRunning _ | writeLoop | markFailed _ _ | resetFields _
  | updateQueueDepth | publishStatus => rfl

/-! ## Two muxes -/

variable {A : ℕ} {issued issued' : List Issue} {sh sh' th th' : Shared}

/-- The id of a request of client `A` that is no `initialize`. -/
def NamesRequestOf (A : ℕ) (issued : List Issue) (id : String) : Prop :=
  ∃ i ∈ issued, i.clientId = A ∧ i.isInitialize = false ∧ id = globalId i.clientId i.n

theorem NamesRequestOf.mono (hsub : issued ⊆ issued') {id : String}
    (h : NamesRequestOf A issued id) : NamesRequestOf A issued' id := by
  obtain ⟨i, hi, h⟩ := h
  exact ⟨i, hsub hi, h⟩

/-- The same event, or two answers to the same request of `A`. -/
inductive ServerEvent.SameBut (A : ℕ) (issued : List Issue) : ServerEvent → ServerEvent → Prop
  | same (e : ServerEvent) : SameBut A issued e e
  | answer {msg msg' : Value} {id : String} (hsame : msg'.get "id" = msg.get "id")
      (hid : (msg.get "id").bind idStr = some id) (h : NamesRequestOf A issued id) :
      SameBut A issued (.message msg) (.message msg')

/-- The same operation, or one on two answers to the same request of `A`. -/
inductive RouterOp.SameBut (A : ℕ) (issued : List Issue) : RouterOp → RouterOp → Prop
  | same (op : RouterOp) : SameBut A issued op op
  | takePending (msg msg' : Value) {id : String} (h : NamesRequestOf A issued id) :
      SameBut A issued (.takePending msg id) (.takePending msg' id)
  | findTarget (msg msg' : Value) {p : Pending} (h : p.clientId = A) :
      SameBut A issued (.findTarget msg p) (.findTarget msg' p)
  | sendTarget (msg msg' : Value) {p : Pending} (h : p.clientId = A) :
      SameBut A issued (.sendTarget msg p) (.sendTarget msg' p)

theorem ServerEvent.SameBut.mono (hsub : issued ⊆ issued') {e e' : ServerEvent}
    (h : e.SameBut A issued e') : e.SameBut A issued' e' := by
  cases h with
  | same e => exact .same e
  | answer hsame hid h => exact .answer hsame hid (h.mono hsub)

theorem RouterOp.SameBut.mono (hsub : issued ⊆ issued') {op op' : RouterOp}
    (h : op.SameBut A issued op') : op.SameBut A issued' op' := by
  cases h with
  | same op => exact .same op
  | takePending msg msg' h => exact .takePending msg msg' (h.mono hsub)
  | findTarget msg msg' h => exact .findTarget msg msg' h
  | sendTarget msg msg' h => exact .sendTarget msg msg' h

/-- What the clients other than `A` were sent. -/
def sentToOthers (A : ℕ) (ds : List Delivery) : List Delivery := ds.filter (·.client ≠ A)

/-- **Two shared parts that differ only in the answers to `A`**, on the way
to the router and on `A`'s own channel. -/
structure Shared.Twins (A : ℕ) (sh th : Shared) : Prop where
  rest : th = { sh with serverEvents := th.serverEvents, sent := th.sent }
  events : List.Forall₂ (ServerEvent.SameBut A sh.issued) sh.serverEvents th.serverEvents
  sent : sentToOthers A sh.sent = sentToOthers A th.sent

theorem forall₂_same {α : Type} {R : α → α → Prop} (h : ∀ a, R a a) (as : List α) :
    List.Forall₂ R as as :=
  List.forall₂_same.2 fun a _ => h a

namespace Shared.Twins

/-- What both add is the same. -/
theorem behind {es es' : List ServerEvent} {ds ds' : List Delivery} (sh : Shared)
    (hes : List.Forall₂ (ServerEvent.SameBut A sh.issued) es es')
    (hds : sentToOthers A ds = sentToOthers A ds') :
    Twins A (sh.behind es ds) (sh.behind es' ds') where
  rest := rfl
  events := List.rel_append hes (forall₂_same .same _)
  sent := by
    simp only [sentToOthers, Shared.behind, List.filter_append] at hds ⊢
    rw [hds]

theorem exists_behind (h : Twins A sh th) : ∃ sh₀ : Shared, sh₀.issued = sh.issued ∧
    sh = sh₀.behind sh.serverEvents sh.sent ∧ th = sh₀.behind th.serverEvents th.sent := by
  refine ⟨{ sh with serverEvents := [], sent := [] }, rfl, ?_, ?_⟩
  · simp [Shared.behind]
  · rw [h.rest]
    simp [Shared.behind]

/-- **What is local to the rest keeps twins twins.** -/
theorem of_local {ρ : Type} (run : Shared → Option ρ)
    {put : List ServerEvent → List Delivery → ρ → ρ}
    (hlocal : ∀ sh es ds, run (sh.behind es ds) = (run sh).map (put es ds))
    (h : Twins A sh th) {r r' : ρ} (hs : run sh = some r) (ht : run th = some r') :
    ∃ r₀ es es' ds ds', List.Forall₂ (ServerEvent.SameBut A sh.issued) es es' ∧
      sentToOthers A ds = sentToOthers A ds' ∧ r = put es ds r₀ ∧ r' = put es' ds' r₀ := by
  obtain ⟨sh₀, -, heq, heq'⟩ := h.exists_behind
  rw [heq, hlocal] at hs
  rw [heq', hlocal] at ht
  obtain ⟨r₀, hr, rfl⟩ := Option.map_eq_some_iff.1 hs
  rw [hr] at ht
  obtain ⟨r₁, hr', rfl⟩ := Option.map_eq_some_iff.1 ht
  cases hr'
  exact ⟨r₀, _, _, _, _, h.events, h.sent, rfl, rfl⟩

theorem of_put {es es' : List ServerEvent} {ds ds' : List Delivery} {sh₀ : Shared}
    (hes : List.Forall₂ (ServerEvent.SameBut A sh.issued) es es')
    (hds : sentToOthers A ds = sentToOthers A ds') (hsub : sh.issued ⊆ sh₀.issued) :
    Twins A (sh₀.behind es ds) (sh₀.behind es' ds') :=
  behind sh₀ (hes.imp fun _ _ h => h.mono hsub) hds

end Shared.Twins

/-! ## One operation in both -/

theorem ClientOp.twins_run {enc : Value → ℕ} {c : ℕ} {op : ClientOp} {ops ops' : List ClientOp}
    (h : sh.Twins A th) (hs : op.run enc c sh = some (sh', ops))
    (ht : op.run enc c th = some (th', ops')) : ops' = ops ∧ sh'.Twins A th' := by
  have hsub := (issues_run hs).issued_subset
  obtain ⟨r₀, es, es', ds, ds', hes, hds, heq, heq'⟩ :=
    h.of_local (run enc c · op) (run_behind · · · enc c op) hs ht
  cases heq
  cases heq'
  exact ⟨rfl, .of_put hes hds hsub⟩

theorem ReaperOp.twins_run {order : List String} {op : ReaperOp} {ops ops' : List ReaperOp}
    (h : sh.Twins A th) (hs : op.run order sh = some (sh', ops))
    (ht : op.run order th = some (th', ops')) : ops' = ops ∧ sh'.Twins A th' := by
  have hissued := (shrinks_run hs).issued
  obtain ⟨r₀, es, es', ds, ds', hes, hds, heq, heq'⟩ :=
    h.of_local (run order · op) (run_behind · · · order op) hs ht
  cases heq
  cases heq'
  exact ⟨rfl, .of_put hes hds (hissued.symm ▸ List.Subset.refl _)⟩

theorem HeartbeatOp.twins_run {hb hb₁ hb₂ : HeartbeatState} {op : HeartbeatOp}
    {ops ops' : List HeartbeatOp} (h : sh.Twins A th)
    (hs : op.run hb sh = some (hb₁, sh', ops)) (ht : op.run hb th = some (hb₂, th', ops')) :
    hb₂ = hb₁ ∧ ops' = ops ∧ sh'.Twins A th' := by
  have hissued := (still_run hs).issued
  obtain ⟨r₀, es, es', ds, ds', hes, hds, heq, heq'⟩ :=
    h.of_local (run hb · op) (run_behind · · · hb op) hs ht
  cases heq
  cases heq'
  exact ⟨rfl, rfl, .of_put hes hds (hissued.symm ▸ List.Subset.refl _)⟩

theorem ManagerOp.twins_run {cfg : ManagerConfig} {choice : Choice}
    {loc loc₁ loc₂ : ManagerLocals} {op : ManagerOp} {ops ops' : List ManagerOp}
    (h : sh.Twins A th) (hs : op.run cfg choice loc sh = some (loc₁, sh', ops))
    (ht : op.run cfg choice loc th = some (loc₂, th', ops')) :
    loc₂ = loc₁ ∧ ops' = ops ∧ sh'.Twins A th' := by
  have hissued := (still_run hs).issued
  obtain ⟨r₀, es, es', ds, ds', hes, hds, heq, heq'⟩ :=
    h.of_local (run cfg choice loc · op) (run_behind · · · cfg choice loc op) hs ht
  cases heq
  cases heq'
  exact ⟨rfl, rfl, .of_put hes hds (hissued.symm ▸ List.Subset.refl _)⟩

/-- The entry under the id of a request of `A` is `A`'s, and no `initialize`. -/
theorem NamesRequestOf.pending {id : String} (h : NamesRequestOf A sh.issued id) (hk : sh.Keyed)
    {p : Pending} (hp : sh.st.pending.get id = some p) :
    p.clientId = A ∧ p.isInitialize = false := by
  obtain ⟨i, hi, hA, hinit, rfl⟩ := h
  obtain ⟨j, hj, hid, hclient, -, hjinit⟩ := hk.pending _ p hp
  have hij : i = j := hk.eq_of_n_eq hi hj (globalId_injective hid).2
  subst hij
  exact ⟨hclient.symm.trans hA, hjinit.symm.trans hinit⟩

/-- **The router, on the same operation or on two answers to `A`.** -/
theorem RouterOp.twins_run {order : List String} {op op' : RouterOp}
    {ops ops' : List RouterOp} (hk : sh.Keyed) (h : sh.Twins A th)
    (hop : op.SameBut A sh.issued op') (hs : op.run order sh = some (sh', ops))
    (ht : op'.run order th = some (th', ops')) :
    List.Forall₂ (RouterOp.SameBut A sh.issued) ops ops' ∧ sh'.Twins A th' := by
  have hissued := (shrinks_run hs).issued
  have hst : th.st = sh.st := by rw [h.rest]
  cases hop with
  | same op =>
    obtain ⟨r₀, es, es', ds, ds', hes, hds, heq, heq'⟩ :=
      h.of_local (run order · op) (run_behind · · · order op) hs ht
    cases heq
    cases heq'
    exact ⟨forall₂_same .same _, .of_put hes hds (hissued.symm ▸ List.Subset.refl _)⟩
  | @takePending msg msg' id hid =>
    simp only [run] at hs ht
    rw [hst] at ht
    cases hp : sh.st.pending.get id with
    | none =>
      rw [hp] at hs ht
      cases hs
      cases ht
      exact ⟨.nil, h⟩
    | some p =>
      obtain ⟨hclient, hinit⟩ := hid.pending hk hp
      rw [hp] at hs ht
      simp only [hinit] at hs ht
      cases hs
      cases ht
      refine ⟨.cons (.findTarget _ _ hclient) .nil, ?_, h.events, h.sent⟩
      rw [h.rest]
      rfl
  | @findTarget msg msg' p hA =>
    simp only [run] at hs ht
    rw [hst] at ht
    split at hs
    · rename_i hmem
      rw [if_pos hmem] at ht
      cases hs
      cases ht
      exact ⟨.cons (.sendTarget _ _ hA) (forall₂_same .same _), h⟩
    · rename_i hmem
      rw [if_neg hmem] at ht
      cases hs
      cases ht
      exact ⟨forall₂_same .same _, h⟩
  | @sendTarget msg msg' p hA =>
    cases hs
    cases ht
    refine ⟨.nil, ?_, h.events, ?_⟩
    · rw [h.rest]
    · have hsent := h.sent
      simp only [sentToOthers] at hsent ⊢
      simp only [List.filter_append, hsent, hA, ne_eq, not_true_eq_false, decide_false,
        Bool.false_eq_true, not_false_eq_true, List.filter_cons_of_neg]

/-- What answers a request is looked up under its id. -/
theorem RouterOp.handleServerMessage_of_idStr {msg : Value} {id : String}
    (hid : (msg.get "id").bind idStr = some id) :
    handleServerMessage msg = [takePending msg id] := by
  obtain ⟨v, hv, hs⟩ := Option.bind_eq_some_iff.1 hid
  have hnull : v.isNull = false := by
    cases v with
    | null => cases hs
    | bool _ | number _ | string _ | array _ | object _ => rfl
  simp only [handleServerMessage, hv, hnull, hs, Bool.false_eq_true, ↓reduceIte]

/-- **The router takes the same event, or two answers to `A`.** -/
theorem RouterOp.twins_dispatch {event event' : ServerEvent} {rest rest' : List ServerEvent}
    (h : sh.Twins A th) (hevent : event.SameBut A sh.issued event')
    (hrest : List.Forall₂ (ServerEvent.SameBut A sh.issued) rest rest') :
    List.Forall₂ (RouterOp.SameBut A sh.issued)
      (dispatch event { sh with serverEvents := rest }).2
      (dispatch event' { th with serverEvents := rest' }).2 ∧
    (dispatch event { sh with serverEvents := rest }).1.Twins A
      (dispatch event' { th with serverEvents := rest' }).1 := by
  have htwins : Shared.Twins A { sh with serverEvents := rest } { th with serverEvents := rest' } :=
    ⟨by rw [h.rest], hrest, h.sent⟩
  have hrx : th.heartbeatRx = sh.heartbeatRx := by rw [h.rest]
  cases hevent with
  | same event =>
    cases event with
    | reset reason => exact ⟨forall₂_same .same _, htwins⟩
    | message msg =>
      simp only [dispatch]
      split
      · exact ⟨.nil, by rw [h.rest], hrest, h.sent⟩
      · exact ⟨forall₂_same .same _, htwins⟩
  | @answer msg msg' id hsame hid hnames =>
    have hhb : heartbeatResponse msg' = heartbeatResponse msg := by
      rw [heartbeatResponse, hsame, heartbeatResponse]
    simp only [dispatch, hhb]
    split
    · exact ⟨.nil, by rw [h.rest], hrest, h.sent⟩
    · rw [handleServerMessage_of_idStr hid, handleServerMessage_of_idStr (hsame ▸ hid)]
      exact ⟨.cons (.takePending _ _ hnames) .nil, htwins⟩

/-! ## One step in both -/

/-- **Two muxes that differ only in the answers to `A`.** -/
structure System.Twins (A : ℕ) (s t : System) : Prop where
  shared : s.shared.Twins A t.shared
  router : List.Forall₂ (RouterOp.SameBut A s.shared.issued) s.router t.router
  rest : t = { s with shared := t.shared, router := t.router }

variable {cfg : Config} {s s' t t' : System} {l : Label}

theorem System.Twins.refl (A : ℕ) (s : System) : s.Twins A s :=
  ⟨⟨rfl, forall₂_same .same _, rfl⟩, forall₂_same .same _, rfl⟩

/-- The two are told apart by the router's list and two channels. -/
theorem System.Twins.exists_eq (h : s.Twins A t) : ∃ events sent rops,
    t = { s with
      shared := { s.shared with serverEvents := events, sent := sent }
      router := rops } ∧
    List.Forall₂ (ServerEvent.SameBut A s.shared.issued) s.shared.serverEvents events ∧
    sentToOthers A s.shared.sent = sentToOthers A sent ∧
    List.Forall₂ (RouterOp.SameBut A s.shared.issued) s.router rops := by
  refine ⟨t.shared.serverEvents, t.shared.sent, t.router, ?_, h.shared.events, h.shared.sent,
    h.router⟩
  rw [← h.shared.rest]
  exact h.rest

/-- **The same step of both keeps them twins.** -/
theorem System.Twins.step (h : s.Twins A t) (hk : s.shared.Keyed)
    (hs : s.step cfg l = some s') (ht : t.step cfg l = some t') : s'.Twins A t' := by
  obtain ⟨events, sent, rops, rfl, hes, hds, hrops⟩ := h.exists_eq
  cases stepped_of_step hs with
  | connect | receive | disconnect | decodeError | writerFails | reaperTick | heartbeatTick
  | readerEnds | childExits | shutdown | elapse =>
    cases stepped_of_step ht
    exact ⟨⟨rfl, hes, hds⟩, hrops, rfl⟩
  | handshakeTimeout hidle hlate =>
    cases stepped_of_step ht with
    | handshakeTimeout => exact ⟨⟨rfl, hes, hds⟩, hrops, rfl⟩
    | handshakeTick hlate' => cases hlate.symm.trans hlate'
  | handshakeTick hlate =>
    cases stepped_of_step ht with
    | handshakeTimeout hidle' hlate' => cases hlate.symm.trans hlate'
    | handshakeTick => exact h
  | handler hops hrun =>
    cases stepped_of_step ht with
    | handler hops' hrun' =>
      cases hops.symm.trans hops'
      obtain ⟨rfl, htwins⟩ := ClientOp.twins_run h.shared hrun hrun'
      exact ⟨htwins, hrops.imp fun _ _ hop => hop.mono (ClientOp.issues_run hrun).issued_subset,
        rfl⟩
  | writer hops hrun =>
    cases stepped_of_step ht with
    | writer hops' hrun' =>
      cases hops.symm.trans hops'
      obtain ⟨rfl, htwins⟩ := ClientOp.twins_run h.shared hrun hrun'
      exact ⟨htwins, hrops.imp fun _ _ hop => hop.mono (ClientOp.issues_run hrun).issued_subset,
        rfl⟩
  | @routerTurn event rest hidle hevents =>
    cases stepped_of_step ht with
    | routerTurn hidle' hevents' =>
      have hfront := h.shared.events
      rw [hevents, hevents'] at hfront
      cases hfront with
      | cons hevent hrest =>
        obtain ⟨hrouter, htwins⟩ := RouterOp.twins_dispatch h.shared hevent hrest
        have hissued := (still_dispatch event rest s.shared).issued
        exact ⟨htwins, hrouter.imp fun _ _ hop => hop.mono (hissued.symm ▸ List.Subset.refl _), rfl⟩
  | router hops hrun =>
    cases stepped_of_step ht with
    | router hops' hrun' =>
      have hfront := h.router
      rw [hops, hops'] at hfront
      cases hfront with
      | cons hop hrest =>
        obtain ⟨hnew, htwins⟩ := RouterOp.twins_run hk h.shared hop hrun hrun'
        refine ⟨htwins, ?_, rfl⟩
        rw [(RouterOp.shrinks_run hrun).issued]
        exact List.rel_append hnew hrest
  | reaper hops hrun =>
    cases stepped_of_step ht with
    | reaper hops' hrun' =>
      cases hops.symm.trans hops'
      obtain ⟨rfl, htwins⟩ := ReaperOp.twins_run h.shared hrun hrun'
      exact ⟨htwins, (ReaperOp.shrinks_run hrun).issued.symm ▸ hrops, rfl⟩
  | heartbeatEvent hidle hevents =>
    cases stepped_of_step ht with
    | heartbeatEvent hidle' hevents' =>
      cases hevents.symm.trans hevents'
      exact ⟨⟨rfl, hes, hds⟩, hrops, rfl⟩
  | heartbeat hops hrun =>
    cases stepped_of_step ht with
    | heartbeat hops' hrun' =>
      cases hops.symm.trans hops'
      obtain ⟨rfl, rfl, htwins⟩ := HeartbeatOp.twins_run h.shared hrun hrun'
      exact ⟨htwins, (HeartbeatOp.still_run hrun).issued.symm ▸ hrops, rfl⟩
  | manager hops hlock hrun =>
    cases stepped_of_step ht with
    | manager hops' hlock' hrun' =>
      cases hops.symm.trans hops'
      obtain ⟨rfl, rfl, htwins⟩ := ManagerOp.twins_run h.shared hrun hrun'
      exact ⟨htwins, (ManagerOp.still_run hrun).issued.symm ▸ hrops, rfl⟩
  | childOutput hreads =>
    cases stepped_of_step ht with
    | childOutput hreads' =>
      exact ⟨⟨rfl, List.rel_append hes (forall₂_same .same _), hds⟩, hrops, rfl⟩

/-- **Two children that answer `A` differently.** -/
theorem System.Twins.childOutput (h : s.Twins A t) {k : ℕ} {msg msg' : Value}
    (hmsg : ServerEvent.SameBut A s.shared.issued (.message msg) (.message msg'))
    (hs : s.step cfg (.childOutput k msg) = some s')
    (ht : t.step cfg (.childOutput k msg') = some t') : s'.Twins A t' := by
  obtain ⟨events, sent, rops, rfl, hes, hds, hrops⟩ := h.exists_eq
  cases stepped_of_step hs with
  | childOutput hreads =>
    cases stepped_of_step ht with
    | childOutput hreads' =>
      exact ⟨⟨rfl, List.rel_append hes (.cons hmsg .nil), hds⟩, hrops, rfl⟩

end Mux

end VcOperator
