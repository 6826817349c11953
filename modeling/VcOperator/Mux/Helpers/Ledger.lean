import VcOperator.Mux.Places
import VcOperator.Mux.Helpers.Ids
import VcOperator.Mux.Helpers.Sound
/-!
# The ledger of the requests

Every operation moves requests between places without copying one, and
loses one only when its client is gone. `Conserves live n n'` is that
statement for a count: it does not grow, and while `live` it stays.
`Balanced` is it for one operation, its own hands and the shared places
taken together.
-/

namespace VcOperator

namespace Mux

/-- A count that does not grow, and that stays while `live`. -/
structure Conserves (live : Prop) (n n' : ℕ) : Prop where
  le : n' ≤ n
  eq : live → n' = n

namespace Conserves

variable {live live' : Prop} {n n' k k' : ℕ}

theorem of_eq (h : n' = n) : Conserves live n n' := ⟨Nat.le_of_eq h, fun _ => h⟩

theorem of_dead (hdead : ¬ live) (h : n' ≤ n) : Conserves live n n' :=
  ⟨h, fun hl => absurd hl hdead⟩

theorem imp (h : Conserves live n n') (hl : live' → live) : Conserves live' n n' :=
  ⟨h.le, fun hl' => h.eq (hl hl')⟩

theorem add_right (h : Conserves live n n') (k : ℕ) : Conserves live (n + k) (n' + k) :=
  ⟨Nat.add_le_add_right h.le k, fun hl => by rw [h.eq hl]⟩

theorem add_left (h : Conserves live n n') (k : ℕ) : Conserves live (k + n) (k + n') :=
  ⟨Nat.add_le_add_left h.le k, fun hl => by rw [h.eq hl]⟩

/-- Counts may be regrouped. -/
theorem congr (h : Conserves live n n') (hk : k = n) (hk' : k' = n') : Conserves live k k' := by
  rw [hk, hk']
  exact h

end Conserves

/-- What a handler's operation has in its hands. -/
def ClientOp.tags (op : ClientOp) : List Occ := op.ownCall ++ op.flushing

/-- The condition under which a request is not lost: its client is
registered, and it is one of the requests accounted for. -/
def Live (rec : List (Tagged Value)) (clients : List ℕ) (o : Occ) : Prop :=
  o.client ∈ clients ∧ ∃ msg ∈ rec, msg.occ = o ∧ IsRequest msg.val

variable {c : ℕ} {o : Occ} {sh sh' : Shared}

/-! ## The shared places -/

theorem Quiet.held (h : Quiet sh sh') (o : Occ) : sh'.held o = sh.held o := by
  simp only [Shared.held, Shared.answered, Shared.pendingOccs, Shared.waitingOccs,
    Shared.bufferedOccs, h.sent, h.pending, h.initWaiting, h.buffered]

/-- The requests a batch of replies answers. -/
theorem answers_map {α : Type} {f : α → Delivery} {g : α → Occ}
    (h : ∀ a, (f a).answers = some (g a)) (l : List α) :
    (l.map f).filterMap (·.answers) = l.map g := by
  rw [List.filterMap_map, show (fun d : Delivery => d.answers) ∘ f = some ∘ g from funext h]
  exact congrFun List.filterMap_eq_map l

/-- **Replies reach registered clients.** The requests answered by a batch
are lost from it only where the client is not registered. -/
theorem conserves_replyAll (sh : Shared) {ds : List Delivery}
    (hds : ∀ d ∈ ds, ∀ o', d.answers = some o' → o'.client = d.client) (o : Occ) :
    Conserves (o.client ∈ sh.st.clients) (sh.held o + (ds.filterMap (·.answers)).count o)
      ((sh.replyAll ds).held o) := by
  have key : ∀ es : List Delivery, (∀ d ∈ es, ∀ o', d.answers = some o' → o'.client = d.client) →
      Conserves (o.client ∈ sh.st.clients) ((es.filterMap (·.answers)).count o)
        (((es.filter fun d => d.client ∈ sh.st.clients).filterMap (·.answers)).count o) := by
    intro es
    induction es with
    | nil => exact fun _ => .of_eq rfl
    | cons d es ih =>
      intro hes
      have hrest := ih fun d' hd' => hes d' (List.mem_cons_of_mem _ hd')
      by_cases hreg : d.client ∈ sh.st.clients
      · rw [List.filter_cons_of_pos (by simpa using hreg)]
        cases hans : d.answers with
        | none => rwa [List.filterMap_cons_none hans, List.filterMap_cons_none hans]
        | some o' =>
          rw [List.filterMap_cons_some hans, List.filterMap_cons_some hans, List.count_cons,
            List.count_cons]
          exact hrest.add_right _
      · rw [List.filter_cons_of_neg (by simpa using hreg)]
        cases hans : d.answers with
        | none => rwa [List.filterMap_cons_none hans]
        | some o' =>
          rw [List.filterMap_cons_some hans, List.count_cons]
          have hne : o.client ∈ sh.st.clients → ¬ o' = o := by
            rintro hc rfl
            exact hreg (hes d (List.mem_cons_self ..) o' hans ▸ hc)
          refine ⟨Nat.le_add_right_of_le hrest.le, fun hc => ?_⟩
          rw [hrest.eq hc]
          simp [hne hc]
  have hkey := key ds hds
  have hheld : (sh.replyAll ds).held o = sh.held o +
      ((ds.filter fun d => d.client ∈ sh.st.clients).filterMap (·.answers)).count o := by
    simp only [Shared.held, Shared.answered, Shared.pendingOccs, Shared.waitingOccs,
      Shared.bufferedOccs, Shared.replyAll, List.filterMap_append, List.count_append]
    omega
  exact (hkey.add_left (sh.held o)).congr rfl hheld

/-- The same, for one reply to a request of its client. -/
theorem conserves_reply (sh : Shared) {d : Delivery} {o' : Occ} (hd : d.answers = some o')
    (hclient : o'.client = d.client) (o : Occ) :
    Conserves (o.client ∈ sh.st.clients) (sh.held o + [o'].count o) ((sh.reply d).held o) := by
  refine (@conserves_replyAll sh [d] ?_ o).congr ?_ rfl
  · intro d' hd' o'' ho''
    rw [List.mem_singleton.1 hd'] at ho'' ⊢
    rw [hd, Option.some.injEq] at ho''
    rw [← ho'', hclient]
  · rw [List.filterMap_cons_some hd, List.filterMap_nil]

/-- A message that is not a reply changes no place. -/
theorem held_replyAll_of_none (sh : Shared) {ds : List Delivery}
    (hds : ∀ d ∈ ds, d.answers = none) (o : Occ) : (sh.replyAll ds).held o = sh.held o := by
  have hnil : (ds.filter fun d => d.client ∈ sh.st.clients).filterMap (·.answers) = [] :=
    List.filterMap_eq_nil_iff.2 fun d hd => hds d (List.mem_filter.1 hd).1
  simp only [Shared.held, Shared.answered, Shared.pendingOccs, Shared.waitingOccs,
    Shared.bufferedOccs, Shared.replyAll, List.filterMap_append, hnil, List.append_nil]

/-- A request that is forwarded gets its entry in `pending`. -/
theorem held_insertPending (hk : sh.Keyed) (c : ℕ) (lid : Tagged Value) (isInitialize : Bool)
    (o : Occ) :
    (ClientOp.insertPending sh c lid isInitialize).held o = sh.held o + [lid.occ].count o := by
  have hvalues : (ClientOp.insertPending sh c lid isInitialize).pendingOccs =
      lid.occ :: sh.pendingOccs := by
    rw [Shared.pendingOccs, show (ClientOp.insertPending sh c lid isInitialize).st.pending =
      sh.st.pending.insert (globalId c sh.st.nextGlobalId) ⟨c, lid, isInitialize, sh.now⟩ from rfl,
      HashMap.values_insert (hk.fresh c)]
    rfl
  simp only [Shared.held, hvalues, List.count_cons, List.count_nil]
  simp only [Shared.answered, Shared.waitingOccs, Shared.bufferedOccs, MuxState.bufferedMessages,
    ClientOp.insertPending, MuxState.nextRequestId]
  omega

/-- **A client that is unregistered takes its own requests with it.** -/
theorem conserves_unregister (hs : sh.Sound) (c : ℕ) (o : Occ) :
    Conserves (o.client ∈ (sh.unregister c).st.clients) (sh.held o)
      ((sh.unregister c).held o) := by
  have hpending : (sh.unregister c).pendingOccs =
      (sh.st.pending.values.filter fun p => decide (p.clientId ≠ c)).map (·.localId.occ) := by
    rw [Shared.pendingOccs, ← HashMap.values_retain]
    rfl
  have hwaiting : (sh.unregister c).waitingOccs =
      (sh.st.initWaiting.filter fun w => decide (w.1 ≠ c)).map (·.2.occ) := rfl
  have hbuffered : (sh.unregister c).bufferedOccs o.client =
      if o.client = c then [] else sh.bufferedOccs o.client := by
    rw [Shared.bufferedOccs, show (sh.unregister c).st.bufferedMessages o.client = _ from
      MuxState.bufferedMessages_unregisterClient sh.st c o.client]
    split_ifs <;> rfl
  simp only [Shared.held, hpending, hwaiting, hbuffered]
  have hsublist : ∀ {α : Type} (f : α → Occ) (p : α → Bool) (l : List α),
      ((l.filter p).map f).count o ≤ (l.map f).count o := fun f p l =>
    (List.filter_sublist.map f).count_le o
  by_cases hc : o.client = c
  · refine .of_dead (fun hmem => ?_) ?_
    · rw [hc] at hmem
      simp [Shared.unregister, MuxState.unregisterClient] at hmem
    · rw [if_pos hc]
      have h₁ := hsublist (fun p : Pending => p.localId.occ) (fun p => decide (p.clientId ≠ c))
        sh.st.pending.values
      have h₂ := hsublist (fun w : ℕ × Tagged Value => w.2.occ) (fun w => decide (w.1 ≠ c))
        sh.st.initWaiting
      simp only [Shared.pendingOccs, Shared.waitingOccs, Shared.answered, Shared.unregister,
        List.count_nil]
      omega
  · rw [if_neg hc]
    -- the entries filtered out are another client's
    have hkeep : ∀ {α : Type} (f : α → Occ) (p : α → Bool) (l : List α),
        (∀ x ∈ l, f x = o → p x = true) → ((l.filter p).map f).count o = (l.map f).count o := by
      intro α f p l hl
      rw [List.count_eq_countP, List.count_eq_countP, List.countP_map, List.countP_map,
        List.countP_filter]
      refine List.countP_congr fun x hx => ?_
      simp only [Function.comp, beq_iff_eq, Bool.and_eq_true]
      exact ⟨fun h => h.1, fun h => ⟨h, hl x hx h⟩⟩
    refine .of_eq ?_
    rw [hkeep (fun p : Pending => p.localId.occ) _ sh.st.pending.values ?_,
      hkeep (fun w : ℕ × Tagged Value => w.2.occ) _ sh.st.initWaiting ?_]
    · rfl
    · intro w hw hoc
      have hcl := (hs.initWaiting w hw).client_eq
      rw [hoc] at hcl
      simpa [← hcl] using hc
    · intro p hp hoc
      have hcl := (hs.pending p hp).client_eq
      rw [hoc] at hcl
      simpa [← hcl] using hc

/-! ## The handlers -/

namespace ClientOp

variable {enc : Value → ℕ} {op : ClientOp} {ops : List ClientOp}

/-- **What an operation conserves**: the shared places and its own hands together. -/
def Balanced (o : Occ) (sh : Shared) (op : ClientOp) (sh' : Shared) (ops : List ClientOp) : Prop :=
  Conserves (Live sh.received sh'.st.clients o) (sh.held o + op.tags.count o)
    (sh'.held o + (ops.flatMap tags).count o)

/-- A quiet operation conserves what it keeps in its hands. -/
theorem balanced_of_quiet (hq : Quiet sh sh') (htags : ops.flatMap tags = op.tags) (o : Occ) :
    Balanced o sh op sh' ops :=
  .of_eq (by rw [hq.held, htags])

theorem Forwarded.conserves {msg : Tagged Value} (h : Forwarded c msg sh sh' ops)
    (hk : sh.Keyed) (hmsg : GenuineRequest sh.received c msg) (o : Occ) :
    Conserves (o.client ∈ sh'.st.clients) (sh.held o + [msg.occ].count o)
      (sh'.held o + (ops.flatMap tags).count o) := by
  cases h with
  | noId hid =>
    have hsome := hmsg.2
    rw [hid] at hsome
    cases hsome
  | refused hid =>
    exact (conserves_reply sh rfl hmsg.1.2 o).congr rfl (Nat.add_zero _)
  | forwarded hid =>
    exact .of_eq (held_insertPending hk c _ false o)

theorem Initialized.conserves {val : Value} {lid : Tagged Value}
    (h : Initialized c val lid sh sh' ops) (hk : sh.Keyed)
    (hlid : GenuineId sh.received c lid) (o : Occ) :
    Conserves (o.client ∈ sh'.st.clients) (sh.held o + [lid.occ].count o)
      (sh'.held o + (ops.flatMap tags).count o) := by
  cases h with
  | cached hcached => exact (conserves_reply sh rfl hlid.client_eq o).congr rfl (Nat.add_zero _)
  | parked hcached hinit =>
    refine .of_eq ?_
    simp only [Shared.held, Shared.answered, Shared.pendingOccs, Shared.waitingOccs,
      Shared.bufferedOccs, MuxState.bufferedMessages, List.map_append, List.map_cons,
      List.map_nil, List.count_append, List.flatMap_nil, List.count_nil]
    omega
  | refused hcached hinit =>
    exact (conserves_reply sh rfl hlid.client_eq o).congr rfl (Nat.add_zero _)
  | forwarded hcached hinit => exact .of_eq (held_insertPending hk c lid true o)

/-- The branch of `handle_client_message` keeps a request in hand. -/
theorem conserves_dispatch {maxRequestBytes : ℕ} {msg : Tagged Value} (hs : sh.Sound)
    (hmsg : Genuine sh.received c msg) {clients : List ℕ} (o : Occ) :
    Conserves (Live sh.received clients o) ([msg.occ].count o)
      (((dispatch enc maxRequestBytes msg).flatMap tags).count o) := by
  -- a request with this occurrence is the message itself
  have hself : ∀ {clients}, Live sh.received clients msg.occ → IsRequest msg.val := by
    rintro _ ⟨-, m, hm, hocc, hreq⟩
    rw [← hs.eq_of_occ_eq hm hmsg.1 hocc]
    exact hreq
  have hlost : ¬ IsRequest msg.val → ∀ ops : List ClientOp, ops.flatMap tags = [] →
      Conserves (Live sh.received clients o) ([msg.occ].count o) ((ops.flatMap tags).count o) := by
    intro hnot ops hops
    rw [hops]
    by_cases ho : msg.occ = o
    · subst ho
      exact .of_dead (fun hlive => hnot (hself hlive)) (Nat.zero_le _)
    · exact .of_eq (by simp [ho])
  have hd := dispatched enc maxRequestBytes msg
  generalize dispatch enc maxRequestBytes msg = ops at hd ⊢
  cases hd with
  | tooLarge | initRequest hmethod hid | request hmethod hdone hid => exact .of_eq rfl
  | initialized hmethod => exact hlost (fun h => h.2 hmethod) _ rfl
  | notification hlen hmethod hid =>
    refine hlost (fun h => ?_) _ rfl
    have hsome := h.1
    rw [hid] at hsome
    cases hsome

/-- **One operation of a handler loses no request**, and copies none. -/
theorem balanced_run (h : op.run enc c sh = some (sh', ops)) (hs : sh.Sound) (hk : sh.Keyed)
    (hop : op.Sound sh.received c) (o : Occ) : Balanced o sh op sh' ops := by
  cases op with
  | handleClientMessage msg =>
    cases h
    exact (conserves_dispatch hs hop o).add_left _
  | rejectTooLarge msg =>
    cases h
    exact ((conserves_reply sh rfl hop.2 o).imp And.left).congr rfl (Nat.add_zero _)
  | markServerInitialized msg =>
    obtain ⟨hq, rfl | rfl⟩ := quiet_markServerInitialized h <;> exact balanced_of_quiet hq rfl o
  | trySend msg =>
    obtain ⟨hq, rfl⟩ := quiet_trySend h
    exact balanced_of_quiet hq rfl o
  | completeHandshake =>
    cases h
    obtain ⟨hss, heq, hsome, hbuf⟩ := sh.st.markHandshakeComplete_spec c
    -- the buffer moves into the hands of the flush
    have hhands : ([flushBuffered (sh.st.bufferedMessages c), updateQueueDepth,
        publishStatus].flatMap tags) = sh.bufferedOccs c := by
      simp [tags, ownCall, flushing, Shared.bufferedOccs]
    refine .of_eq ?_
    rw [hhands, heq]
    simp only [Shared.held, Shared.answered, Shared.pendingOccs, Shared.waitingOccs,
      Shared.bufferedOccs, hbuf]
    split_ifs with hc
    · rw [hc]
      simp only [List.map_nil, List.count_nil, tags, ownCall, flushing, List.append_nil]
      omega
    · have hzero : (sh.bufferedOccs c).count o = 0 := by
        refine List.count_eq_zero.2 fun hmem => ?_
        obtain ⟨m, hm, rfl⟩ := List.mem_map.1 hmem
        exact hc (hs.buffered c m hm).1.2
      simp only [Shared.bufferedOccs] at hzero
      simp only [hzero, tags, ownCall, flushing, List.append_nil, List.count_nil]
  | flushBuffered buffered =>
    cases buffered with
    | nil => cases h; exact balanced_of_quiet (.refl sh) rfl o
    | cons msg buffered =>
      cases hr : runForwardRequest c msg sh with
      | mk sh₁ ops₁ =>
        rw [run, hr] at h
        cases h
        have hf := ((forwarded_of_run hr).conserves hk (hop msg (List.mem_cons_self ..)) o)
        refine ((hf.imp And.left).add_right ((buffered.map (·.occ)).count o)).congr ?_ ?_
        · simp only [tags, ownCall, flushing, List.nil_append, List.map_cons, List.count_cons,
            List.count_nil]
          omega
        · simp only [List.flatMap_append, List.count_append, List.flatMap_cons, List.flatMap_nil,
            tags, ownCall, flushing, List.nil_append, List.append_nil]
          omega
  | handleInitialize val lid =>
    rw [run, Option.some.injEq] at h
    have hq := quiet_initializePending sh c
    have hf := (initialized_of_run h).conserves (hk.shrinks hq.shrinks) (hq.received ▸ hop.1) o
    exact (hf.imp And.left).congr (by rw [hq.held]; rfl) rfl
  | checkHandshake msg =>
    simp only [run] at h
    split at h <;> cases h <;> exact balanced_of_quiet (.refl sh) rfl o
  | bufferMessage msg =>
    cases h
    obtain ⟨hss, heq, hsome, hbuf⟩ := sh.st.bufferMessage_spec c msg
    have hheld : ({ sh with st := sh.st.bufferMessage c msg } : Shared).held o = sh.held o +
        if o.client = c ∧ (sh.st.clientHandshakes.get c).isSome then [msg.occ].count o else 0 := by
      rw [heq]
      simp only [Shared.held, Shared.answered, Shared.pendingOccs, Shared.waitingOccs,
        Shared.bufferedOccs, hbuf]
      split_ifs
      · simp only [List.map_append, List.count_append, List.map_cons, List.map_nil]
        omega
      · rfl
    have hocc : o.client ≠ c → [msg.occ].count o = 0 := by
      intro hne
      refine List.count_eq_zero.2 fun hmem => hne ?_
      rw [List.mem_singleton.1 hmem]
      exact hop.1.2
    rw [Balanced, hheld]
    split_ifs with hc
    · exact .of_eq (by simp [tags, ownCall, flushing])
    · by_cases hclient : o.client = c
      · refine .of_dead (fun hlive => hc ⟨hclient, ?_⟩) (by simp)
        have hreg : o.client ∈ (sh.st.bufferMessage c msg).clients := hlive.1
        rw [heq] at hreg
        exact (hs.handshake c).1 (hclient ▸ hreg)
      · refine .of_eq ?_
        simp [tags, ownCall, flushing, hocc hclient]
  | forwardRequest msg =>
    rw [run, Option.some.injEq] at h
    exact (((forwarded_of_run h).conserves hk hop o).imp And.left)
  | send msg isInitialize =>
    obtain ⟨hq, rfl | rfl⟩ := quiet_send h <;> exact balanced_of_quiet hq rfl o
  | rejectHandshakeTimeout =>
    cases h
    refine .of_eq ?_
    rw [Shared.reply, held_replyAll_of_none sh (by simp)]
    rfl
  | unregisterClient =>
    cases h
    exact (conserves_unregister hs c o).imp And.left
  | updateQueueDepth => cases h; exact balanced_of_quiet (still_updateQueueDepth sh).toQuiet rfl o
  | publishStatus => cases h; exact balanced_of_quiet (still_publishStatus sh).toQuiet rfl o
  | releasePermit => cases h; exact balanced_of_quiet (.of_st_eq rfl rfl rfl rfl) rfl o

end ClientOp

/-! ## The router -/

namespace RouterOp

variable {order : List String} {op : RouterOp} {ops : List RouterOp}

/-- What an operation of the router conserves. -/
def Balanced (o : Occ) (sh : Shared) (op : RouterOp) (sh' : Shared) (ops : List RouterOp) : Prop :=
  Conserves (o.client ∈ sh'.st.clients) (sh.held o + op.routing.count o)
    (sh'.held o + (ops.flatMap routing).count o)

/-- The entry of a response moves into the router's hands. -/
theorem balanced_takePending {msg : Value} {id : String}
    (h : (takePending msg id).run order sh = some (sh', ops)) (o : Occ) :
    Balanced o sh (takePending msg id) sh' ops := by
  simp only [run] at h
  split at h
  · cases h; exact .of_eq rfl
  · rename_i p hp
    cases h
    have hperm := ((HashMap.values_remove hp).map fun p => p.localId.occ).count_eq o
    have hhands : (((if p.isInitialize then [cacheInitialize msg p] else []) ++
        [findTarget msg p]).flatMap routing) = [p.localId.occ] := by
      cases p.isInitialize <;> rfl
    refine .of_eq ?_
    rw [hhands]
    simp only [Shared.held, Shared.answered, Shared.pendingOccs, Shared.waitingOccs,
      Shared.bufferedOccs, MuxState.bufferedMessages, routing, List.count_nil]
    rw [hperm, List.map_cons, List.count_cons, List.count_cons, List.count_nil]
    omega

/-- The waiters of an `initialize` move to their clients' channels. -/
theorem balanced_cacheInitialize (hs : sh.Sound) (msg : Value) (p : Pending) (o : Occ) :
    Balanced o sh (cacheInitialize msg p) (runCacheInitialize msg p sh) [] := by
  refine (conserves_replyAll (storeInitialize msg sh) ?_ o).congr ?_ (Nat.add_zero _)
  · intro d hd o' ho'
    obtain ⟨w, hw, rfl⟩ := List.mem_map.1 hd
    cases ho'
    exact (hs.initWaiting w hw).client_eq
  · have hans : (waiterReplies msg p sh.st.initWaiting).filterMap (·.answers) =
        sh.waitingOccs := answers_map (fun _ => rfl) _
    rw [hans]
    simp only [Shared.held, Shared.answered, Shared.pendingOccs, Shared.waitingOccs,
      Shared.bufferedOccs, MuxState.bufferedMessages, routing, List.count_nil, List.map_nil,
      storeInitialize]
    omega

/-- Everything pending and everything waiting is answered by a reset. -/
theorem balanced_resetState (hs : sh.Sound) (reason : String)
    (horder : order.Perm sh.st.pending.keys) (o : Occ) :
    Balanced o sh (resetState reason) (runResetState reason order sh) [] := by
  refine (conserves_replyAll (clearState reason sh) ?_ o).congr ?_ (Nat.add_zero _)
  · intro d hd o' ho'
    rcases List.mem_append.1 hd with hd | hd
    · obtain ⟨p, hp, rfl⟩ := List.mem_map.1 hd
      cases ho'
      exact (hs.pending p (HashMap.mem_values_of_mem_valuesIn hp)).client_eq
    · obtain ⟨w, hw, rfl⟩ := List.mem_map.1 hd
      cases ho'
      exact (hs.initWaiting w hw).client_eq
  · have hans : (resetReplies reason (sh.st.pending.valuesIn order)
        sh.st.initWaiting).filterMap (·.answers) =
        (sh.st.pending.valuesIn order).map (·.localId.occ) ++ sh.waitingOccs := by
      rw [resetReplies, List.filterMap_append]
      exact congrArg₂ _ (answers_map (fun _ => rfl) _) (answers_map (fun _ => rfl) _)
    have hperm := ((HashMap.valuesIn_perm horder).map fun p => p.localId.occ).count_eq o
    rw [hans, List.count_append, hperm]
    simp only [Shared.held, Shared.answered, Shared.pendingOccs, Shared.waitingOccs,
      Shared.bufferedOccs, MuxState.bufferedMessages, routing, List.count_nil, List.map_nil,
      HashMap.values_empty, clearState]
    omega

/-- **One operation of the router loses no request**, and copies none. -/
theorem balanced_run (h : op.run order sh = some (sh', ops)) (hs : sh.Sound)
    (hop : op.Sound sh.received) (o : Occ) : Balanced o sh op sh' ops := by
  cases op with
  | broadcast msg =>
    cases h
    refine .of_eq ?_
    rw [held_replyAll_of_none sh (by simp)]
    rfl
  | takePending msg id => exact balanced_takePending h o
  | cacheInitialize msg p => cases h; exact balanced_cacheInitialize hs msg p o
  | findTarget msg p =>
    simp only [run] at h
    split at h <;> cases h
    · exact .of_eq rfl
    · rename_i hreg
      -- the request's client is gone
      by_cases ho : p.localId.occ = o
      · refine .of_dead (fun hc => hreg ?_) (by simp [routing])
        rwa [← hop.2.client_eq, ho]
      · exact .of_eq (by simp [routing, ho])
  | sendTarget msg p =>
    cases h
    have hans : [(⟨p.clientId, setId msg p.localId.val, some p.localId.occ,
        .child msg (addressee p)⟩ : Delivery)].filterMap (·.answers) = [p.localId.occ] := rfl
    refine .of_eq ?_
    simp only [Shared.held, Shared.answered, Shared.pendingOccs, Shared.waitingOccs,
      Shared.bufferedOccs, routing, List.filterMap_append, List.count_append, List.flatMap_nil,
      List.count_nil, hans]
    omega
  | resetState reason =>
    simp only [run] at h
    split at h
    · rename_i horder
      cases h
      exact balanced_resetState hs reason horder o
    · cases h
  | publishStatus => cases h; exact .of_eq (by rw [(still_publishStatus sh).held]; rfl)

end RouterOp

/-! ## The reaper -/

namespace ReaperOp

variable {order : List String} {op : ReaperOp} {ops : List ReaperOp}

/-- What an operation of the reaper conserves. -/
def Balanced (o : Occ) (sh : Shared) (op : ReaperOp) (sh' : Shared) (ops : List ReaperOp) : Prop :=
  Conserves (o.client ∈ sh'.st.clients) (sh.held o + op.batch.count o)
    (sh'.held o + (ops.flatMap batch).count o)

/-- The expired entries move into the batch. -/
theorem balanced_reap (timeout : ℕ) (horder : order.Perm sh.st.pending.keys) (o : Occ) :
    Balanced o sh (reap timeout) (runReap timeout order sh).1 (runReap timeout order sh).2 := by
  set expired := (sh.st.pending.valuesIn order).filter (isExpired sh.now timeout) with hexp
  have hhands : ((runReap timeout order sh).2.flatMap batch) = expired.map (·.localId.occ) := by
    simp only [runReap, ← hexp]
    cases expired with
    | nil => rfl
    | cons p ps => simp [batch]
  have hpending : (runReap timeout order sh).1.pendingOccs =
      (sh.st.pending.values.filter fun p => !isExpired sh.now timeout p).map
        (·.localId.occ) := by
    rw [Shared.pendingOccs, ← HashMap.values_retain]
    rfl
  have hsplit : (sh.st.pending.values.map (·.localId.occ)).count o =
      (expired.map (·.localId.occ)).count o +
        ((sh.st.pending.values.filter fun p => !isExpired sh.now timeout p).map
          (·.localId.occ)).count o := by
    rw [← List.count_append, ← List.map_append]
    refine (List.Perm.map _ ?_).count_eq o
    exact (List.filter_append_perm _ _).symm.trans
      (((HashMap.valuesIn_perm horder).symm.filter _).append_right _)
  refine .of_eq ?_
  simp only [Shared.held, hpending, hhands]
  simp only [Shared.answered, Shared.pendingOccs, Shared.waitingOccs, Shared.bufferedOccs,
    MuxState.bufferedMessages, batch, List.count_nil, runReap, hsplit]
  omega

/-- **One operation of the reaper loses no request**, and copies none. -/
theorem balanced_run (h : op.run order sh = some (sh', ops)) (hop : op.Sound sh.received)
    (o : Occ) : Balanced o sh op sh' ops := by
  cases op with
  | readTimeout => cases h; exact .of_eq rfl
  | reap timeout =>
    simp only [run] at h
    split at h
    · rename_i horder
      rw [Option.some.injEq] at h
      have hb := balanced_reap timeout horder o
      rwa [h] at hb
    · cases h
  | replyExpired expired =>
    cases h
    rw [Balanced]
    refine (conserves_replyAll sh ?_ o).congr ?_ (Nat.add_zero _)
    · intro d hd o' ho'
      obtain ⟨e, he, rfl⟩ := List.mem_map.1 hd
      cases ho'
      exact (hop e he).client_eq
    · have hans : (expired.map fun e => Shared.errorReply e.2 "request timeout" e.1).filterMap
          (·.answers) = expired.map (·.2.occ) := answers_map (fun _ => rfl) _
      rw [hans]
      rfl
  | publishStatus => cases h; exact .of_eq (by rw [(still_publishStatus sh).held]; rfl)

end ReaperOp

end Mux

end VcOperator
