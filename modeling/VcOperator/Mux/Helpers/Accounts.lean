import VcOperator.Mux.Helpers.Ledger
/-!
# Every request is accounted for

The ledger of the operations, put together: `System.places` counts a
request over all places, the handling of it included. A step that
receives no frame conserves the count; a frame received starts at one.
So no request is ever in two places, and one of a registered client is
in one.
-/

namespace VcOperator

namespace Mux

variable {cfg : Config} {ok : System → Label → Prop} {s s' : System} {sh sh' : Shared}
  {c : ℕ} {o : Occ}

/-- What a handler of client `c` has in its hands was received from `c`. -/
theorem ClientOp.received_of_mem_tags {rec : List (Tagged Value)} {op : ClientOp}
    (h : op.Sound rec c) (ho : o ∈ op.tags) : (∃ msg ∈ rec, msg.occ = o) ∧ o.client = c := by
  cases op with
  | handleClientMessage msg | rejectTooLarge msg =>
    rw [List.mem_singleton.1 (show o ∈ [msg.occ] from ho)]
    exact ⟨⟨msg, h.1, rfl⟩, h.2⟩
  | checkHandshake msg | bufferMessage msg | forwardRequest msg =>
    rw [List.mem_singleton.1 (show o ∈ [msg.occ] from ho)]
    exact ⟨⟨msg, h.1.1, rfl⟩, h.1.2⟩
  | flushBuffered buffered =>
    obtain ⟨msg, hmsg, rfl⟩ := List.mem_map.1 (show o ∈ buffered.map (·.occ) from ho)
    exact ⟨⟨msg, (h msg hmsg).1.1, rfl⟩, (h msg hmsg).1.2⟩
  | handleInitialize val lid =>
    rw [List.mem_singleton.1 (show o ∈ [lid.occ] from ho)]
    obtain ⟨msg, hmsg, hocc, -⟩ := h.1
    exact ⟨⟨msg, hmsg.1, hocc⟩, hocc ▸ hmsg.2⟩
  | markServerInitialized _ | trySend _ | completeHandshake | send _ _ | updateQueueDepth
  | publishStatus | rejectHandshakeTimeout | unregisterClient | releasePermit => cases ho

theorem GenuineId.received {rec : List (Tagged Value)} {lid : Tagged Value}
    (h : GenuineId rec c lid) : ∃ msg ∈ rec, msg.occ = lid.occ := by
  obtain ⟨msg, hmsg, hocc, -⟩ := h
  exact ⟨msg, hmsg.1, hocc⟩

/-- The number of places a request is in, the handling of it included. -/
def System.places (s : System) (o : Occ) : ℕ :=
  s.shared.held o + ((s.handlers o.client).flatMap ClientOp.tags).count o +
    (s.router.flatMap RouterOp.routing).count o + (s.reaper.flatMap ReaperOp.batch).count o

/-- Nobody has a request that was not received. -/
theorem System.Sound.places_eq_zero (hs : s.Sound)
    (ho : ∀ msg ∈ s.shared.received, msg.occ ≠ o) : s.places o = 0 := by
  have hnot : ¬ ∃ msg ∈ s.shared.received, msg.occ = o := fun ⟨msg, hm, hocc⟩ => ho msg hm hocc
  have hanswered : s.shared.answered.count o = 0 := by
    refine List.count_eq_zero.2 fun hmem => hnot ?_
    obtain ⟨d, hd, hans⟩ := List.mem_filterMap.1 hmem
    have hsound := hs.shared.sent d hd
    unfold Delivery.Sound at hsound
    rw [hans] at hsound
    obtain ⟨msg, hmsg, hocc, -⟩ := hsound
    exact ⟨msg, hmsg.1, hocc⟩
  have hpending : s.shared.pendingOccs.count o = 0 := by
    refine List.count_eq_zero.2 fun hmem => hnot ?_
    obtain ⟨p, hp, rfl⟩ := List.mem_map.1 hmem
    exact (hs.shared.pending p hp).received
  have hwaiting : s.shared.waitingOccs.count o = 0 := by
    refine List.count_eq_zero.2 fun hmem => hnot ?_
    obtain ⟨w, hw, rfl⟩ := List.mem_map.1 hmem
    exact (hs.shared.initWaiting w hw).received
  have hbuffered : (s.shared.bufferedOccs o.client).count o = 0 := by
    refine List.count_eq_zero.2 fun hmem => hnot ?_
    obtain ⟨msg, hmsg, hocc⟩ := List.mem_map.1 hmem
    exact ⟨msg, (hs.shared.buffered o.client msg hmsg).1.1, hocc⟩
  have hhandler : ((s.handlers o.client).flatMap ClientOp.tags).count o = 0 := by
    refine List.count_eq_zero.2 fun hmem => hnot ?_
    obtain ⟨op, hop, ho'⟩ := List.mem_flatMap.1 hmem
    exact (ClientOp.received_of_mem_tags (hs.handlers _ op hop) ho').1
  have hrouter : (s.router.flatMap RouterOp.routing).count o = 0 := by
    refine List.count_eq_zero.2 fun hmem => hnot ?_
    obtain ⟨op, hop, ho'⟩ := List.mem_flatMap.1 hmem
    have hsound := hs.router op hop
    cases op with
    | findTarget msg p | sendTarget msg p =>
      rw [List.mem_singleton.1 (show o ∈ [p.localId.occ] from ho')]
      exact hsound.2.received
    | broadcast _ | takePending _ _ | cacheInitialize _ _ | resetState _ | publishStatus =>
      cases ho'
  have hreaper : (s.reaper.flatMap ReaperOp.batch).count o = 0 := by
    refine List.count_eq_zero.2 fun hmem => hnot ?_
    obtain ⟨op, hop, ho'⟩ := List.mem_flatMap.1 hmem
    have hsound := hs.reaper op hop
    cases op with
    | replyExpired expired =>
      obtain ⟨e, he, rfl⟩ := List.mem_map.1 (show o ∈ expired.map (·.2.occ) from ho')
      exact (hsound e he).received
    | readTimeout | reap _ | publishStatus => cases ho'
  simp only [System.places, Shared.held, hanswered, hpending, hwaiting, hbuffered, hhandler,
    hrouter, hreaper]

/-- A handler's operation conserves the places of every request, its own
client's and the others'. -/
theorem conserves_handler {op : ClientOp} {rest ops : List ClientOp} {sh : Shared}
    (hops : s.handlers c = op :: rest)
    (hrun : op.run cfg.encodedLen c s.shared = some (sh, ops)) (hs : s.Sound)
    (hk : s.shared.Keyed) (o : Occ) :
    Conserves (Live s.shared.received sh.st.clients o) (s.places o)
      (({ s with
          shared := sh
          handlers := Function.update s.handlers c (ops ++ rest) } : System).places o) := by
  have hop : op.Sound s.shared.received c := hs.handlers c op (by simp [hops])
  have hb := ClientOp.balanced_run hrun hs.shared hk hop o
  rw [ClientOp.Balanced] at hb
  have hkeeps := ClientOp.keeps_run hrun hs.shared hop
  by_cases hc : o.client = c
  · refine (hb.add_right ((rest.flatMap ClientOp.tags).count o +
      (s.router.flatMap RouterOp.routing).count o +
      (s.reaper.flatMap ReaperOp.batch).count o)).congr ?_ ?_
    · simp only [System.places, hc, hops, List.flatMap_cons, List.count_append]
      omega
    · simp only [System.places, hc, Function.update_self, List.flatMap_append, List.count_append]
      omega
  · -- neither the operation nor what it goes on with has another client's request
    have hzero : op.tags.count o = 0 := List.count_eq_zero.2 fun hmem =>
      hc (ClientOp.received_of_mem_tags hop hmem).2
    have hzero' : (ops.flatMap ClientOp.tags).count o = 0 := by
      refine List.count_eq_zero.2 fun hmem => ?_
      obtain ⟨op', hop', ho'⟩ := List.mem_flatMap.1 hmem
      exact hc (ClientOp.received_of_mem_tags (hkeeps.ops op' hop') ho').2
    rw [hzero, hzero'] at hb
    refine (hb.add_right (((s.handlers o.client).flatMap ClientOp.tags).count o +
      (s.router.flatMap RouterOp.routing).count o +
      (s.reaper.flatMap ReaperOp.batch).count o)).congr ?_ ?_
    · simp only [System.places]
      omega
    · simp only [System.places, Function.update_of_ne hc]
      omega

/-- **A step that receives no frame conserves the places of every request.** -/
theorem Routed.conserves (h : Routed cfg s s') (hs : s.Sound) (hk : s.shared.Keyed)
    (hrec : s'.shared.received = s.shared.received) (o : Occ)
    (ho : ∃ msg ∈ s.shared.received, msg.occ = o) :
    Conserves (Live s.shared.received s'.shared.st.clients o) (s.places o) (s'.places o) := by
  cases h with
  | connect =>
    -- no request is known of the client that connects
    have hne : o.client ≠ s.shared.st.nextClientId := by
      obtain ⟨msg, hm, rfl⟩ := ho
      exact Nat.ne_of_lt (hs.shared.known msg hm)
    have hbuf : s.connect.shared.st.bufferedMessages o.client =
        s.shared.st.bufferedMessages o.client := by
      rw [show s.connect.shared.st.bufferedMessages o.client = _ from
        MuxState.bufferedMessages_registerClient s.shared.st s.shared.now o.client, if_neg hne]
    refine .of_eq ?_
    simp only [System.places, Shared.held, Shared.bufferedOccs, hbuf, System.connect_handlers,
      Function.update_of_ne hne]
    rfl
  | receive hreads hidle => simp [System.receive] at hrec
  | @endReader c ops hidle hops =>
    have hnil : ops.flatMap ClientOp.tags = [] := List.flatMap_eq_nil_iff.2 fun op hop => by
      rcases hops op hop with rfl | rfl | rfl | rfl <;> rfl
    refine .of_eq ?_
    simp only [System.places, System.endReader_handlers]
    rcases eq_or_ne o.client c with hc | hc
    · simp only [hc, Function.update_self, hnil, hidle, List.flatMap_nil]
      rfl
    · simp only [Function.update_of_ne hc]
      rfl
  | writerFails => exact .of_eq rfl
  | handler hops hrun => exact conserves_handler hops hrun hs hk o
  | @writer c op rest ops sh hops hrun =>
    have hw := hs.writers c op (by simp [hops])
    have hb := ClientOp.balanced_run hrun hs.shared hk (ClientOp.sound_of_writer hw) o
    have htags : op.tags = [] := by rcases hw with rfl | rfl <;> rfl
    rw [ClientOp.Balanced, htags, ClientOp.ops_of_writer hrun hw] at hb
    refine (hb.add_right (((s.handlers o.client).flatMap ClientOp.tags).count o +
      (s.router.flatMap RouterOp.routing).count o +
      (s.reaper.flatMap ReaperOp.batch).count o)).congr ?_ ?_ <;>
    · simp only [System.places, List.flatMap_nil, List.count_nil]
      omega
  | routerTurn hidle hstill hops =>
    refine .of_eq ?_
    have hnil : ∀ msg, (RouterOp.handleServerMessage msg).flatMap RouterOp.routing = [] := by
      intro msg
      simp only [RouterOp.handleServerMessage]
      split
      · rfl
      · split
        · rfl
        · split <;> rfl
    simp only [System.places, hidle, hstill.held]
    rcases hops with rfl | ⟨msg, rfl⟩ | ⟨reason, rfl⟩
    · rfl
    · rw [hnil]
      rfl
    · rfl
  | @router order op rest ops sh hops hrun =>
    have hb := RouterOp.balanced_run hrun hs.shared (hs.router op (by simp [hops])) o
    refine ((hb.imp And.left).add_right (((s.handlers o.client).flatMap ClientOp.tags).count o +
      (rest.flatMap RouterOp.routing).count o +
      (s.reaper.flatMap ReaperOp.batch).count o)).congr ?_ ?_
    · simp only [System.places, hops, List.flatMap_cons, List.count_append]
      omega
    · simp only [System.places, List.flatMap_append, List.count_append]
      omega
  | reaperTick hidle => exact .of_eq (by simp only [System.places, hidle]; rfl)
  | @reaper order op rest ops sh hops hrun =>
    have hb := ReaperOp.balanced_run hrun (hs.reaper op (by simp [hops])) o
    refine ((hb.imp And.left).add_right (((s.handlers o.client).flatMap ClientOp.tags).count o +
      (s.router.flatMap RouterOp.routing).count o +
      (rest.flatMap ReaperOp.batch).count o)).congr ?_ ?_
    · simp only [System.places, hops, List.flatMap_cons, List.count_append]
      omega
    · simp only [System.places, List.flatMap_append, List.count_append]
      omega
  | still hstill hreaders hhandlers hcurrent hwriters hrouter hreaper =>
    exact .of_eq (by simp only [System.places, hstill.held, hhandlers, hrouter, hreaper])

/-! ## The invariant -/

/-- A frame that is received starts in the hands of its handler. -/
theorem System.places_receive (hidle : s.handlers c = []) (msg : Value) (o : Occ) :
    (s.receive c msg).places o =
      s.places o + if (⟨c, s.shared.received.length⟩ : Occ) = o then 1 else 0 := by
  have hheld : (s.receive c msg).shared.held o = s.shared.held o := rfl
  have hhands : ((s.receive c msg).handlers o.client).flatMap ClientOp.tags =
      if o.client = c then [⟨c, s.shared.received.length⟩]
      else (s.handlers o.client).flatMap ClientOp.tags := by
    split_ifs with hc
    · subst hc
      simp [System.receive, ClientOp.tags, ClientOp.ownCall, ClientOp.flushing]
    · simp [System.receive, Function.update_of_ne hc]
  have hrest : (s.receive c msg).router = s.router ∧ (s.receive c msg).reaper = s.reaper :=
    ⟨rfl, rfl⟩
  rw [System.places, hheld, hhands, hrest.1, hrest.2, System.places]
  by_cases hc : o.client = c
  · rw [if_pos hc, hc, hidle, List.count_cons]
    simp only [List.flatMap_nil, List.count_nil, beq_iff_eq]
    omega
  · have hne : (⟨c, s.shared.received.length⟩ : Occ) ≠ o := by
      rintro rfl
      exact hc rfl
    simp only [if_neg hc, if_neg hne]
    omega

/-- **The accounts of a mux.** -/
structure System.Accounted (s : System) : Prop where
  /-- No request is in two places. -/
  le_one : ∀ o, s.places o ≤ 1
  /-- A request of a registered client is in one. -/
  kept : ∀ msg ∈ s.shared.received, IsRequest msg.val →
    msg.occ.client ∈ s.shared.st.clients → s.places msg.occ = 1

/-- What a step receives: nothing, or one frame. -/
theorem Routed.received (h : Routed cfg s s') (hs : s.Sound) :
    s'.shared.received = s.shared.received ∨
      ∃ c msg, (s.readers c = true ∧ s.handlers c = []) ∧ s' = s.receive c msg := by
  rcases h.record hs with rfl | hreceive | hrecord
  · exact .inl rfl
  · exact .inr hreceive
  · exact .inl hrecord.received

/-- A registered client a step leaves registered was registered, unless it
is the one that connects. -/
theorem Routed.registered (h : Routed cfg s s') (hs : s.Sound) (hc : c ∈ s'.shared.st.clients)
    (hlt : c < s.shared.st.nextClientId) : c ∈ s.shared.st.clients := by
  rcases h.record hs with rfl | ⟨_, _, -, rfl⟩ | hrecord
  · rcases List.mem_insert_iff.1 hc with rfl | hc
    · exact absurd hlt (Nat.lt_irrefl _)
    · exact hc
  · exact hc
  · exact hrecord.clients hc

/-- **Each step keeps the accounts.** -/
theorem Routed.accounted (h : Routed cfg s s') (hs : s.Sound) (hk : s.shared.Keyed)
    (ha : s.Accounted) : s'.Accounted := by
  rcases h.received hs with hrec | ⟨c, msg, ⟨-, hidle⟩, rfl⟩
  · refine ⟨fun o => ?_, fun msg hm hreq hc => ?_⟩
    · by_cases ho : ∃ msg ∈ s.shared.received, msg.occ = o
      · exact Nat.le_trans (h.conserves hs hk hrec o ho).le (ha.le_one o)
      · rw [(h.sound hs).places_eq_zero fun msg hm hocc => ho ⟨msg, hrec ▸ hm, hocc⟩]
        exact Nat.zero_le 1
    · rw [hrec] at hm
      have hlive : Live s.shared.received s'.shared.st.clients msg.occ :=
        ⟨hc, msg, hm, rfl, hreq⟩
      rw [(h.conserves hs hk hrec msg.occ ⟨msg, hm, rfl⟩).eq hlive]
      exact ha.kept msg hm hreq (h.registered hs hc (hs.shared.known msg hm))
  · -- the new frame is in no place yet, and the others stay where they are
    have hfresh : s.places ⟨c, s.shared.received.length⟩ = 0 := by
      refine hs.places_eq_zero fun m hm hocc => ?_
      have hlt := hs.shared.seq_lt hm
      rw [hocc] at hlt
      exact Nat.lt_irrefl _ hlt
    refine ⟨fun o => ?_, fun m hm hreq hc => ?_⟩
    · rw [System.places_receive hidle]
      split_ifs with ho
      · rw [← ho, hfresh]
      · exact ha.le_one o
    · rw [System.places_receive hidle]
      rcases List.mem_append.1 hm with hm | hm
      · have hne : (⟨c, s.shared.received.length⟩ : Occ) ≠ m.occ := fun ho => by
          have hlt := hs.shared.seq_lt hm
          rw [← ho] at hlt
          exact Nat.lt_irrefl _ hlt
        rw [if_neg hne, ha.kept m hm hreq hc]
      · rw [List.mem_singleton.1 hm, if_pos rfl, hfresh]

theorem accounted_init (cfg : Config) : (System.init cfg).Accounted where
  le_one := fun o => by
    rw [(sound_init cfg).places_eq_zero fun msg hm => by cases hm]
    exact Nat.zero_le 1
  kept := fun msg hm => by cases hm

/-- **In every reachable state the accounts are in order.** -/
theorem Reachable.accounted (h : Reachable cfg ok s) : s.Accounted :=
  Run.Reach.invariant_of (I := System.Accounted) (J := fun s => s.Sound ∧ s.shared.Keyed)
    (fun _ hr => ⟨Reachable.sound hr, Reachable.keyed hr⟩) (accounted_init cfg)
    (fun _ _ _ _ hJ ha hstep => (routed_of_step hstep).accounted hJ.1 hJ.2 ha) h

/-! ## Whose handling it is -/

/-- An operation goes on with the handling of its own frame only. -/
theorem ClientOp.ownCall_subset {enc : Value → ℕ} {op op' : ClientOp} {ops : List ClientOp}
    (h : op.run enc c sh = some (sh', ops)) (hop' : op' ∈ ops) : op'.ownCall ⊆ op.ownCall := by
  cases goesOn_of_run h hop' <;> simp [ownCall]

/-- **A handler handles the frame that was received last.** -/
def System.Current (s : System) : Prop :=
  ∀ c, ∀ op ∈ s.handlers c, ∀ o ∈ op.ownCall, s.current c = some o

theorem Routed.current (h : Routed cfg s s') (hcur : s.Current) : s'.Current := by
  cases h with
  | connect => exact forall_mem_update hcur (by simp [ClientOp.ownCall])
  | @receive c msg hreads hidle =>
    intro c' op hop o ho
    rcases eq_or_ne c' c with rfl | hne
    · simp only [System.receive, Function.update_self, List.mem_singleton] at hop ⊢
      rw [hop] at ho
      rw [List.mem_singleton.1 (show o ∈ [(⟨c', s.shared.received.length⟩ : Occ)] from ho)]
    · simp only [System.receive, Function.update_of_ne hne] at hop ⊢
      exact hcur c' op hop o ho
  | @endReader c ops hidle hops =>
    intro c' op hop o ho
    rcases eq_or_ne c' c with rfl | hne
    · simp only [System.endReader, Function.update_self] at hop
      rcases hops op hop with rfl | rfl | rfl | rfl <;> cases ho
    · simp only [System.endReader, Function.update_of_ne hne] at hop ⊢
      exact hcur c' op hop o ho
  | @handler c op rest ops sh hops hrun =>
    refine forall_mem_update hcur fun op' hop' o ho => ?_
    rcases List.mem_append.1 hop' with hop' | hop'
    · exact hcur c op (by simp [hops]) o (ClientOp.ownCall_subset hrun hop' ho)
    · exact hcur c op' (by simp [hops, hop']) o ho
  | writerFails | writer _ _ | routerTurn _ _ _ | router _ _ | reaperTick _ | reaper _ _ =>
    exact hcur
  | still hstill hreaders hhandlers hcurrent =>
    intro c op hop
    rw [hcurrent]
    exact hcur c op (hhandlers ▸ hop)

theorem Reachable.current (h : Reachable cfg ok s) : s.Current :=
  Run.Reach.invariant (I := System.Current) (fun c op hop => by cases hop)
    (fun _ _ _ _ hcur hstep => (routed_of_step hstep).current hcur) h

end Mux

end VcOperator
