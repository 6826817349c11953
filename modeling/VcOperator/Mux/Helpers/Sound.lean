import VcOperator.Mux.Helpers.Genuine
/-!
# Genuine in every reachable state

One operation of a handler, of the router or of the reaper keeps
`Shared.Sound`, and what it goes on with is genuine again. `System.Sound`
follows for every reachable state, by the invariant rule.
-/

namespace VcOperator

namespace Mux

variable {rec : List (Tagged Value)} {c : ℕ} {sh sh' : Shared}

/-- What an operation keeps: the frames received, what was sent, and
soundness. Nor does it register a client. -/
structure Keeps {α : Type} (Sound : List (Tagged Value) → α → Prop) (sh sh' : Shared)
    (ops : List α) : Prop where
  received : sh'.received = sh.received
  nextClientId : sh'.st.nextClientId = sh.st.nextClientId
  clients : sh'.st.clients ⊆ sh.st.clients
  sent : sh.sent <+: sh'.sent
  sound : sh'.Sound
  ops : ∀ op ∈ ops, Sound sh.received op

theorem Keeps.of_quiet {α : Type} {Sound : List (Tagged Value) → α → Prop} {ops : List α}
    (hs : sh.Sound) (hq : Quiet sh sh') (hops : ∀ op ∈ ops, Sound sh.received op) :
    Keeps Sound sh sh' ops :=
  ⟨hq.received, hq.nextClientId, hq.clients ▸ List.Subset.refl _,
    hq.sent ▸ List.prefix_rfl, hs.quiet hq, hops⟩

/-! ## The handlers -/

namespace ClientOp

variable {enc : Value → ℕ} {op : ClientOp} {ops : List ClientOp}

theorem Forwarded.keeps {msg : Tagged Value} (h : Forwarded c msg sh sh' ops) (hs : sh.Sound)
    (hmsg : GenuineRequest sh.received c msg) :
    Keeps (fun rec => ClientOp.Sound rec c) sh sh' ops := by
  cases h with
  | noId hid => exact .of_quiet hs (.refl sh) (by simp)
  | refused hid =>
    exact ⟨rfl, rfl, .refl _, List.prefix_append ..,
      hs.reply (sound_errorReply (hmsg.genuineId hid) _), by simp⟩
  | forwarded hid =>
    exact ⟨rfl, rfl, .refl _, List.prefix_rfl, hs.insertPending (hmsg.genuineId hid) _,
      by simp [ClientOp.Sound]⟩

theorem Initialized.keeps {val : Value} {lid : Tagged Value}
    (h : Initialized c val lid sh sh' ops) (hs : sh.Sound)
    (hlid : GenuineId sh.received c lid) :
    Keeps (fun rec => ClientOp.Sound rec c) sh sh' ops := by
  cases h with
  | cached hcached =>
    exact ⟨rfl, rfl, .refl _, List.prefix_append ..,
      hs.reply (sound_setId hlid (hs.cached _ hcached) _), by simp⟩
  | parked hcached hinit =>
    refine ⟨rfl, rfl, .refl _, List.prefix_rfl, { hs with initWaiting := fun w hw => ?_ }, by simp⟩
    rcases List.mem_append.1 hw with hw | hw
    · exact hs.initWaiting w hw
    · rw [List.mem_singleton.1 hw]
      exact hlid
  | refused hcached hinit =>
    exact ⟨rfl, rfl, .refl _, List.prefix_append .., hs.reply (sound_errorReply hlid _), by simp⟩
  | forwarded hcached hinit =>
    exact ⟨rfl, rfl, .refl _, List.prefix_rfl, hs.insertPending hlid _, by simp [ClientOp.Sound]⟩

/-- **One operation of a handler keeps what is genuine.** -/
theorem keeps_run (h : op.run enc c sh = some (sh', ops)) (hs : sh.Sound)
    (hop : op.Sound sh.received c) : Keeps (fun rec => ClientOp.Sound rec c) sh sh' ops := by
  cases op with
  | handleClientMessage msg =>
    cases h
    have hd := dispatched enc sh.st.maxRequestBytes msg
    generalize dispatch enc sh.st.maxRequestBytes msg = ops at hd
    refine .of_quiet hs (.refl sh) fun op' hop' => ?_
    cases hd with
    | tooLarge => rw [List.mem_singleton.1 hop']; exact hop
    | initialized hmethod => rw [List.mem_singleton.1 hop']; trivial
    | notification hlen hmethod hid =>
      simp only [List.mem_cons, List.not_mem_nil, or_false] at hop'
      rcases hop' with rfl | rfl | rfl <;> trivial
    | initRequest hmethod hid =>
      have hreq : GenuineRequest sh.received c msg := ⟨hop, by rw [hid]; rfl⟩
      rw [List.mem_singleton.1 hop']
      exact ⟨hreq.genuineId hid, hreq.2⟩
    | request hmethod hdone hid =>
      rw [List.mem_singleton.1 hop']
      exact ⟨hop, by rw [hid]; rfl⟩
  | rejectTooLarge msg =>
    cases h
    exact ⟨rfl, rfl, .refl _, List.prefix_append ..,
      hs.reply ⟨msg, hop, rfl, get_id_errorResponse _ _⟩, by simp⟩
  | markServerInitialized msg =>
    obtain ⟨hq, rfl | rfl⟩ := quiet_markServerInitialized h <;>
      exact .of_quiet hs hq (by simp [ClientOp.Sound])
  | trySend msg =>
    obtain ⟨hq, rfl⟩ := quiet_trySend h
    exact .of_quiet hs hq (by simp)
  | completeHandshake =>
    cases h
    obtain ⟨hss, heq, hsome, hbuf⟩ := sh.st.markHandshakeComplete_spec c
    refine ⟨rfl, by rw [heq], by rw [heq]; exact .refl _, List.prefix_rfl, ?_, ?_⟩
    · rw [heq]
      refine { hs with
        handshake := fun c' => by rw [hsome]; exact hs.handshake c'
        buffered := fun c' m hm => ?_ }
      rw [hbuf] at hm
      split_ifs at hm
      · cases hm
      · exact hs.buffered c' m hm
    · intro op' hop'
      simp only [List.mem_cons, List.not_mem_nil, or_false] at hop'
      rcases hop' with rfl | rfl | rfl
      · exact hs.buffered c
      · trivial
      · trivial
  | flushBuffered buffered =>
    cases buffered with
    | nil => cases h; exact .of_quiet hs (.refl sh) (by simp)
    | cons msg buffered =>
      cases hr : runForwardRequest c msg sh with
      | mk sh₁ ops₁ =>
        rw [run, hr] at h
        cases h
        have hk := (forwarded_of_run hr).keeps hs (hop msg (List.mem_cons_self ..))
        refine ⟨hk.received, hk.nextClientId, hk.clients, hk.sent, hk.sound,
          fun op' hop' => ?_⟩
        rcases List.mem_append.1 hop' with hop' | hop'
        · exact hk.ops op' hop'
        · rw [List.mem_singleton.1 hop']
          exact fun m hm => hop m (List.mem_cons_of_mem _ hm)
  | handleInitialize val lid =>
    rw [run, Option.some.injEq] at h
    have hq := quiet_initializePending sh c
    have hk := (initialized_of_run h).keeps (hs.quiet hq) (hq.received ▸ hop.1)
    exact ⟨hk.received.trans hq.received, hk.nextClientId.trans hq.nextClientId,
      hq.clients ▸ hk.clients, hq.sent ▸ hk.sent, hk.sound, hq.received ▸ hk.ops⟩
  | checkHandshake msg =>
    simp only [run] at h
    split at h <;> cases h
    · exact .of_quiet hs (.refl sh) fun op' hop' => by
        rw [List.mem_singleton.1 hop']; exact hop
    · exact .of_quiet hs (.refl sh) fun op' hop' => by
        rw [List.mem_singleton.1 hop']; exact hop
  | bufferMessage msg =>
    cases h
    obtain ⟨hss, heq, hsome, hbuf⟩ := sh.st.bufferMessage_spec c msg
    refine ⟨rfl, by rw [heq], by rw [heq]; exact .refl _, List.prefix_rfl, ?_, by simp⟩
    rw [heq]
    refine { hs with
      handshake := fun c' => by rw [hsome]; exact hs.handshake c'
      buffered := fun c' m hm => ?_ }
    rw [hbuf] at hm
    split_ifs at hm with hc
    · rcases List.mem_append.1 hm with hm | hm
      · exact hs.buffered c' m hm
      · rw [List.mem_singleton.1 hm, hc.1]
        exact hop
    · exact hs.buffered c' m hm
  | forwardRequest msg =>
    rw [run, Option.some.injEq] at h
    exact (forwarded_of_run h).keeps hs hop
  | send msg isInitialize =>
    obtain ⟨hq, rfl | rfl⟩ := quiet_send h <;> exact .of_quiet hs hq (by simp [ClientOp.Sound])
  | rejectHandshakeTimeout =>
    cases h
    refine ⟨rfl, rfl, .refl _, List.prefix_append .., hs.reply fun id hid => ?_, by simp⟩
    rw [get_id_errorResponse, Option.some.injEq] at hid
    exact hid.symm
  | unregisterClient => cases h; exact ⟨rfl, rfl, List.filter_subset_self .., List.prefix_rfl,
    hs.unregister c, by simp⟩
  | updateQueueDepth => cases h; exact .of_quiet hs (still_updateQueueDepth sh).toQuiet (by simp)
  | publishStatus => cases h; exact .of_quiet hs (still_publishStatus sh).toQuiet (by simp)
  | releasePermit => cases h; exact .of_quiet hs (.of_st_eq rfl rfl rfl rfl) (by simp)

end ClientOp

/-! ## The router and the reaper -/

namespace RouterOp

/-- A message taken from the server's side is broadcast only without an id. -/
theorem sound_handleServerMessage (msg : Value) :
    ∀ op ∈ handleServerMessage msg, op.Sound rec := by
  intro op hop
  simp only [handleServerMessage] at hop
  split at hop
  · rename_i hid
    rw [List.mem_singleton.1 hop]
    intro id hid'
    rw [hid] at hid'
    cases hid'
  · rename_i id hid
    split at hop
    · rename_i hnull
      rw [List.mem_singleton.1 hop]
      intro id' hid'
      rw [hid, Option.some.injEq] at hid'
      subst hid'
      cases id with
      | null => rfl
      | bool _ | number _ | string _ | array _ | object _ => cases hnull
    · split at hop
      · cases hop
      · rw [List.mem_singleton.1 hop]
        show (msg.get "id").isSome
        rw [hid]
        rfl

/-- **One operation of the router keeps what is genuine.** -/
theorem keeps_run {order : List String} {op : RouterOp} {ops : List RouterOp}
    (h : op.run order sh = some (sh', ops)) (hs : sh.Sound) (hop : op.Sound sh.received) :
    Keeps RouterOp.Sound sh sh' ops := by
  cases op with
  | broadcast msg =>
    cases h
    refine ⟨rfl, rfl, .refl _, List.prefix_append .., hs.replyAll fun d hd => ?_, by simp⟩
    obtain ⟨c, -, rfl⟩ := List.mem_map.1 hd
    exact hop
  | takePending msg id =>
    simp only [run] at h
    split at h
    · cases h; exact .of_quiet hs (.refl sh) (by simp)
    · rename_i p hp
      cases h
      have hgen := hs.pending p (HashMap.mem_values_of_get hp)
      refine ⟨rfl, rfl, .refl _, List.prefix_rfl,
        { hs with pending := fun q hq => hs.pending q (HashMap.mem_values_of_mem_remove hq) },
        fun op' hop' => ?_⟩
      rcases List.mem_append.1 hop' with hop' | hop'
      · split_ifs at hop'
        · rw [List.mem_singleton.1 hop']; exact ⟨hop, hgen⟩
        · cases hop'
      · rw [List.mem_singleton.1 hop']; exact ⟨hop, hgen⟩
  | cacheInitialize msg p =>
    cases h
    have hs' : (storeInitialize msg sh).Sound :=
      { hs with
        initWaiting := fun w hw => by cases hw
        cached := fun v hv => by cases hv; exact hop.1 }
    refine ⟨rfl, rfl, .refl _, List.prefix_append .., hs'.replyAll fun d hd => ?_, by simp⟩
    obtain ⟨w, hw, rfl⟩ := List.mem_map.1 hd
    exact sound_setId (hs.initWaiting w hw) hop.1 _
  | findTarget msg p =>
    simp only [run] at h
    split at h <;> cases h
    · refine .of_quiet hs (.refl sh) fun op' hop' => ?_
      simp only [List.mem_cons, List.not_mem_nil, or_false] at hop'
      rcases hop' with rfl | rfl
      · exact hop
      · trivial
    · exact .of_quiet hs (.refl sh) (by simp [RouterOp.Sound])
  | sendTarget msg p =>
    cases h
    refine ⟨rfl, rfl, .refl _, List.prefix_append .., { hs with sent := fun d hd => ?_ }, by simp⟩
    rcases List.mem_append.1 hd with hd | hd
    · exact hs.sent d hd
    · rw [List.mem_singleton.1 hd]
      exact sound_setId hop.2 hop.1 _
  | resetState reason =>
    simp only [run] at h
    split at h <;> cases h
    have hs' : (clearState reason sh).Sound :=
      { hs with
        pending := fun p hp => by cases hp
        initWaiting := fun w hw => by cases hw
        cached := fun v hv => by cases hv }
    refine ⟨rfl, rfl, .refl _, List.prefix_append .., hs'.replyAll fun d hd => ?_, by simp⟩
    rcases List.mem_append.1 hd with hd | hd
    · obtain ⟨p, hp, rfl⟩ := List.mem_map.1 hd
      exact sound_errorReply (hs.pending p (HashMap.mem_values_of_mem_valuesIn hp)) _
    · obtain ⟨w, hw, rfl⟩ := List.mem_map.1 hd
      exact sound_errorReply (hs.initWaiting w hw) _
  | publishStatus => cases h; exact .of_quiet hs (still_publishStatus sh).toQuiet (by simp)

end RouterOp

/-- **One operation of the reaper keeps what is genuine.** -/
theorem ReaperOp.keeps_run {order : List String} {op : ReaperOp} {ops : List ReaperOp}
    (h : op.run order sh = some (sh', ops)) (hs : sh.Sound) (hop : op.Sound sh.received) :
    Keeps ReaperOp.Sound sh sh' ops := by
  cases op with
  | readTimeout => cases h; exact .of_quiet hs (.refl sh) (by simp [ReaperOp.Sound])
  | reap timeout =>
    simp only [run] at h
    split at h <;> cases h
    refine ⟨rfl, rfl, .refl _, List.prefix_rfl,
      { hs with pending := fun p hp => hs.pending p (HashMap.mem_values_of_mem_retain hp) },
      fun op' hop' => ?_⟩
    rcases List.mem_append.1 hop' with hop' | hop'
    · split_ifs at hop'
      · cases hop'
      · rw [List.mem_singleton.1 hop']
        intro e he
        obtain ⟨p, hp, rfl⟩ := List.mem_map.1 he
        exact hs.pending p (HashMap.mem_values_of_mem_valuesIn (List.mem_filter.1 hp).1)
    · rw [List.mem_singleton.1 hop']
      trivial
  | replyExpired expired =>
    cases h
    refine ⟨rfl, rfl, .refl _, List.prefix_append .., hs.replyAll fun d hd => ?_, by simp⟩
    obtain ⟨e, he, rfl⟩ := List.mem_map.1 hd
    exact sound_errorReply (hop e he) _
  | publishStatus => cases h; exact .of_quiet hs (still_publishStatus sh).toQuiet (by simp)

/-! ## The system -/

/-- A task list is replaced: what held of the lists holds, if it holds of the new one. -/
theorem forall_mem_update {α : Type} {P : ℕ → α → Prop} {f : ℕ → List α} {c₀ : ℕ} {xs : List α}
    (hf : ∀ c, ∀ x ∈ f c, P c x) (hxs : ∀ x ∈ xs, P c₀ x) :
    ∀ c, ∀ x ∈ Function.update f c₀ xs c, P c x := by
  intro c x hx
  rcases eq_or_ne c c₀ with rfl | hne
  · rw [Function.update_self] at hx
    exact hxs x hx
  · rw [Function.update_of_ne hne] at hx
    exact hf c x hx

/-- **Everything the mux holds is genuine.** -/
structure System.Sound (s : System) : Prop where
  shared : s.shared.Sound
  readers : ∀ c, s.readers c = true → c < s.shared.st.nextClientId
  handlers : ∀ c, ∀ op ∈ s.handlers c, op.Sound s.shared.received c
  writers : ∀ c, ∀ op ∈ s.writers c, op = .unregisterClient ∨ op = .publishStatus
  router : ∀ op ∈ s.router, op.Sound s.shared.received
  reaper : ∀ op ∈ s.reaper, op.Sound s.shared.received

variable {cfg : Config} {ok : System → Label → Prop} {s s' : System}

theorem System.Sound.connect (hs : s.Sound) : s.connect.Sound where
  shared :=
    { hs.shared with
      known := fun m hm => Nat.lt_succ_of_lt (hs.shared.known m hm)
      registered := by
        intro c hc
        rcases List.mem_insert_iff.1 hc with rfl | hc
        · exact Nat.lt_succ_self _
        · exact Nat.lt_succ_of_lt (hs.shared.registered c hc)
      handshake := by
        intro c
        replace hs := hs.shared.handshake c
        simp only [System.connect, MuxState.registerClient, List.mem_insert_iff]
        rcases eq_or_ne c s.shared.st.nextClientId with rfl | hne
        · simp
        · rw [HashMap.get_insert_ne hne, ← hs]
          exact ⟨fun h => h.resolve_left hne, .inr⟩
      buffered := by
        intro c m hm
        rw [show s.connect.shared.st.bufferedMessages c = _ from
          MuxState.bufferedMessages_registerClient s.shared.st s.shared.now c] at hm
        split_ifs at hm
        · cases hm
        · exact hs.shared.buffered c m hm }
  readers := by
    intro c hc
    rcases eq_or_ne c s.shared.st.nextClientId with rfl | hne
    · exact Nat.lt_succ_self _
    · rw [System.connect_readers, Function.update_of_ne hne] at hc
      exact Nat.lt_succ_of_lt (hs.readers c hc)
  handlers := forall_mem_update hs.handlers (by simp [ClientOp.Sound])
  writers := hs.writers
  router := hs.router
  reaper := hs.reaper

theorem System.Sound.receive {c : ℕ} (hs : s.Sound) (hreads : s.readers c = true) (msg : Value) :
    (s.receive c msg).Sound where
  shared :=
    { hs.shared with
      seq := by
        intro i m hm
        rcases Nat.lt_or_ge i s.shared.received.length with hlt | hge
        · rw [show (s.receive c msg).shared.received[i]? = _ from
            List.getElem?_append_left hlt] at hm
          exact hs.shared.seq i m hm
        · rw [show (s.receive c msg).shared.received[i]? = _ from
            List.getElem?_append_right hge, List.getElem?_singleton] at hm
          split_ifs at hm with hi
          rw [Option.some.injEq] at hm
          rw [← hm]
          exact Nat.le_antisymm hge (Nat.sub_eq_zero_iff_le.1 hi)
      known := by
        intro m hm
        rcases List.mem_append.1 hm with hm | hm
        · exact hs.shared.known m hm
        · rw [List.mem_singleton.1 hm]
          exact hs.readers c hreads
      pending := fun p hp => (hs.shared.pending p hp).mono (List.subset_append_left ..)
      initWaiting := fun w hw => (hs.shared.initWaiting w hw).mono (List.subset_append_left ..)
      buffered := fun c m hm => (hs.shared.buffered c m hm).mono (List.subset_append_left ..)
      sent := fun d hd => (hs.shared.sent d hd).mono (List.subset_append_left ..) }
  readers := hs.readers
  handlers := by
    refine forall_mem_update
      (fun c' op hop => (hs.handlers c' op hop).mono (List.subset_append_left ..)) ?_
    intro op hop
    rw [List.mem_singleton.1 hop]
    exact ⟨List.mem_append_right _ (List.mem_singleton.2 rfl), rfl⟩
  writers := hs.writers
  router := fun op hop => (hs.router op hop).mono (List.subset_append_left ..)
  reaper := fun op hop => (hs.reaper op hop).mono (List.subset_append_left ..)

/-- The invariant where the shared part and one task have moved. -/
theorem System.Sound.of_keeps {sh : Shared} (hs : s.Sound) (hrec : sh.received = s.shared.received)
    (hnext : sh.st.nextClientId = s.shared.st.nextClientId) (hsh : sh.Sound) :
    ({ s with shared := sh } : System).Sound where
  shared := hsh
  readers := fun c hc => hnext ▸ hs.readers c hc
  handlers := hrec ▸ hs.handlers
  writers := hs.writers
  router := hrec ▸ hs.router
  reaper := hrec ▸ hs.reaper

/-- A writer's operations are sound, and go on with nothing. -/
theorem ClientOp.sound_of_writer {op : ClientOp} {c : ℕ}
    (h : op = .unregisterClient ∨ op = .publishStatus) : op.Sound rec c := by
  rcases h with rfl | rfl <;> trivial

theorem ClientOp.ops_of_writer {enc : Value → ℕ} {op : ClientOp} {ops : List ClientOp} {c : ℕ}
    (hrun : op.run enc c sh = some (sh', ops))
    (h : op = .unregisterClient ∨ op = .publishStatus) : ops = [] := by
  rcases h with rfl | rfl <;> (cases hrun; rfl)

/-- **Each step keeps everything genuine.** -/
theorem Routed.sound (h : Routed cfg s s') (hs : s.Sound) : s'.Sound := by
  cases h with
  | connect => exact hs.connect
  | receive hreads hidle => exact hs.receive hreads _
  | @endReader c ops hidle hops =>
    refine { hs with
      readers := fun c' hc' => ?_
      handlers := forall_mem_update hs.handlers fun op hop => ?_ }
    · rcases eq_or_ne c' c with rfl | hne
      · simp at hc'
      · rw [System.endReader_readers, Function.update_of_ne hne] at hc'
        exact hs.readers c' hc'
    · rcases hops op hop with rfl | rfl | rfl | rfl <;> trivial
  | writerFails =>
    exact { hs with writers := forall_mem_update hs.writers (by simp) }
  | @handler c op rest ops sh hops hrun =>
    have hk := ClientOp.keeps_run hrun hs.shared (hs.handlers c op (by simp [hops]))
    have hs' := hs.of_keeps hk.received hk.nextClientId hk.sound
    refine { hs' with handlers := forall_mem_update hs'.handlers fun op' hop' => ?_ }
    rw [hk.received]
    rcases List.mem_append.1 hop' with hop' | hop'
    · exact hk.ops op' hop'
    · exact hs.handlers c op' (by simp [hops, hop'])
  | @writer c op rest ops sh hops hrun =>
    have hw := hs.writers c op (by simp [hops])
    have hk := ClientOp.keeps_run hrun hs.shared (ClientOp.sound_of_writer hw)
    have hs' := hs.of_keeps hk.received hk.nextClientId hk.sound
    rw [ClientOp.ops_of_writer hrun hw]
    exact { hs' with
      writers := forall_mem_update hs.writers fun op' hop' =>
        hs.writers c op' (by rw [hops]; exact List.mem_cons_of_mem _ hop') }
  | routerTurn hidle hstill hops =>
    have hs' := hs.of_keeps hstill.received hstill.nextClientId (hs.shared.quiet hstill.toQuiet)
    refine { hs' with router := fun op hop => ?_ }
    rcases hops with rfl | ⟨msg, rfl⟩ | ⟨reason, rfl⟩
    · cases hop
    · exact RouterOp.sound_handleServerMessage msg op hop
    · simp only [List.mem_cons, List.not_mem_nil, or_false] at hop
      rcases hop with rfl | rfl <;> trivial
  | @router order op rest ops sh hops hrun =>
    have hk := RouterOp.keeps_run hrun hs.shared (hs.router op (by simp [hops]))
    have hs' := hs.of_keeps hk.received hk.nextClientId hk.sound
    refine { hs' with router := fun op' hop' => ?_ }
    rcases List.mem_append.1 hop' with hop' | hop'
    · exact hk.received ▸ hk.ops op' hop'
    · exact hs'.router op' (by simp [hops, hop'])
  | reaperTick hidle =>
    exact { hs with reaper := by simp [ReaperOp.Sound] }
  | @reaper order op rest ops sh hops hrun =>
    have hk := ReaperOp.keeps_run hrun hs.shared (hs.reaper op (by simp [hops]))
    have hs' := hs.of_keeps hk.received hk.nextClientId hk.sound
    refine { hs' with reaper := fun op' hop' => ?_ }
    rcases List.mem_append.1 hop' with hop' | hop'
    · exact hk.received ▸ hk.ops op' hop'
    · exact hs'.reaper op' (by simp [hops, hop'])
  | still hstill hreaders hhandlers hcurrent hwriters hrouter hreaper =>
    have hs' := hs.of_keeps hstill.received hstill.nextClientId (hs.shared.quiet hstill.toQuiet)
    exact ⟨hs'.shared, hreaders ▸ hs'.readers, hhandlers ▸ hs'.handlers, hwriters ▸ hs'.writers,
      hrouter ▸ hs'.router, hreaper ▸ hs'.reaper⟩

/-- The record is kept: no frame is received, no client registers, and what was sent stays. -/
structure KeepsRecord (sh sh' : Shared) : Prop where
  received : sh'.received = sh.received
  nextClientId : sh'.st.nextClientId = sh.st.nextClientId
  clients : sh'.st.clients ⊆ sh.st.clients
  sent : sh.sent <+: sh'.sent

theorem KeepsRecord.refl (sh : Shared) : KeepsRecord sh sh :=
  ⟨rfl, rfl, .refl _, List.prefix_rfl⟩

theorem Keeps.record {α : Type} {Sound : List (Tagged Value) → α → Prop} {ops : List α}
    (h : Keeps Sound sh sh' ops) : KeepsRecord sh sh' :=
  ⟨h.received, h.nextClientId, h.clients, h.sent⟩

theorem Still.record (h : Still sh sh') : KeepsRecord sh sh' :=
  ⟨h.received, h.nextClientId, h.clients ▸ List.Subset.refl _, h.sent ▸ List.prefix_rfl⟩

/-- **Each step but a connection and a frame keeps the record.** -/
theorem Routed.record (h : Routed cfg s s') (hs : s.Sound) :
    s' = s.connect ∨
    (∃ c msg, (s.readers c = true ∧ s.handlers c = []) ∧ s' = s.receive c msg) ∨
    KeepsRecord s.shared s'.shared := by
  cases h with
  | connect => exact .inl rfl
  | receive hreads hidle => exact .inr (.inl ⟨_, _, ⟨hreads, hidle⟩, rfl⟩)
  | endReader | writerFails | reaperTick => exact .inr (.inr (.refl _))
  | @handler c op rest ops sh hops hrun =>
    have hop := hs.handlers c op (by simp [hops])
    exact .inr (.inr (ClientOp.keeps_run hrun hs.shared hop).record)
  | @writer c op rest ops sh hops hrun =>
    have hop : op.Sound s.shared.received c :=
      ClientOp.sound_of_writer (hs.writers c op (by simp [hops]))
    exact .inr (.inr (ClientOp.keeps_run hrun hs.shared hop).record)
  | @router order op rest ops sh hops hrun =>
    have hop := hs.router op (by simp [hops])
    exact .inr (.inr (RouterOp.keeps_run hrun hs.shared hop).record)
  | @reaper order op rest ops sh hops hrun =>
    have hop := hs.reaper op (by simp [hops])
    exact .inr (.inr (ReaperOp.keeps_run hrun hs.shared hop).record)
  | routerTurn _ hstill _ | still hstill => exact .inr (.inr hstill.record)

theorem sound_init (cfg : Config) : (System.init cfg).Sound where
  shared :=
    { seq := fun i m hm => by simp [System.init] at hm
      known := fun m hm => by cases hm
      registered := fun c hc => by cases hc
      handshake := fun c => by simp [System.init, MuxState.new]
      pending := fun p hp => by cases hp
      initWaiting := fun w hw => by cases hw
      buffered := fun c m hm => by
        simp [System.init, MuxState.new, MuxState.bufferedMessages] at hm
      cached := fun v hv => by cases hv
      sent := fun d hd => by cases hd }
  readers := fun c hc => by cases hc
  handlers := fun c op hop => by cases hop
  writers := fun c op hop => by cases hop
  router := fun op hop => by cases hop
  reaper := fun op hop => by cases hop

/-- **In every reachable state everything the mux holds is genuine.** -/
theorem Reachable.sound (h : Reachable cfg ok s) : s.Sound :=
  Run.Reach.invariant (I := System.Sound) (sound_init cfg)
    (fun _ _ _ _ hs hstep => (routed_of_step hstep).sound hs) h

/-! ## Handlers belong to clients -/

/-- A client that has a handler has been given its id. -/
def System.Born (s : System) : Prop := ∀ c, s.handlers c ≠ [] → c < s.shared.st.nextClientId

theorem System.Born.update {s : System} (hb : s.Born) {c₀ : ℕ} {ops : List ClientOp} {n : ℕ}
    (hn : s.shared.st.nextClientId ≤ n) (hc₀ : c₀ < n) :
    ∀ c, Function.update s.handlers c₀ ops c ≠ [] → c < n := by
  intro c hc
  rcases eq_or_ne c c₀ with rfl | hne
  · exact hc₀
  · rw [Function.update_of_ne hne] at hc
    exact Nat.lt_of_lt_of_le (hb c hc) hn

theorem Stepped.born {l : Label} (h : Stepped cfg s l s') (hs : s.Sound) (hb : s.Born) :
    s'.Born := by
  cases h with
  | connect => exact hb.update (Nat.le_succ _) (Nat.lt_succ_self _)
  | receive hidle | disconnect hidle | decodeError hidle | handshakeTimeout hidle =>
    exact hb.update (Nat.le_refl _) (hs.readers _ hidle.1)
  | handshakeTick | writerFails | reaperTick | heartbeatTick | heartbeatEvent | childOutput
  | readerEnds | childExits | shutdown | elapse => exact hb
  | @handler c op rest ops sh hops hrun =>
    have hk := ClientOp.keeps_run hrun hs.shared (hs.handlers c op (by simp [hops]))
    have hlt : c < sh.st.nextClientId := by
      rw [hk.nextClientId]
      exact hb c (by simp [hops])
    exact hb.update (Nat.le_of_eq hk.nextClientId.symm) hlt
  | @writer c op rest ops sh hops hrun =>
    have hw := hs.writers c op (by simp [hops])
    have hk := ClientOp.keeps_run hrun hs.shared (ClientOp.sound_of_writer hw)
    exact fun c' hc' => hk.nextClientId.symm ▸ hb c' hc'
  | @routerTurn event rest hidle hevents =>
    exact fun c' hc' => (still_dispatch event rest s.shared).nextClientId.symm ▸ hb c' hc'
  | @router order op rest ops sh hops hrun =>
    have hk := RouterOp.keeps_run hrun hs.shared (hs.router op (by simp [hops]))
    exact fun c' hc' => hk.nextClientId.symm ▸ hb c' hc'
  | @reaper order op rest ops sh hops hrun =>
    have hk := ReaperOp.keeps_run hrun hs.shared (hs.reaper op (by simp [hops]))
    exact fun c' hc' => hk.nextClientId.symm ▸ hb c' hc'
  | heartbeat hops hrun =>
    exact fun c' hc' => (HeartbeatOp.still_run hrun).nextClientId.symm ▸ hb c' hc'
  | manager hops hlock hrun =>
    exact fun c' hc' => (ManagerOp.still_run hrun).nextClientId.symm ▸ hb c' hc'

theorem Reachable.born (h : Reachable cfg ok s) : s.Born :=
  Run.Reach.invariant_of (I := System.Born) (J := System.Sound) (fun _ hr => Reachable.sound hr)
    (fun _ hc => absurd rfl hc) (fun _ _ _ _ hs hb hstep => (stepped_of_step hstep).born hs hb) h

end Mux

end VcOperator
