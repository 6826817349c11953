import VcOperator.Mux.Helpers.Feed
import VcOperator.Mux.Helpers.Accounts
/-!
# The ids the child sees

A forwarded request carries an id the mux has issued for it, and its
entry in `pending` is older than the message on the queue. The two exits
of `handle_client_message` that forward a value as it came are the ones
for messages without an id; a value with ids of its own leaves through
them in two cases, a batch array and a first `notifications/initialized`
with an id. `idsReplaced` is the condition that neither arises.
-/

namespace VcOperator

namespace Mux

/-- The ids a message carries: its own, or those of the elements of a batch. -/
def carriedIds : Value → List Value
  | .array elements => elements.filterMap (·.get "id")
  | v => (v.get "id").toList

/-- A message that had an id carries, once it is replaced, the new one alone. -/
theorem carriedIds_setId {msg : Value} (h : (msg.get "id").isSome) (id : Value) :
    carriedIds (setId msg id) = [id] := by
  obtain ⟨old, hold⟩ := Option.isSome_iff_exists.1 h
  obtain ⟨ms, rfl⟩ := Value.exists_members_of_get hold
  have hget : (setId (.object ms) id).get "id" = some id := get_id_setId_object ms id
  simp only [setId] at hget ⊢
  rw [carriedIds, hget, Option.toList_some]
  intro elements heq
  cases heq

theorem carriedIds_pingMessage (n : ℕ) :
    carriedIds (HeartbeatOp.pingMessage n) = [.string (heartbeatId n)] := by
  simp [carriedIds, HeartbeatOp.pingMessage, Value.get, Value.member]

/-- **One step issues and enqueues ids as it should.** An id it issues is
above all before it, and gets its entry in `pending` at once. An id in a
message it enqueues was issued in an earlier step, for that request, or is
a probe's whose number is above those of all probes before it. -/
structure System.PutsIssuedIds (s s' : System) : Prop where
  issues : ∃ is, s'.shared.issued = s.shared.issued ++ is ∧ is.length ≤ 1 ∧
    ∀ i ∈ is, (∀ j ∈ s.shared.issued, j.n < i.n) ∧
      ∃ p, s'.shared.st.pending.get (globalId i.clientId i.n) = some p ∧
        p.clientId = i.clientId ∧ p.localId.occ = i.occ
  puts : ∃ ps, s'.shared.put = s.shared.put ++ ps ∧ ps.length ≤ 1 ∧
    ∀ p ∈ ps, ∀ id ∈ carriedIds p.msg,
      (∃ i ∈ s.shared.issued, id = .string (globalId i.clientId i.n) ∧
        p.source = .client i.occ) ∨
      ∃ n, id = .string (heartbeatId n) ∧ p.source = .heartbeat n ∧
        ∀ q ∈ s.shared.put, ∀ m, q.source = .heartbeat m → m < n

/-- The lock section or branch test a handler is at does not let a value
with ids of its own through. -/
def ClientOp.idsReplaced (encodedLen : Value → ℕ) (sh : Shared) : ClientOp → Bool
  | handleClientMessage msg =>
    decide (sh.st.maxRequestBytes < encodedLen msg.val) ||
      decide (method msg.val = "notifications/initialized") ||
      (msg.val.get "id").isSome || (carriedIds msg.val).isEmpty
  | markServerInitialized msg => sh.st.serverInitialized || (carriedIds msg.val).isEmpty
  | _ => true

/-- **The condition on a step**: a value that reaches the branch for
messages without an id is no batch with an id in it, and a
`notifications/initialized` that is going to be forwarded has no id. -/
def System.idsReplaced (cfg : Config) (s : System) : Label → Bool
  | .handler c =>
    match s.handlers c with
    | op :: _ => op.idsReplaced cfg.encodedLen s.shared
    | [] => true
  | _ => true

/-! ## What the handlers have to forward -/

/-- What a handler has still to forward carries no id, or the issued one. -/
def ClientOp.Clean (issued : List Issue) : ClientOp → Prop
  | trySend msg => carriedIds msg.val = []
  | send msg _ => ∃ i ∈ issued, carriedIds msg.val = [.string (globalId i.clientId i.n)] ∧
      i.occ = msg.occ
  | _ => True

theorem ClientOp.Clean.mono {issued issued' : List Issue} (hsub : issued ⊆ issued')
    {op : ClientOp} (h : op.Clean issued) : op.Clean issued' := by
  cases op with
  | send msg isInitialize =>
    obtain ⟨i, hi, hids⟩ := h
    exact ⟨i, hsub hi, hids⟩
  | trySend msg => exact h
  | handleClientMessage _ | rejectTooLarge _ | markServerInitialized _ | completeHandshake
  | flushBuffered _ | handleInitialize _ _ | checkHandshake _ | bufferMessage _
  | forwardRequest _ | updateQueueDepth | publishStatus | rejectHandshakeTimeout
  | unregisterClient | releasePermit => trivial

namespace ClientOp

variable {enc : Value → ℕ} {c : ℕ} {sh sh' : Shared} {op : ClientOp} {ops : List ClientOp}

/-- The request that a lock section forwards carries the id it has issued. -/
theorem clean_send (sh : Shared) (c : ℕ) {val : Value} (hid : (val.get "id").isSome)
    (lid : Tagged Value) (isInitialize : Bool) :
    (send (withGlobalId sh c val lid.occ) isInitialize).Clean
      (insertPending sh c lid isInitialize).issued :=
  ⟨⟨c, sh.st.nextGlobalId, lid.occ, isInitialize⟩,
    List.mem_append_right _ (List.mem_singleton.2 rfl), carriedIds_setId hid _, rfl⟩

/-- **What an operation goes on with is clean**, where it lets nothing through. -/
theorem clean_run (h : op.run enc c sh = some (sh', ops)) (hop : op.Sound sh.received c)
    (hok : op.idsReplaced enc sh = true) : ∀ op' ∈ ops, op'.Clean sh'.issued := by
  intro op' hop'
  cases goesOn_of_run h hop' with
  | @notification msg hlen hmethod hid =>
    have hnot : ¬ sh.st.maxRequestBytes < enc msg.val := Nat.not_lt.2 hlen
    show carriedIds msg.val = []
    simpa [idsReplaced, hnot, hmethod, hid] using hok
  | @announce msg hflag =>
    show carriedIds msg.val = []
    simpa [idsReplaced, hflag] using hok
  | @flushSend msg _ id hid h' | @send msg id hid h' =>
    rw [h']
    exact clean_send sh c (by rw [hid]; rfl) ⟨id, msg.occ⟩ false
  | @sendInitialize val lid h' =>
    rw [h']
    exact clean_send (initializePending sh c) c hop.2 lid true
  | _ => trivial

/-- What an operation enqueues carries issued ids. -/
theorem Feeds.clean (h : Feeds sh op sh') (hop : op.Clean sh.issued) :
    ∃ ps, sh'.put = sh.put ++ ps ∧ ps.length ≤ 1 ∧ ∀ p ∈ ps,
      (∃ o, p.source = .client o) ∧ ∀ id ∈ carriedIds p.msg,
        ∃ i ∈ sh.issued, id = .string (globalId i.clientId i.n) ∧ p.source = .client i.occ := by
  cases h with
  | nothing hunfed => exact ⟨[], by rw [hunfed.put, List.append_nil], by simp, by simp⟩
  | flag hflag => exact ⟨[], (List.append_nil _).symm, by simp, by simp⟩
  | @trySend msg hroom =>
    refine ⟨[⟨msg.val, .client msg.occ⟩], rfl, by simp, fun p hp => ?_⟩
    rw [List.mem_singleton.1 hp]
    have hnil : carriedIds msg.val = [] := hop
    exact ⟨⟨_, rfl⟩, fun id hid => by rw [hnil] at hid; cases hid⟩
  | @send msg isInitialize _ hroom hunfed =>
    refine ⟨[⟨msg.val, .client msg.occ⟩], hunfed.put, by simp, fun p hp => ?_⟩
    rw [List.mem_singleton.1 hp]
    obtain ⟨i, hi, hids, hocc⟩ := hop
    refine ⟨⟨_, rfl⟩, fun id hid => ⟨i, hi, ?_, by rw [hocc]⟩⟩
    rw [hids] at hid
    exact List.mem_singleton.1 hid

/-- What an operation issues is above all ids before it, and pending. -/
theorem issues_fresh (h : Issues c sh sh') (hk : sh.Keyed) :
    ∃ is, sh'.issued = sh.issued ++ is ∧ is.length ≤ 1 ∧
      ∀ i ∈ is, (∀ j ∈ sh.issued, j.n < i.n) ∧
        ∃ p, sh'.st.pending.get (globalId i.clientId i.n) = some p ∧
          p.clientId = i.clientId ∧ p.localId.occ = i.occ := by
  rcases h with h | ⟨h, -, rfl⟩
  · exact ⟨[], by rw [h.issued, List.append_nil], by simp, by simp⟩
  · rename_i sh₀ lid isInitialize
    refine ⟨[⟨c, sh₀.st.nextGlobalId, lid.occ, isInitialize⟩], ?_, by simp, fun i hi => ?_⟩
    · rw [← h.issued]; rfl
    · rw [List.mem_singleton.1 hi]
      refine ⟨fun j hj => ?_, _, HashMap.get_insert _ _ _, rfl, rfl⟩
      have hlt := hk.below j hj
      rw [← h.nextGlobalId] at hlt
      exact hlt

end ClientOp

/-! ## The probes -/

/-- An operation that ends a turn of the inspector. -/
def HeartbeatOp.concludes : HeartbeatOp → Bool
  | updateStateMetrics | publishStatus | checkRestart => true
  | _ => false

/-- **What an operation of the inspector does to the probes' numbers**: a
tick takes the next one, and nothing else begins a probe. -/
theorem HeartbeatOp.numbers_run {hb hb' : HeartbeatState} {sh sh' : Shared} {op : HeartbeatOp}
    {ops : List HeartbeatOp} (h : op.run hb sh = some (hb', sh', ops)) :
    (op = .probe ∧ hb'.nextHeartbeatId = hb.nextHeartbeatId + 1 ∧
      ops = [.sendProbe hb.nextHeartbeatId sh.now]) ∨
    (hb'.nextHeartbeatId = hb.nextHeartbeatId ∧ (∀ n t, .sendProbe n t ∉ ops) ∧
      ∀ op' ∈ ops.tail, op'.concludes) := by
  cases op with
  | probe =>
    simp only [run] at h
    split at h <;> cases h
    · exact .inl ⟨rfl, rfl, rfl⟩
    · exact .inr ⟨rfl, by simp, by simp⟩
  | sendProbe n startedAt =>
    simp only [run] at h
    split at h
    · cases h; exact .inr ⟨rfl, by simp [conclude], by simp [conclude, concludes]⟩
    · split at h <;> cases h
      exact .inr ⟨rfl, by simp, by simp⟩
  | awaitResponse n startedAt deadline =>
    simp only [run] at h
    split at h
    · cases h; exact .inr ⟨rfl, by simp [conclude], by simp [conclude, concludes]⟩
    · split at h <;> cases h
      exact .inr ⟨rfl, by simp [conclude], by simp [conclude, concludes]⟩
  | checkRestart =>
    simp only [run] at h
    split at h <;> cases h <;> exact .inr ⟨rfl, by simp, by simp⟩
  | updateStateMetrics | publishStatus => cases h; exact .inr ⟨rfl, by simp, by simp⟩

/-- The numbers of the probes that were enqueued are below `n`. -/
def Shared.ProbesBelow (sh : Shared) (n : ℕ) : Prop :=
  ∀ q ∈ sh.put, ∀ m, q.source = .heartbeat m → m < n

theorem Shared.ProbesBelow.mono {sh : Shared} {n n' : ℕ} (h : sh.ProbesBelow n)
    (hn : n ≤ n') : sh.ProbesBelow n' :=
  fun q hq m hm => Nat.lt_of_lt_of_le (h q hq m hm) hn

/-- Messages of clients do not count. -/
theorem Shared.ProbesBelow.append {sh sh' : Shared} {n : ℕ} (h : sh.ProbesBelow n)
    (ps : List Put) (hput : sh'.put = sh.put ++ ps)
    (hps : ∀ p ∈ ps, ∃ o, p.source = .client o) : sh'.ProbesBelow n := by
  intro q hq m hm
  rw [hput] at hq
  rcases List.mem_append.1 hq with hq | hq
  · exact h q hq m hm
  · obtain ⟨o, ho⟩ := hps q hq
    rw [ho] at hm
    cases hm

/-- **The probes are numbered in the order they are enqueued.** -/
structure System.ProbesOrdered (s : System) : Prop where
  below : s.shared.ProbesBelow s.inspector.nextHeartbeatId
  inHand : ∀ n t, .sendProbe n t ∈ s.heartbeat →
    n < s.inspector.nextHeartbeatId ∧ s.shared.ProbesBelow n
  tail : ∀ op ∈ s.heartbeat.tail, op.concludes

/-- A step of another task enqueues, if anything, a client's message. -/
theorem System.ProbesOrdered.of_put {s s' : System} (h : s.ProbesOrdered) (ps : List Put)
    (hput : s'.shared.put = s.shared.put ++ ps) (hps : ∀ p ∈ ps, ∃ o, p.source = .client o)
    (hheartbeat : s'.heartbeat = s.heartbeat)
    (hnext : s'.inspector.nextHeartbeatId = s.inspector.nextHeartbeatId) :
    s'.ProbesOrdered where
  below := by rw [hnext]; exact h.below.append ps hput hps
  inHand := by
    rw [hheartbeat, hnext]
    intro n t hmem
    exact ⟨(h.inHand n t hmem).1, (h.inHand n t hmem).2.append ps hput hps⟩
  tail := by rw [hheartbeat]; exact h.tail

theorem System.ProbesOrdered.of_put_eq {s s' : System} (h : s.ProbesOrdered)
    (hput : s'.shared.put = s.shared.put) (hheartbeat : s'.heartbeat = s.heartbeat)
    (hnext : s'.inspector.nextHeartbeatId = s.inspector.nextHeartbeatId) : s'.ProbesOrdered :=
  h.of_put [] (by rw [hput, List.append_nil]) (by simp) hheartbeat hnext

/-- The inspector keeps the order of its probes. -/
theorem System.ProbesOrdered.heartbeat {s : System} {hb : HeartbeatState} {sh : Shared}
    {op : HeartbeatOp} {rest ops : List HeartbeatOp} (h : s.ProbesOrdered)
    (hops : s.heartbeat = op :: rest)
    (hrun : op.run s.inspector s.shared = some (hb, sh, ops)) :
    ({ s with inspector := hb, shared := sh, heartbeat := ops ++ rest } :
      System).ProbesOrdered := by
  have hrest : ∀ op ∈ rest, op.concludes := by
    have htail := h.tail
    rwa [hops] at htail
  have hnone : ∀ n t, HeartbeatOp.sendProbe n t ∉ rest := by
    intro n t hmem
    cases hrest _ hmem
  rcases HeartbeatOp.numbers_run hrun with ⟨rfl, hnext, rfl⟩ | ⟨hnext, hno, htail⟩
  · -- a new probe: its number is the next one, and nothing was enqueued
    have hput : sh.put = s.shared.put := by
      cases HeartbeatOp.feeds_run hrun with
      | nothing hunfed => exact hunfed.put
    have hbelow : sh.ProbesBelow s.inspector.nextHeartbeatId := by
      have hb := h.below
      unfold Shared.ProbesBelow at hb ⊢
      rwa [hput]
    refine ⟨hbelow.mono (by rw [hnext]; exact Nat.le_succ _), fun n t hmem => ?_, ?_⟩
    · rcases List.mem_cons.1 hmem with heq | hmem
      · cases heq
        exact ⟨by rw [hnext]; exact Nat.lt_succ_self _, hbelow⟩
      · exact absurd hmem (hnone n t)
    · exact hrest
  · have hnone' : ∀ n t, HeartbeatOp.sendProbe n t ∉ ops ++ rest := by
      intro n t hmem
      rcases List.mem_append.1 hmem with hmem | hmem
      · exact hno n t hmem
      · exact hnone n t hmem
    refine ⟨?_, fun n t hmem => absurd hmem (hnone' n t), ?_⟩
    · show sh.ProbesBelow hb.nextHeartbeatId
      rw [hnext]
      cases HeartbeatOp.feeds_run hrun with
      | nothing hunfed =>
        exact h.below.append [] (by rw [hunfed.put, List.append_nil]) (by simp)
      | @probe n t hroom =>
        obtain ⟨hlt, -⟩ := h.inHand n t (by simp [hops])
        intro q hq m hm
        rcases List.mem_append.1 hq with hq | hq
        · exact h.below q hq m hm
        · rw [List.mem_singleton.1 hq] at hm
          cases hm
          exact hlt
    · cases ops with
      | nil => exact fun op hop => hrest op (List.mem_of_mem_tail hop)
      | cons op' ops' =>
        intro op hop
        rcases List.mem_append.1 hop with hop | hop
        · exact htail op hop
        · exact hrest op hop

/-! ## Every run that replaces the ids -/

variable {cfg : Config} {s s' : System} {l : Label}

/-- What the handlers and the inspector have still to enqueue is in order. -/
structure System.IdsClean (s : System) : Prop where
  handlers : ∀ c, ∀ op ∈ s.handlers c, op.Clean s.shared.issued
  probes : s.ProbesOrdered

/-- A step that issues and enqueues nothing. -/
theorem System.PutsIssuedIds.of_eq (hissued : s'.shared.issued = s.shared.issued)
    (hput : s'.shared.put = s.shared.put) : s.PutsIssuedIds s' where
  issues := ⟨[], by rw [hissued, List.append_nil], by simp, by simp⟩
  puts := ⟨[], by rw [hput, List.append_nil], by simp, by simp⟩

/-- A step that moves neither a handler nor the inspector. -/
theorem System.IdsClean.frame (hc : s.IdsClean) (hissued : s'.shared.issued = s.shared.issued)
    (hput : s'.shared.put = s.shared.put) (hhandlers : s'.handlers = s.handlers)
    (hheartbeat : s'.heartbeat = s.heartbeat)
    (hnext : s'.inspector.nextHeartbeatId = s.inspector.nextHeartbeatId) :
    s'.IdsClean ∧ s.PutsIssuedIds s' := by
  refine ⟨⟨?_, hc.probes.of_put_eq hput hheartbeat hnext⟩, .of_eq hissued hput⟩
  rw [hhandlers, hissued]
  exact hc.handlers

/-- The operation of a client's handler, or of its writer. -/
theorem System.IdsClean.clientOp {c : ℕ} {op : ClientOp} {sh : Shared} {ops : List ClientOp}
    (hc : s.IdsClean) (hk : s.shared.Keyed) (hop : op.Clean s.shared.issued)
    (hrun : op.run cfg.encodedLen c s.shared = some (sh, ops))
    (hshared : s'.shared = sh) (hheartbeat : s'.heartbeat = s.heartbeat)
    (hinspector : s'.inspector = s.inspector)
    (hhandlers : ∀ c, ∀ op ∈ s'.handlers c, op.Clean sh.issued) :
    s'.IdsClean ∧ s.PutsIssuedIds s' := by
  obtain ⟨is, his, hone, hfresh⟩ := ClientOp.issues_fresh (ClientOp.issues_run hrun) hk
  obtain ⟨ps, hps, hone', hclean⟩ := (ClientOp.feeds_run hrun).clean hop
  refine ⟨⟨by rw [hshared]; exact hhandlers, ?_⟩, ?_, ?_⟩
  · exact hc.probes.of_put ps (by rw [hshared, hps]) (fun p hp => (hclean p hp).1) hheartbeat
      (by rw [hinspector])
  · exact ⟨is, by rw [hshared, his], hone, by rw [hshared]; exact hfresh⟩
  · refine ⟨ps, by rw [hshared, hps], hone', fun p hp id hid => .inl ?_⟩
    obtain ⟨-, hids⟩ := hclean p hp
    exact hids id hid

/-- The inspector enqueues probes, under increasing numbers. -/
theorem System.IdsClean.heartbeat {hb : HeartbeatState} {sh : Shared} {op : HeartbeatOp}
    {rest ops : List HeartbeatOp} (hc : s.IdsClean) (hops : s.heartbeat = op :: rest)
    (hrun : op.run s.inspector s.shared = some (hb, sh, ops))
    (hs' : s' = { s with inspector := hb, shared := sh, heartbeat := ops ++ rest }) :
    s'.IdsClean ∧ s.PutsIssuedIds s' := by
  have hissued : sh.issued = s.shared.issued := (HeartbeatOp.still_run hrun).issued
  subst hs'
  refine ⟨⟨?_, hc.probes.heartbeat hops hrun⟩, ?_, ?_⟩
  · show ∀ c, ∀ op ∈ s.handlers c, op.Clean sh.issued
    rw [hissued]
    exact hc.handlers
  · exact ⟨[], by rw [List.append_nil]; exact hissued, by simp, by simp⟩
  · cases HeartbeatOp.feeds_run hrun with
    | nothing hunfed =>
      exact ⟨[], by rw [List.append_nil]; exact hunfed.put, by simp, by simp⟩
    | @probe n t hroom =>
      refine ⟨[⟨HeartbeatOp.pingMessage n, .heartbeat n⟩], rfl, by simp, fun p hp id hid => ?_⟩
      rw [List.mem_singleton.1 hp] at hid ⊢
      rw [carriedIds_pingMessage] at hid
      exact .inr ⟨n, List.mem_singleton.1 hid, rfl, (hc.probes.inHand n t (by simp [hops])).2⟩

/-- **One step, where it meets the condition.** -/
theorem Stepped.putsIssuedIds (h : Stepped cfg s l s') (hs : s.Sound) (hk : s.shared.Keyed)
    (hc : s.IdsClean) (hok : s.idsReplaced cfg l = true) :
    s'.IdsClean ∧ s.PutsIssuedIds s' := by
  have hinert : ∀ (c : ℕ) (ops : List ClientOp), (∀ op ∈ ops, op.Clean s.shared.issued) →
      ∀ c', ∀ op ∈ Function.update s.handlers c ops c', op.Clean s.shared.issued :=
    fun c ops hops => forall_mem_update hc.handlers hops
  cases h with
  | connect =>
    exact ⟨⟨hinert _ _ (by simp [ClientOp.Clean]), hc.probes.of_put_eq rfl rfl rfl⟩,
      .of_eq rfl rfl⟩
  | receive hidle =>
    exact ⟨⟨hinert _ _ (by simp [ClientOp.Clean]), hc.probes.of_put_eq rfl rfl rfl⟩,
      .of_eq rfl rfl⟩
  | disconnect hidle | decodeError hidle | handshakeTimeout hidle =>
    exact ⟨⟨hinert _ _ (by simp [System.farewell, ClientOp.Clean]),
      hc.probes.of_put_eq rfl rfl rfl⟩, .of_eq rfl rfl⟩
  | handshakeTick | writerFails | reaperTick | childOutput | readerEnds | childExits | shutdown
  | elapse => exact hc.frame rfl rfl rfl rfl rfl
  | @handler c op rest ops sh hops hrun =>
    have hop : op.Clean s.shared.issued := hc.handlers c op (by simp [hops])
    have hopok : op.idsReplaced cfg.encodedLen s.shared = true := by
      simpa [System.idsReplaced, hops] using hok
    have hnew := ClientOp.clean_run hrun (hs.handlers c op (by simp [hops])) hopok
    have hsub : s.shared.issued ⊆ sh.issued := by
      obtain ⟨is, his, -⟩ := ClientOp.issues_fresh (ClientOp.issues_run hrun) hk
      rw [his]
      exact List.subset_append_left _ _
    refine hc.clientOp hk hop hrun rfl rfl rfl (forall_mem_update
      (fun c' op' hop' => (hc.handlers c' op' hop').mono hsub) fun op' hop' => ?_)
    rcases List.mem_append.1 hop' with hop' | hop'
    · exact hnew op' hop'
    · exact (hc.handlers c op' (by simp [hops, hop'])).mono hsub
  | @writer c op rest ops sh hops hrun =>
    have hop : op.Clean s.shared.issued := by
      rcases hs.writers c op (by simp [hops]) with rfl | rfl <;> trivial
    have hsub : s.shared.issued ⊆ sh.issued := by
      obtain ⟨is, his, -⟩ := ClientOp.issues_fresh (ClientOp.issues_run hrun) hk
      rw [his]
      exact List.subset_append_left _ _
    exact hc.clientOp hk hop hrun rfl rfl rfl
      fun c' op' hop' => (hc.handlers c' op' hop').mono hsub
  | @routerTurn event rest hidle hevents =>
    exact hc.frame (still_dispatch event rest s.shared).issued
      (unfed_dispatch event rest s.shared).put rfl rfl rfl
  | router hops hrun =>
    exact hc.frame (RouterOp.shrinks_run hrun).issued (RouterOp.unfed_run hrun).put rfl rfl rfl
  | reaper hops hrun =>
    exact hc.frame (ReaperOp.shrinks_run hrun).issued (ReaperOp.unfed_run hrun).put rfl rfl rfl
  | heartbeatTick hidle hen =>
    refine ⟨⟨hc.handlers, hc.probes.below, fun n t hmem => ?_, by simp⟩, .of_eq rfl rfl⟩
    cases List.mem_singleton.1 hmem
  | @heartbeatEvent id rest hidle hevents =>
    refine hc.frame rfl rfl rfl rfl ?_
    simp only [HeartbeatOp.handleEvent]
    split <;> rfl
  | heartbeat hops hrun => exact hc.heartbeat hops hrun rfl
  | manager hops hlock hrun =>
    exact hc.frame (ManagerOp.still_run hrun).issued (ManagerOp.unput_run hrun).put rfl rfl rfl

theorem idsClean_init (cfg : Config) : (System.init cfg).IdsClean where
  handlers := fun c op hop => by cases hop
  probes := ⟨fun q hq => (by cases hq), fun n t hmem => (by cases hmem), fun op hop => by cases hop⟩

/-- **Where the ids are replaced, the child sees no id but the mux's own.**
In a run each of whose steps meets the condition, each step issues and
enqueues ids as it should. -/
theorem puts_issuedIds (h : Reachable cfg (fun s l => s.idsReplaced cfg l = true) s)
    (hok : s.idsReplaced cfg l = true) (hstep : s.step cfg l = some s') :
    s.PutsIssuedIds s' := by
  have hclean : s.IdsClean := Run.Reach.invariant_of
    (I := System.IdsClean) (J := fun s => s.Sound ∧ s.shared.Keyed)
    (fun _ hr => ⟨Reachable.sound hr, Reachable.keyed hr⟩) (idsClean_init cfg)
    (fun _ _ _ hok hJ hc hs => ((stepped_of_step hs).putsIssuedIds hJ.1 hJ.2 hc hok).1) h
  exact ((stepped_of_step hstep).putsIssuedIds (Reachable.sound h) (Reachable.keyed h) hclean
    hok).2

/-- A client connects and asks for `initialize`; its request is next to be enqueued. -/
def forwardRun : List Label :=
  [.connect, .handler 1,
    .receive 1 (.object [("id", .number (.posInt 7)), ("method", .string "initialize")]),
    .handler 1, .handler 1]

/-- The request of that run, at the step that enqueues it. -/
theorem puts_issuedIds_forwardRun :
    ((Config.small.after (forwardRun ++ [.handler 1])).shared.put.map fun p =>
      (carriedIds p.msg).filterMap Value.asStr) = [["c1:1"]] ∧
      (Config.small.after forwardRun).PutsIssuedIds
        (Config.small.after (forwardRun ++ [.handler 1])) := by
  have hruns : Config.small.runs forwardRun = true := by decide +kernel
  have hruns' : Config.small.runs (forwardRun ++ [.handler 1]) = true := by decide +kernel
  have hmeets : Run.meets (System.step .small) (System.idsReplaced .small)
      (System.init .small) forwardRun = true := by decide +kernel
  have hok : (Config.small.after forwardRun).idsReplaced .small (.handler 1) = true := by
    decide +kernel
  exact ⟨by decide +kernel, puts_issuedIds (Config.small.reachable_of_meets _ hruns hmeets) hok
    (Config.small.step_after hruns hruns')⟩

/-- A client connects and sends a batch of one request, under the id it chose. -/
def batchRun : List Label :=
  [.connect, .handler 1,
    .receive 1 (.array
      [.object [("id", .number (.posInt 1)), ("method", .string "tools/list")]]),
    .handler 1]

/-- **A batch brings a client's own ids to the child.** -/
theorem not_puts_issuedIds_batchRun : ¬ ∀ (cfg : Config) (s s' : System) (l : Label),
    Reachable cfg Run.Any s → s.step cfg l = some s' → s.PutsIssuedIds s' := by
  intro hall
  have hruns : Config.small.runs batchRun = true := by decide +kernel
  have hruns' : Config.small.runs (batchRun ++ [.handler 1]) = true := by decide +kernel
  obtain ⟨ps, hps, -, hids⟩ := (hall _ _ _ _ (Config.small.reachable_after hruns)
    (Config.small.step_after hruns hruns')).puts
  have hbefore : (Config.small.after batchRun).shared.put = [] :=
    List.isEmpty_iff.1 (by decide +kernel)
  rw [hbefore, List.nil_append] at hps
  have hnumber : ∃ p ∈ (Config.small.after (batchRun ++ [.handler 1])).shared.put,
      ∃ id ∈ carriedIds p.msg, id.asStr.isNone = true := by decide +kernel
  obtain ⟨p, hp, id, hid, hnone⟩ := hnumber
  rw [hps] at hp
  rcases hids p hp id hid with ⟨i, -, rfl, -⟩ | ⟨n, rfl, -, -⟩ <;> cases hnone

end Mux

end VcOperator
