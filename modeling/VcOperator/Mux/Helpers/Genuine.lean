import VcOperator.Mux.Helpers.Moves
/-!
# Whose request it is

Every request the mux holds or answers was received, and it is held under
the client it was received from. `Shared.Sound` says so of the containers
of `MuxState` and of what was sent, `Sound` on operations says so of what
a task has in its hands, and `System.Sound` is the invariant of all of
them together.
-/

namespace VcOperator

namespace Mux

variable {rec rec' : List (Tagged Value)} {c : ℕ} {sh sh' : Shared}

/-! ## Genuine messages -/

/-- A frame received from client `c`. -/
def Genuine (rec : List (Tagged Value)) (c : ℕ) (msg : Tagged Value) : Prop :=
  msg ∈ rec ∧ msg.occ.client = c

/-- A frame received from client `c` that has an id. -/
def GenuineRequest (rec : List (Tagged Value)) (c : ℕ) (msg : Tagged Value) : Prop :=
  Genuine rec c msg ∧ (msg.val.get "id").isSome

/-- The id of a frame received from client `c`. -/
def GenuineId (rec : List (Tagged Value)) (c : ℕ) (lid : Tagged Value) : Prop :=
  ∃ msg, Genuine rec c msg ∧ msg.occ = lid.occ ∧ msg.val.get "id" = some lid.val

/-- A reply stands on the channel of the client that asked, under the id it
asked with (null, where it gave none); anything else has no id, or a null one. -/
def Delivery.Sound (rec : List (Tagged Value)) (d : Delivery) : Prop :=
  match d.answers with
  | some o => ∃ msg, Genuine rec d.client msg ∧ msg.occ = o ∧
      d.msg.get "id" = some ((msg.val.get "id").getD .null)
  | none => ∀ id, d.msg.get "id" = some id → id = .null

theorem Genuine.mono (hsub : rec ⊆ rec') {msg : Tagged Value} (h : Genuine rec c msg) :
    Genuine rec' c msg :=
  ⟨hsub h.1, h.2⟩

theorem GenuineRequest.mono (hsub : rec ⊆ rec') {msg : Tagged Value}
    (h : GenuineRequest rec c msg) : GenuineRequest rec' c msg :=
  ⟨h.1.mono hsub, h.2⟩

theorem GenuineId.mono (hsub : rec ⊆ rec') {lid : Tagged Value} (h : GenuineId rec c lid) :
    GenuineId rec' c lid := by
  obtain ⟨msg, hmsg, hocc⟩ := h
  exact ⟨msg, hmsg.mono hsub, hocc⟩

theorem Delivery.Sound.mono (hsub : rec ⊆ rec') {d : Delivery} (h : d.Sound rec) :
    d.Sound rec' := by
  unfold Delivery.Sound at h ⊢
  split at h
  · obtain ⟨msg, hmsg, hocc⟩ := h
    exact ⟨msg, hmsg.mono hsub, hocc⟩
  · exact h

theorem GenuineRequest.genuineId {msg : Tagged Value} {id : Value}
    (h : GenuineRequest rec c msg) (hid : msg.val.get "id" = some id) :
    GenuineId rec c ⟨id, msg.occ⟩ :=
  ⟨msg, h.1, rfl, hid⟩

theorem GenuineId.client_eq {lid : Tagged Value} (h : GenuineId rec c lid) :
    lid.occ.client = c := by
  obtain ⟨msg, hmsg, hocc, -⟩ := h
  rw [← hocc, hmsg.2]

/-- **A reply made out of a genuine id is sound.** -/
theorem sound_reply {lid : Tagged Value} (h : GenuineId rec c lid) {msg : Value}
    (hid : msg.get "id" = some lid.val) (origin : Origin) :
    Delivery.Sound rec ⟨c, msg, some lid.occ, origin⟩ := by
  obtain ⟨m, hm, hocc, hmid⟩ := h
  exact ⟨m, hm, hocc, by rw [hid, hmid, Option.getD_some]⟩

theorem sound_errorReply {lid : Tagged Value} (h : GenuineId rec c lid) (message : String) :
    (Shared.errorReply lid message c).Sound rec :=
  sound_reply h (get_id_errorResponse _ _) _

theorem sound_setId {lid : Tagged Value} (h : GenuineId rec c lid) {msg : Value}
    (hid : (msg.get "id").isSome) (origin : Origin) :
    Delivery.Sound rec ⟨c, setId msg lid.val, some lid.occ, origin⟩ := by
  obtain ⟨old, hold⟩ := Option.isSome_iff_exists.1 hid
  exact sound_reply h (get_id_setId hold _) _

/-! ## The shared state -/

/-- **Everything the shared state holds is genuine.** -/
structure Shared.Sound (sh : Shared) : Prop where
  /-- A frame's number is its place among the frames received. -/
  seq : ∀ (i : ℕ) (msg : Tagged Value), sh.received[i]? = some msg → msg.occ.seq = i
  known : ∀ msg ∈ sh.received, msg.occ.client < sh.st.nextClientId
  registered : ∀ c ∈ sh.st.clients, c < sh.st.nextClientId
  handshake : ∀ c, c ∈ sh.st.clients ↔ (sh.st.clientHandshakes.get c).isSome
  pending : ∀ p ∈ sh.st.pending.values, GenuineId sh.received p.clientId p.localId
  initWaiting : ∀ w ∈ sh.st.initWaiting, GenuineId sh.received w.1 w.2
  buffered : ∀ c, ∀ msg ∈ sh.st.bufferedMessages c, GenuineRequest sh.received c msg
  cached : ∀ v, sh.st.cachedInitialize = some v → (v.get "id").isSome
  sent : ∀ d ∈ sh.sent, d.Sound sh.received

/-- Two frames with one occurrence are the same frame. -/
theorem Shared.Sound.eq_of_occ_eq (hs : sh.Sound) {m m' : Tagged Value} (h : m ∈ sh.received)
    (h' : m' ∈ sh.received) (hocc : m.occ = m'.occ) : m = m' := by
  obtain ⟨i, hi⟩ := List.mem_iff_getElem?.1 h
  obtain ⟨j, hj⟩ := List.mem_iff_getElem?.1 h'
  have hij : i = j := by rw [← hs.seq i m hi, ← hs.seq j m' hj, hocc]
  rw [hij, hj, Option.some.injEq] at hi
  exact hi.symm

theorem Shared.Sound.seq_lt (hs : sh.Sound) {m : Tagged Value} (h : m ∈ sh.received) :
    m.occ.seq < sh.received.length := by
  obtain ⟨i, hi⟩ := List.mem_iff_getElem?.1 h
  rw [hs.seq i m hi]
  exact (List.getElem?_eq_some_iff.1 hi).1

theorem Shared.Sound.quiet (hs : sh.Sound) (h : Quiet sh sh') : sh'.Sound where
  seq := by rw [h.received]; exact hs.seq
  known := by rw [h.received, h.nextClientId]; exact hs.known
  registered := by rw [h.clients, h.nextClientId]; exact hs.registered
  handshake := fun c => by rw [h.clients, h.handshake]; exact hs.handshake c
  pending := by rw [h.pending, h.received]; exact hs.pending
  initWaiting := by rw [h.initWaiting, h.received]; exact hs.initWaiting
  buffered := fun c => by rw [h.buffered, h.received]; exact hs.buffered c
  cached := fun v hv => hs.cached v (h.cached_of_some hv)
  sent := by rw [h.sent, h.received]; exact hs.sent

theorem Shared.Sound.replyAll (hs : sh.Sound) {ds : List Delivery}
    (hds : ∀ d ∈ ds, d.Sound sh.received) : (sh.replyAll ds).Sound :=
  { hs with
    sent := by
      intro d hd
      rcases List.mem_append.1 hd with hd | hd
      · exact hs.sent d hd
      · exact hds d (List.mem_filter.1 hd).1 }

theorem Shared.Sound.reply (hs : sh.Sound) {d : Delivery} (hd : d.Sound sh.received) :
    (sh.reply d).Sound :=
  hs.replyAll fun d' hd' => by rw [List.mem_singleton.1 hd']; exact hd

theorem Shared.Sound.insertPending (hs : sh.Sound) {lid : Tagged Value}
    (hlid : GenuineId sh.received c lid) (isInitialize : Bool) :
    (ClientOp.insertPending sh c lid isInitialize).Sound :=
  { hs with
    pending := by
      intro p hp
      rcases HashMap.mem_values_insert hp with rfl | hp
      · exact hlid
      · exact hs.pending p hp }

theorem Shared.Sound.unregister (hs : sh.Sound) (c : ℕ) : (sh.unregister c).Sound :=
  { hs with
    registered := fun c' hc' => hs.registered c' (List.mem_filter.1 hc').1
    handshake := by
      intro c'
      replace hs := hs.handshake c'
      simp only [Shared.unregister, MuxState.unregisterClient, List.mem_filter, ne_eq,
        decide_not, Bool.not_eq_true', decide_eq_false_iff_not]
      rcases eq_or_ne c' c with rfl | hne
      · simp
      · rw [HashMap.get_remove_ne hne, ← hs]
        exact ⟨fun h => h.1, fun h => ⟨h, hne⟩⟩
    pending := fun p hp => hs.pending p (HashMap.mem_values_of_mem_retain hp)
    initWaiting := fun w hw => hs.initWaiting w (List.mem_filter.1 hw).1
    buffered := by
      intro c' msg hmsg
      rw [show (sh.unregister c).st.bufferedMessages c' = _ from
        MuxState.bufferedMessages_unregisterClient sh.st c c'] at hmsg
      split_ifs at hmsg
      · cases hmsg
      · exact hs.buffered c' msg hmsg }

/-! ## What the tasks have in their hands -/

/-- What a handler of client `c` works on was received from `c`. -/
def ClientOp.Sound (rec : List (Tagged Value)) (c : ℕ) : ClientOp → Prop
  | handleClientMessage msg | rejectTooLarge msg => Genuine rec c msg
  | checkHandshake msg | bufferMessage msg | forwardRequest msg => GenuineRequest rec c msg
  | flushBuffered buffered => ∀ msg ∈ buffered, GenuineRequest rec c msg
  | handleInitialize val lid => GenuineId rec c lid ∧ (val.get "id").isSome
  | _ => True

/-- What the router works on carries an id, and answers a genuine request. -/
def RouterOp.Sound (rec : List (Tagged Value)) : RouterOp → Prop
  | broadcast msg => ∀ id, msg.get "id" = some id → id = .null
  | takePending msg _ => (msg.get "id").isSome
  | cacheInitialize msg p | findTarget msg p | sendTarget msg p =>
    (msg.get "id").isSome ∧ GenuineId rec p.clientId p.localId
  | resetState _ | publishStatus => True

/-- The batch of the reaper is genuine. -/
def ReaperOp.Sound (rec : List (Tagged Value)) : ReaperOp → Prop
  | replyExpired expired => ∀ e ∈ expired, GenuineId rec e.1 e.2
  | readTimeout | reap _ | publishStatus => True

theorem ClientOp.Sound.mono (hsub : rec ⊆ rec') {op : ClientOp} (h : op.Sound rec c) :
    op.Sound rec' c := by
  cases op with
  | handleClientMessage msg | rejectTooLarge msg => exact Genuine.mono hsub h
  | checkHandshake msg | bufferMessage msg | forwardRequest msg =>
    exact GenuineRequest.mono hsub h
  | flushBuffered buffered => exact fun msg hmsg => (h msg hmsg).mono hsub
  | handleInitialize val lid => exact ⟨GenuineId.mono hsub h.1, h.2⟩
  | markServerInitialized _ | trySend _ | completeHandshake | send _ _ | updateQueueDepth
  | publishStatus | rejectHandshakeTimeout | unregisterClient | releasePermit => trivial

theorem RouterOp.Sound.mono (hsub : rec ⊆ rec') {op : RouterOp} (h : op.Sound rec) :
    op.Sound rec' := by
  cases op with
  | cacheInitialize msg p | findTarget msg p | sendTarget msg p =>
    exact ⟨h.1, GenuineId.mono hsub h.2⟩
  | broadcast _ | takePending _ _ | resetState _ | publishStatus => exact h

theorem ReaperOp.Sound.mono (hsub : rec ⊆ rec') {op : ReaperOp} (h : op.Sound rec) :
    op.Sound rec' := by
  cases op with
  | replyExpired expired => exact fun e he => GenuineId.mono hsub (h e he)
  | readTimeout | reap _ | publishStatus => trivial

end Mux

end VcOperator
