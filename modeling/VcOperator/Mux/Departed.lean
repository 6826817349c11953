import VcOperator.Mux.Helpers.Ids
import VcOperator.Mux.Helpers.Sound
/-!
# Work for clients that have left

`unregister_client` takes a client's entries out of `pending` and
`init_waiting`. It may be called by the client's writer task, while the
client's handler is in the middle of a message or has not read its last
one; and `is_handshake_complete` holds of a client that is not registered,
so the handler goes on. `owned_iff` says when a step leaves an entry
behind: exactly when a handler makes it for a client that has left.
-/

namespace VcOperator

namespace Mux

variable {sh sh' : Shared} {c : ℕ}

/-- **Every entry belongs to a registered client.** -/
structure Shared.Owned (sh : Shared) : Prop where
  pending : ∀ k p, sh.st.pending.get k = some p → p.clientId ∈ sh.st.clients
  initWaiting : ∀ w ∈ sh.st.initWaiting, w.1 ∈ sh.st.clients

/-! ## What an operation does to the entries -/

/-- No entry is made, and no client leaves. -/
structure KeepsWork (sh sh' : Shared) : Prop where
  clients : sh.st.clients ⊆ sh'.st.clients
  pending : ∀ k p, sh'.st.pending.get k = some p → sh.st.pending.get k = some p
  initWaiting : sh'.st.initWaiting ⊆ sh.st.initWaiting

/-- One entry is made for a client. -/
structure AddsWork (c : ℕ) (sh sh' : Shared) : Prop where
  clients : sh'.st.clients = sh.st.clients
  pending : ∀ k p, sh'.st.pending.get k = some p →
    sh.st.pending.get k = some p ∨ p.clientId = c
  initWaiting : ∀ w ∈ sh'.st.initWaiting, w ∈ sh.st.initWaiting ∨ w.1 = c
  made : (∃ k p, sh'.st.pending.get k = some p ∧ p.clientId = c) ∨
    ∃ w ∈ sh'.st.initWaiting, w.1 = c

theorem Quiet.keepsWork (h : Quiet sh sh') : KeepsWork sh sh' where
  clients := by rw [h.clients]; exact List.Subset.refl _
  pending := fun k p hp => by rwa [h.pending] at hp
  initWaiting := by rw [h.initWaiting]; exact List.Subset.refl _

theorem keepsWork_replyAll (sh : Shared) (ds : List Delivery) : KeepsWork sh (sh.replyAll ds) :=
  ⟨List.Subset.refl _, fun _ _ hp => hp, List.Subset.refl _⟩

theorem Shared.Owned.keepsWork (hs : sh.Owned) (h : KeepsWork sh sh') : sh'.Owned where
  pending := fun k p hp => h.clients (hs.pending k p (h.pending k p hp))
  initWaiting := fun w hw => h.clients (hs.initWaiting w (h.initWaiting hw))

/-- An entry that is made is owned exactly when its client is registered. -/
theorem Shared.Owned.addsWork_iff (hs : sh.Owned) (h : AddsWork c sh sh') :
    sh'.Owned ↔ c ∈ sh.st.clients := by
  constructor
  · intro hs'
    rw [← h.clients]
    rcases h.made with ⟨k, p, hp, rfl⟩ | ⟨w, hw, rfl⟩
    · exact hs'.pending k p hp
    · exact hs'.initWaiting w hw
  · intro hc
    refine ⟨fun k p hp => ?_, fun w hw => ?_⟩
    · rw [h.clients]
      rcases h.pending k p hp with hold | rfl
      · exact hs.pending k p hold
      · exact hc
    · rw [h.clients]
      rcases h.initWaiting w hw with hold | rfl
      · exact hs.initWaiting w hold
      · exact hc

/-- A client that is unregistered takes its entries with it. -/
theorem Shared.Owned.unregister (hs : sh.Owned) (c : ℕ) : (sh.unregister c).Owned where
  pending := by
    intro k p hp
    have hold := HashMap.get_of_get_retain hp
    have hne : p.clientId ≠ c := by
      have hmem := (List.mem_filter.1 (HashMap.mem_entries_iff.2 hp)).2
      simpa using hmem
    exact List.mem_filter.2 ⟨hs.pending k p hold, by simpa using hne⟩
  initWaiting := by
    intro w hw
    obtain ⟨hold, hne⟩ := List.mem_filter.1 hw
    exact List.mem_filter.2 ⟨hs.initWaiting w hold, hne⟩

theorem addsWork_insertPending (sh : Shared) (c : ℕ) (lid : Tagged Value) (isInitialize : Bool) :
    AddsWork c sh (ClientOp.insertPending sh c lid isInitialize) where
  clients := rfl
  pending := by
    intro k p hp
    replace hp : (sh.st.pending.insert (globalId c sh.st.nextGlobalId)
      ⟨c, lid, isInitialize, sh.now⟩).get k = some p := hp
    rcases eq_or_ne k (globalId c sh.st.nextGlobalId) with rfl | hne
    · rw [HashMap.get_insert, Option.some.injEq] at hp
      exact .inr (hp ▸ rfl)
    · rw [HashMap.get_insert_ne hne] at hp
      exact .inl hp
  initWaiting := fun w hw => .inl hw
  made := .inl ⟨_, _, HashMap.get_insert _ _ _, rfl⟩

namespace ClientOp

variable {op : ClientOp} {ops : List ClientOp}

/-- The operation makes an entry: it forwards a request, or it parks or
forwards an `initialize`. -/
def makesEntry (sh : Shared) : ClientOp → Bool
  | forwardRequest msg | flushBuffered (msg :: _) =>
    (msg.val.get "id").isSome && decide (sh.st.pending.len < maxPending)
  | handleInitialize _ _ =>
    sh.st.cachedInitialize.isNone &&
      (sh.st.initializing || decide (sh.st.pending.len < maxPending))
  | _ => false

/-- **What an operation of a handler does to the entries.** -/
inductive Works (c : ℕ) (sh : Shared) (op : ClientOp) (sh' : Shared) : Prop
  | keeps (hop : op.makesEntry sh = false) (h : KeepsWork sh sh')
  | unregisters (hop : op.makesEntry sh = false) (h : sh' = sh.unregister c)
  | adds (hop : op.makesEntry sh = true) (h : AddsWork c sh sh')

theorem Forwarded.works {msg : Tagged Value} (h : Forwarded c msg sh sh' ops)
    (hop : op.makesEntry sh =
      ((msg.val.get "id").isSome && decide (sh.st.pending.len < maxPending))) :
    Works c sh op sh' := by
  cases h with
  | noId hid => exact .keeps (by simp [hop, hid]) (Quiet.refl sh).keepsWork
  | refused hid hfull =>
    exact .keeps (by simp [hop, Nat.not_lt.2 hfull]) (keepsWork_replyAll sh _)
  | forwarded hid hroom => exact .adds (by simp [hop, hid, hroom]) (addsWork_insertPending ..)

theorem Initialized.works {val : Value} {lid : Tagged Value}
    (h : Initialized c val lid (initializePending sh c) sh' ops) :
    Works c sh (.handleInitialize val lid) sh' := by
  have hq := quiet_initializePending sh c
  have hkeep := hq.keepsWork
  have hcache : (initializePending sh c).st.cachedInitialize = sh.st.cachedInitialize ∧
      (initializePending sh c).st.initializing = sh.st.initializing := by
    unfold initializePending MuxState.markInitializePending
    split <;> exact ⟨rfl, rfl⟩
  cases h with
  | cached hcached =>
    rw [hcache.1] at hcached
    exact .keeps (by simp [makesEntry, hcached]) ⟨hkeep.clients, hkeep.pending, hkeep.initWaiting⟩
  | parked hcached hinit =>
    rw [hcache.1] at hcached
    rw [hcache.2] at hinit
    refine .adds (by simp [makesEntry, hcached, hinit]) ⟨hq.clients, fun k p hp => ?_, ?_, ?_⟩
    · exact .inl (hkeep.pending k p hp)
    · intro w hw
      rcases List.mem_append.1 hw with hw | hw
      · exact .inl (hkeep.initWaiting hw)
      · exact .inr (List.mem_singleton.1 hw ▸ rfl)
    · exact .inr ⟨(c, lid), List.mem_append_right _ (List.mem_singleton_self _), rfl⟩
  | refused hcached hinit hfull =>
    rw [hcache.1] at hcached
    rw [hcache.2] at hinit
    rw [hq.pending] at hfull
    exact .keeps (by simp [makesEntry, hcached, hinit, Nat.not_lt.2 hfull])
      ⟨hkeep.clients, hkeep.pending, hkeep.initWaiting⟩
  | forwarded hcached hinit hroom =>
    rw [hcache.1] at hcached
    rw [hcache.2] at hinit
    rw [hq.pending] at hroom
    have hadds := addsWork_insertPending (initializePending sh c) c lid true
    refine .adds (by simp [makesEntry, hcached, hinit, hroom])
      ⟨hadds.clients.trans hq.clients, fun k p hp => ?_, fun w hw => ?_, hadds.made⟩
    · exact (hadds.pending k p hp).imp_left (hkeep.pending k p)
    · exact (hadds.initWaiting w hw).imp_left fun hw => hkeep.initWaiting hw

theorem works_run {enc : Value → ℕ} (h : op.run enc c sh = some (sh', ops)) :
    Works c sh op sh' := by
  cases op with
  | forwardRequest msg =>
    rw [run, Option.some.injEq] at h
    exact (forwarded_of_run h).works rfl
  | flushBuffered buffered =>
    cases buffered with
    | nil => cases h; exact .keeps rfl (Quiet.refl sh).keepsWork
    | cons msg buffered =>
      cases hr : runForwardRequest c msg sh with
      | mk sh₁ ops₁ =>
        rw [run, hr] at h
        cases h
        exact (forwarded_of_run hr).works rfl
  | handleInitialize val lid =>
    rw [run, Option.some.injEq] at h
    exact (initialized_of_run h).works
  | trySend msg => exact .keeps rfl (quiet_trySend h).1.keepsWork
  | send msg isInitialize => exact .keeps rfl (quiet_send h).1.keepsWork
  | markServerInitialized msg => exact .keeps rfl (quiet_markServerInitialized h).1.keepsWork
  | checkHandshake msg =>
    simp only [run] at h
    split at h <;> cases h <;> exact .keeps rfl (Quiet.refl sh).keepsWork
  | unregisterClient => cases h; exact .unregisters rfl rfl
  | completeHandshake =>
    cases h
    simp only [MuxState.markHandshakeComplete]
    split <;> exact .keeps rfl ⟨List.Subset.refl _, fun _ _ hp => hp, List.Subset.refl _⟩
  | bufferMessage msg =>
    cases h
    simp only [MuxState.bufferMessage]
    split <;> exact .keeps rfl ⟨List.Subset.refl _, fun _ _ hp => hp, List.Subset.refl _⟩
  | rejectTooLarge _ | rejectHandshakeTimeout | handleClientMessage _ | updateQueueDepth
  | publishStatus | releasePermit =>
    cases h; exact .keeps rfl ⟨List.Subset.refl _, fun _ _ hp => hp, List.Subset.refl _⟩

end ClientOp

/-- The router makes no entry. -/
theorem RouterOp.keepsWork_run {order : List String} {op : RouterOp} {ops : List RouterOp}
    (h : op.run order sh = some (sh', ops)) : KeepsWork sh sh' := by
  have hpending := (shrinks_run h).pending
  cases op with
  | broadcast msg => cases h; exact keepsWork_replyAll sh _
  | takePending msg id =>
    simp only [run] at h
    split at h <;> cases h <;> exact ⟨List.Subset.refl _, hpending, List.Subset.refl _⟩
  | findTarget msg p =>
    simp only [run] at h
    split at h <;> cases h <;> exact (Quiet.refl sh).keepsWork
  | resetState reason =>
    simp only [run] at h
    split at h <;> cases h
    exact ⟨List.Subset.refl _, hpending, List.nil_subset _⟩
  | cacheInitialize msg p => cases h; exact ⟨List.Subset.refl _, hpending, List.nil_subset _⟩
  | sendTarget _ _ | publishStatus =>
    cases h; exact ⟨List.Subset.refl _, hpending, List.Subset.refl _⟩

/-- Nor does the reaper. -/
theorem ReaperOp.keepsWork_run {order : List String} {op : ReaperOp} {ops : List ReaperOp}
    (h : op.run order sh = some (sh', ops)) : KeepsWork sh sh' := by
  have hpending := (shrinks_run h).pending
  rw [run_frame h] at hpending ⊢
  exact ⟨List.Subset.refl _, hpending, List.Subset.refl _⟩

/-! ## The steps of a mux -/

/-- **The condition on a step**: a handler makes an entry only while its
client is registered. -/
def System.worksForRegistered (s : System) : Label → Bool
  | .handler c =>
    match s.handlers c with
    | op :: _ => !op.makesEntry s.shared || decide (c ∈ s.shared.st.clients)
    | [] => true
  | _ => true

variable {cfg : Config} {ok : System → Label → Prop} {s s' : System} {l : Label}

/-- The condition in terms of the handler's operation. -/
theorem System.worksForRegistered_handler {op : ClientOp} {rest : List ClientOp}
    (hops : s.handlers c = op :: rest) :
    s.worksForRegistered (.handler c) = true ↔
      (op.makesEntry s.shared = true → c ∈ s.shared.st.clients) := by
  simp only [worksForRegistered, hops, Bool.or_eq_true, Bool.not_eq_true', decide_eq_true_eq]
  cases op.makesEntry s.shared <;> simp

/-- **A step keeps the entries owned exactly when it makes none for a
client that has left.** -/
theorem Stepped.owned_iff (h : Stepped cfg s l s') (hs : s.Sound) (ho : s.shared.Owned) :
    s'.shared.Owned ↔ s.worksForRegistered l = true := by
  cases h with
  | @handler c op rest ops sh hops hrun =>
    rw [System.worksForRegistered_handler hops]
    rcases ClientOp.works_run hrun with ⟨hop, hk⟩ | ⟨hop, rfl⟩ | ⟨hop, hadds⟩
    · rw [hop]
      exact ⟨fun _ hf => absurd hf Bool.false_ne_true, fun _ => ho.keepsWork hk⟩
    · rw [hop]
      exact ⟨fun _ hf => absurd hf Bool.false_ne_true, fun _ => ho.unregister c⟩
    · rw [hop, ho.addsWork_iff hadds]
      exact ⟨fun hc _ => hc, fun hc => hc rfl⟩
  | @writer c op rest ops sh hops hrun =>
    refine ⟨fun _ => rfl, fun _ => ?_⟩
    rcases hs.writers c op (by simp [hops]) with rfl | rfl
    · cases hrun; exact ho.unregister c
    · cases hrun; exact ho.keepsWork (still_publishStatus _).keepsWork
  | connect =>
    refine ⟨fun _ => rfl, fun _ => ho.keepsWork ⟨?_, fun _ _ hp => hp, List.Subset.refl _⟩⟩
    exact fun _ hc => List.mem_insert_of_mem hc
  | @routerTurn event rest hidle hevents =>
    exact ⟨fun _ => rfl, fun _ => ho.keepsWork (still_dispatch event rest s.shared).keepsWork⟩
  | router hops hrun => exact ⟨fun _ => rfl, fun _ => ho.keepsWork (RouterOp.keepsWork_run hrun)⟩
  | reaper hops hrun => exact ⟨fun _ => rfl, fun _ => ho.keepsWork (ReaperOp.keepsWork_run hrun)⟩
  | heartbeat hops hrun =>
    exact ⟨fun _ => rfl, fun _ => ho.keepsWork (HeartbeatOp.still_run hrun).keepsWork⟩
  | manager hops hlock hrun =>
    exact ⟨fun _ => rfl, fun _ => ho.keepsWork (ManagerOp.still_run hrun).keepsWork⟩
  | receive | disconnect | decodeError | handshakeTimeout | handshakeTick | writerFails
  | reaperTick | heartbeatTick | heartbeatEvent | childOutput | readerEnds | childExits
  | shutdown | elapse =>
    exact ⟨fun _ => rfl, fun _ =>
      ho.keepsWork ⟨List.Subset.refl _, fun _ _ hp => hp, List.Subset.refl _⟩⟩

theorem owned_init (cfg : Config) : (System.init cfg).shared.Owned where
  pending := by
    intro k p hp
    replace hp : HashMap.get (∅ : HashMap String Pending) k = some p := hp
    rw [HashMap.get_empty] at hp
    cases hp
  initWaiting := fun w hw => by cases hw

/-- **No work is kept for a client that has left**, where handlers make
entries for registered clients only; and a step of any run breaks this
exactly when a handler makes an entry for a client that has left. -/
theorem entries_owned (cfg : Config) :
    (∀ s, Reachable cfg (fun s l => s.worksForRegistered l = true) s → s.shared.Owned) ∧
    ∀ s l s', Reachable cfg Run.Any s → s.shared.Owned → s.step cfg l = some s' →
      (s'.shared.Owned ↔ s.worksForRegistered l = true) := by
  refine ⟨fun s h => ?_, fun s l s' h ho hstep => ?_⟩
  · exact h.invariant_of (I := fun s => s.shared.Owned) (fun _ hr => Reachable.sound hr)
      (owned_init cfg) fun s l s' hok hs ho hstep => ((stepped_of_step hstep).owned_iff hs ho).2 hok
  · exact (stepped_of_step hstep).owned_iff (Reachable.sound h) ho

/-- A client that is registered sends its `initialize`, and leaves. -/
def leavesRun : List Label :=
  [.connect, .handler 1,
    .receive 1 (.object [("id", .number (.posInt 7)), ("method", .string "initialize")]),
    .handler 1, .handler 1, .handler 1, .handler 1, .handler 1, .disconnect 1]

/-- Its entry is owned there, up to the lock section that takes it out. -/
theorem entries_owned_leavesRun :
    (Config.small.after leavesRun).shared.st.pending.keys = ["c1:1"] ∧
      (Config.small.after leavesRun).shared.Owned := by
  have hruns : Config.small.runs leavesRun = true := by decide +kernel
  exact ⟨by decide +kernel, (entries_owned .small).1 _
    (Config.small.reachable_of_meets System.worksForRegistered hruns (by decide +kernel))⟩

/-- The writer of a client fails and unregisters it; its reader goes on, and
the request it reads is taken for one after the handshake. -/
def orphanRun : List Label :=
  [.connect, .handler 1, .writerFails 1, .writer 1, .writer 1,
    .receive 1 (.object [("id", .number (.posInt 7)), ("method", .string "tools/list")]),
    .handler 1, .handler 1, .handler 1]

/-- **An entry is left for a client that has left.** -/
theorem not_owned_orphanRun : ¬ ∀ (cfg : Config) (s : System), Reachable cfg Run.Any s →
    s.shared.Owned := by
  intro hall
  have hruns : Config.small.runs orphanRun = true := by decide +kernel
  have ho := hall .small _ (Config.small.reachable_after hruns)
  have hclients : (Config.small.after orphanRun).shared.st.clients = [] := by decide +kernel
  have hkeys : "c1:1" ∈ (Config.small.after orphanRun).shared.st.pending.keys := by decide +kernel
  obtain ⟨p, hp⟩ := Option.isSome_iff_exists.1 (HashMap.mem_keys_iff_get.1 hkeys)
  have hmem := ho.pending _ p hp
  rw [hclients] at hmem
  cases hmem

end Mux

end VcOperator
