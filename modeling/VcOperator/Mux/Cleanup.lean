import VcOperator.Mux.Helpers.Connections
/-!
# What a client leaves behind

`handle_client` unregisters its client after its reader loop. A frame that
does not decode leaves the function from within the loop, by the `?` on
it: the permit is dropped with the frame of the function, and the client
stays registered, with whatever is pending for it.
-/

namespace VcOperator

namespace Mux

variable {cfg : Config} {ok : System → Label → Prop} {s s' : System} {sh sh' : Shared}
  {l : Label} {c : ℕ}

/-- **Nothing of a client is left**: it is not registered, it has no handshake, and no
request of it is pending or waits for an `initialize`. -/
structure Shared.Forgotten (sh : Shared) (c : ℕ) : Prop where
  clients : c ∉ sh.st.clients
  handshake : sh.st.clientHandshakes.get c = none
  pending : ∀ k p, sh.st.pending.get k = some p → p.clientId ≠ c
  initWaiting : ∀ w ∈ sh.st.initWaiting, w.1 ≠ c

/-- The same, as a test. -/
def Shared.forgets (sh : Shared) (c : ℕ) : Bool :=
  !decide (c ∈ sh.st.clients) && (sh.st.clientHandshakes.get c).isNone &&
    sh.st.pending.values.all (fun p => p.clientId != c) &&
    sh.st.initWaiting.all (fun w => w.1 != c)

theorem Shared.forgets_iff : sh.forgets c = true ↔ sh.Forgotten c := by
  simp only [Shared.forgets, Bool.and_eq_true, Bool.not_eq_true', decide_eq_false_iff_not,
    Option.isNone_iff_eq_none, List.all_eq_true, bne_iff_ne]
  constructor
  · rintro ⟨⟨⟨hclients, hhandshake⟩, hpending⟩, hwaiting⟩
    exact ⟨hclients, hhandshake, fun k p hp => hpending p (HashMap.mem_values_of_get hp),
      hwaiting⟩
  · intro h
    refine ⟨⟨⟨h.clients, h.handshake⟩, fun p hp => ?_⟩, h.initWaiting⟩
    obtain ⟨k, hk⟩ := HashMap.mem_values_iff.1 hp
    exact h.pending k p hk

/-- `handle_client` has returned for a client. -/
structure System.Returned (s : System) (c : ℕ) : Prop where
  issued : c < s.shared.st.nextClientId
  readers : s.readers c = false
  handlers : s.handlers c = []

/-- **`handle_client` cleans up**: where it has returned, nothing of its client is left, and
no more clients are registered than there are permits. -/
structure System.CleansUp (cfg : Config) (s : System) : Prop where
  forgotten : ∀ c, s.Returned c → s.shared.Forgotten c
  bounded : s.shared.st.clients.length ≤ cfg.state.maxActiveClients

/-- **The condition on a step**: a frame that does not decode comes from a client that is
forgotten already. -/
def System.decodesUntilGone (s : System) : Label → Bool
  | .decodeError c => s.shared.forgets c
  | _ => true

/-! ## Who makes entries of a client -/

/-- The step is an operation of the client's handler that makes an entry. -/
def System.MakesEntry (s : System) (l : Label) (c : ℕ) : Prop :=
  ∃ op rest, l = .handler c ∧ s.handlers c = op :: rest ∧ op.makesEntry s.shared = true

/-- No step but a connection registers a client. -/
theorem Routed.clients_subset (h : Routed cfg s s') (hs : s.Sound) :
    s' = s.connect ∨ s'.shared.st.clients ⊆ s.shared.st.clients := by
  rcases h.record hs with hconnect | ⟨_, _, -, rfl⟩ | hrecord
  · exact .inl hconnect
  · exact .inr (List.Subset.refl _)
  · exact .inr hrecord.clients

/-- **An entry is old, or the step makes it for its own client.** -/
theorem Stepped.entries (h : Stepped cfg s l s') (hs : s.Sound) :
    (∀ k p, s'.shared.st.pending.get k = some p →
      s.shared.st.pending.get k = some p ∨ s.MakesEntry l p.clientId) ∧
    ∀ w ∈ s'.shared.st.initWaiting, w ∈ s.shared.st.initWaiting ∨ s.MakesEntry l w.1 := by
  have hkeeps : ∀ {sh' : Shared}, KeepsWork s.shared sh' →
      (∀ k p, sh'.st.pending.get k = some p →
        s.shared.st.pending.get k = some p ∨ s.MakesEntry l p.clientId) ∧
      ∀ w ∈ sh'.st.initWaiting, w ∈ s.shared.st.initWaiting ∨ s.MakesEntry l w.1 :=
    fun hk => ⟨fun k p hp => .inl (hk.pending k p hp), fun w hw => .inl (hk.initWaiting hw)⟩
  have hunregister : ∀ c, (∀ k p, (s.shared.unregister c).st.pending.get k = some p →
        s.shared.st.pending.get k = some p ∨ s.MakesEntry l p.clientId) ∧
      ∀ w ∈ (s.shared.unregister c).st.initWaiting,
        w ∈ s.shared.st.initWaiting ∨ s.MakesEntry l w.1 :=
    fun c => ⟨fun k p hp => .inl (HashMap.get_of_get_retain hp),
      fun w hw => .inl (List.mem_filter.1 hw).1⟩
  cases h with
  | @handler c op rest ops sh hops hrun =>
    rcases ClientOp.works_run hrun with ⟨hop, hk⟩ | ⟨hop, rfl⟩ | ⟨hop, hadds⟩
    · exact hkeeps hk
    · exact hunregister c
    · refine ⟨fun k p hp => (hadds.pending k p hp).imp_right ?_,
        fun w hw => (hadds.initWaiting w hw).imp_right ?_⟩
      · rintro rfl
        exact ⟨op, rest, rfl, hops, hop⟩
      · rintro rfl
        exact ⟨op, rest, rfl, hops, hop⟩
  | @writer c op rest ops sh hops hrun =>
    rcases hs.writers c op (by simp [hops]) with rfl | rfl
    · cases hrun; exact hunregister c
    · cases hrun; exact hkeeps (still_publishStatus _).keepsWork
  | @routerTurn event rest hidle hevents =>
    exact hkeeps (still_dispatch event rest s.shared).keepsWork
  | router hops hrun => exact hkeeps (RouterOp.keepsWork_run hrun)
  | reaper hops hrun => exact hkeeps (ReaperOp.keepsWork_run hrun)
  | heartbeat hops hrun => exact hkeeps (HeartbeatOp.still_run hrun).keepsWork
  | manager hops hlock hrun => exact hkeeps (ManagerOp.still_run hrun).keepsWork
  | connect | receive | disconnect | decodeError | handshakeTimeout | handshakeTick | writerFails
  | reaperTick | heartbeatTick | heartbeatEvent | childOutput | readerEnds | childExits
  | shutdown | elapse =>
    exact ⟨fun k p hp => .inl hp, fun w hw => .inl hw⟩

/-- A client without entries that is not registered has no handshake either. -/
theorem Shared.Forgotten.of_clients (hs : sh.Sound) (hc : c ∉ sh.st.clients)
    (hpending : ∀ k p, sh.st.pending.get k = some p → p.clientId ≠ c)
    (hwaiting : ∀ w ∈ sh.st.initWaiting, w.1 ≠ c) : sh.Forgotten c where
  clients := hc
  handshake := by
    have hnone : ¬ (sh.st.clientHandshakes.get c).isSome = true :=
      fun h => hc ((hs.handshake c).2 h)
    simpa using hnone
  pending := hpending
  initWaiting := hwaiting

/-- **A client that is forgotten stays so**, unless it connects or its handler makes an
entry. -/
theorem System.Sound.forgotten (hs : s.Sound) (hstep : s.step cfg l = some s')
    (hc : s.shared.Forgotten c) (hmakes : ¬ s.MakesEntry l c)
    (hconnect : s' = s.connect → c ≠ s.shared.st.nextClientId) : s'.shared.Forgotten c := by
  have hrouted := routed_of_step hstep
  obtain ⟨hpending, hwaiting⟩ := (stepped_of_step hstep).entries hs
  refine .of_clients (hrouted.sound hs).shared (fun hmem => ?_) (fun k p hp => ?_) fun w hw => ?_
  · rcases hrouted.clients_subset hs with heq | hsub
    · have hne := hconnect heq
      subst heq
      rcases List.mem_insert_iff.1 hmem with rfl | hold
      · exact hne rfl
      · exact hc.clients hold
    · exact hc.clients (hsub hmem)
  · rcases hpending k p hp with hold | hnew
    · exact hc.pending k p hold
    · rintro rfl
      exact hmakes hnew
  · rcases hwaiting w hw with hold | hnew
    · exact hc.initWaiting w hold
    · rintro rfl
      exact hmakes hnew

/-- `unregister_client` forgets its client. -/
theorem Shared.forgotten_unregister (sh : Shared) (c : ℕ) : (sh.unregister c).Forgotten c where
  clients := fun hmem => by simpa using (List.mem_filter.1 hmem).2
  handshake := HashMap.get_remove ..
  pending := fun k p hp => by
    have hmem := (List.mem_filter.1 (HashMap.mem_entries_iff.2 hp)).2
    simpa using hmem
  initWaiting := fun w hw => by simpa using (List.mem_filter.1 hw).2

/-! ## Permits and the list of clients -/

/-- **Who touches the list of clients and the permits**: an operation of a handler leaves
both alone, unless it unregisters its client or drops its permit. -/
theorem ClientOp.seats_run {enc : Value → ℕ} {op : ClientOp} {ops : List ClientOp}
    (h : op.run enc c sh = some (sh', ops)) :
    (op = .releasePermit ∧ sh' = { sh with availablePermits := sh.availablePermits + 1 }) ∨
      (op = .unregisterClient ∧ sh' = sh.unregister c) ∨
      op ≠ .releasePermit ∧ sh'.st.clients = sh.st.clients ∧
        sh'.availablePermits = sh.availablePermits := by
  have hforwards : ∀ {msg : Tagged Value} {sh₁ : Shared} {ops₁ : List ClientOp},
      Forwarded c msg sh sh₁ ops₁ →
        sh₁.st.clients = sh.st.clients ∧ sh₁.availablePermits = sh.availablePermits := by
    rintro _ _ _ (_ | _ | _) <;> exact ⟨rfl, rfl⟩
  cases op with
  | releasePermit => cases h; exact .inl ⟨rfl, rfl⟩
  | unregisterClient => cases h; exact .inr (.inl ⟨rfl, rfl⟩)
  | forwardRequest msg =>
    rw [run, Option.some.injEq] at h
    exact .inr (.inr ⟨by simp, hforwards (forwarded_of_run h)⟩)
  | flushBuffered buffered =>
    cases buffered with
    | nil => cases h; exact .inr (.inr ⟨by simp, rfl, rfl⟩)
    | cons msg buffered =>
      cases hr : runForwardRequest c msg sh with
      | mk sh₁ ops₁ =>
        rw [run, hr] at h
        cases h
        exact .inr (.inr ⟨by simp, hforwards (forwarded_of_run hr)⟩)
  | handleInitialize val lid =>
    rw [run, Option.some.injEq] at h
    have hclients : (initializePending sh c).st.clients = sh.st.clients :=
      (quiet_initializePending sh c).clients
    cases initialized_of_run h <;> exact .inr (.inr ⟨by simp, hclients, rfl⟩)
  | send msg isInitialize =>
    simp only [run] at h
    split at h
    · cases h; exact .inr (.inr ⟨by simp, rfl, rfl⟩)
    · split at h <;> cases h
      cases isInitialize <;> exact .inr (.inr ⟨by simp, rfl, rfl⟩)
  | markServerInitialized msg | trySend msg | checkHandshake msg =>
    simp only [run] at h
    split at h <;> cases h <;> exact .inr (.inr ⟨by simp, rfl, rfl⟩)
  | completeHandshake =>
    cases h
    obtain ⟨hs, hst, -⟩ := sh.st.markHandshakeComplete_spec c
    exact .inr (.inr ⟨by simp, by rw [hst], rfl⟩)
  | bufferMessage msg =>
    cases h
    obtain ⟨hs, hst, -⟩ := sh.st.bufferMessage_spec c msg
    exact .inr (.inr ⟨by simp, by rw [hst], rfl⟩)
  | handleClientMessage _ | rejectTooLarge _ | rejectHandshakeTimeout | updateQueueDepth
  | publishStatus => cases h; exact .inr (.inr ⟨by simp, rfl, rfl⟩)

/-- No operation of a message goes on with the end of `handle_client`. -/
theorem ClientOp.releasePermit_notMem {enc : Value → ℕ} {op : ClientOp} {ops : List ClientOp}
    (h : op.run enc c sh = some (sh', ops)) : .releasePermit ∉ ops :=
  fun hmem => by cases goesOn_of_run h hmem

/-- A client whose `handle_client` runs holds a permit: until the function's frame is gone. -/
def System.Holds (s : System) (c : ℕ) : Prop :=
  s.readers c = true ∨ .releasePermit ∈ s.handlers c

/-- What `handle_client` does after its loop, at most. -/
def lastOps : List ClientOp := .rejectHandshakeTimeout :: System.farewell

theorem suffix_lastOps {op : ClientOp} {rest : List ClientOp} (h : op :: rest <:+ lastOps) :
    (op = .rejectHandshakeTimeout ∧ rest = System.farewell) ∨
      (op = .unregisterClient ∧ rest = [.publishStatus, .releasePermit]) ∨
      (op = .publishStatus ∧ rest = [.releasePermit]) ∨ op = .releasePermit ∧ rest = [] := by
  simpa [lastOps, System.farewell, List.suffix_cons_iff] using h

/-- Those operations make no entry, and go on with nothing. -/
theorem of_suffix_lastOps {enc : Value → ℕ} {op : ClientOp} {rest ops : List ClientOp}
    (h : op :: rest <:+ lastOps) (hrun : op.run enc c sh = some (sh', ops)) :
    op.makesEntry sh = false ∧ ops = [] := by
  rcases suffix_lastOps h with ⟨rfl, -⟩ | ⟨rfl, -⟩ | ⟨rfl, -⟩ | ⟨rfl, -⟩ <;> cases hrun <;>
    exact ⟨rfl, rfl⟩

/-- **The seats of a mux**: after its loop a handler does what is left of `lastOps`; the
clients that hold a permit, and the permits that are free, are as many as there were
at the start. -/
structure System.Seated (cfg : Config) (s : System) : Prop where
  ended : ∀ c, s.readers c = false → s.handlers c <:+ lastOps
  reading : ∀ c, s.readers c = true → .releasePermit ∉ s.handlers c
  nodup : s.shared.st.clients.Nodup
  permits : ∃ holders : List ℕ, holders.Nodup ∧
    (∀ c, c ∈ holders ↔ s.Holds c) ∧ (∀ c ∈ holders, c < s.shared.st.nextClientId) ∧
    holders.length + s.shared.availablePermits = cfg.state.maxActiveClients

namespace System.Seated

/-- Where no seat changes hands, all stay as they are. -/
theorem of_same (hs : s.Seated cfg) (hreaders : s'.readers = s.readers)
    (hhandlers : s'.handlers = s.handlers) (hclients : s'.shared.st.clients.Nodup)
    (hpermits : s'.shared.availablePermits = s.shared.availablePermits)
    (hnext : s.shared.st.nextClientId ≤ s'.shared.st.nextClientId) : s'.Seated cfg where
  ended := by
    rw [hreaders, hhandlers]
    exact hs.ended
  reading := by
    rw [hreaders, hhandlers]
    exact hs.reading
  nodup := hclients
  permits := by
    obtain ⟨holders, hnodup, hmem, hissued, hcount⟩ := hs.permits
    refine ⟨holders, hnodup, fun c => ?_, fun c hc => ?_, hpermits ▸ hcount⟩
    · rw [hmem, Holds, Holds, hreaders, hhandlers]
    · exact Nat.lt_of_lt_of_le (hissued c hc) hnext

/-- The handler of one client goes on, and the client keeps or gives back what it held. -/
theorem of_handler (hs : s.Seated cfg) (c₀ : ℕ) {xs : List ClientOp}
    (hreaders : ∀ c, c ≠ c₀ → s'.readers c = s.readers c)
    (hhandlers : s'.handlers = Function.update s.handlers c₀ xs)
    (hended : s'.readers c₀ = false → xs <:+ lastOps)
    (hreading : s'.readers c₀ = true → .releasePermit ∉ xs)
    (hholds : s'.Holds c₀ ↔ s.Holds c₀)
    (hclients : s'.shared.st.clients.Nodup)
    (hpermits : s'.shared.availablePermits = s.shared.availablePermits)
    (hnext : s.shared.st.nextClientId ≤ s'.shared.st.nextClientId) : s'.Seated cfg where
  ended := by
    intro c hc
    rw [hhandlers]
    rcases eq_or_ne c c₀ with rfl | hne
    · rw [Function.update_self]
      exact hended hc
    · rw [Function.update_of_ne hne]
      exact hs.ended c (hreaders c hne ▸ hc)
  reading := by
    intro c hc
    rw [hhandlers]
    rcases eq_or_ne c c₀ with rfl | hne
    · rw [Function.update_self]
      exact hreading hc
    · rw [Function.update_of_ne hne]
      exact hs.reading c (hreaders c hne ▸ hc)
  nodup := hclients
  permits := by
    obtain ⟨holders, hnodup, hmem, hissued, hcount⟩ := hs.permits
    refine ⟨holders, hnodup, fun c => ?_, fun c hc => ?_, hpermits ▸ hcount⟩
    · rw [hmem]
      rcases eq_or_ne c c₀ with rfl | hne
      · exact hholds.symm
      · rw [Holds, Holds, hreaders c hne, hhandlers, Function.update_of_ne hne]
    · exact Nat.lt_of_lt_of_le (hissued c hc) hnext

/-- A client sits down. -/
theorem connect (hs : s.Seated cfg) (hpermit : s.shared.availablePermits ≠ 0) :
    s.connect.Seated cfg where
  ended := by
    intro c hc
    rw [connect_readers] at hc
    have hne : c ≠ s.shared.st.nextClientId := by
      rintro rfl
      rw [Function.update_self] at hc
      cases hc
    rw [connect_handlers, Function.update_of_ne hne]
    rw [Function.update_of_ne hne] at hc
    exact hs.ended c hc
  reading := by
    intro c hc
    rw [connect_readers] at hc
    rw [connect_handlers]
    rcases eq_or_ne c s.shared.st.nextClientId with rfl | hne
    · rw [Function.update_self]
      simp
    · rw [Function.update_of_ne hne] at hc ⊢
      exact hs.reading c hc
  nodup := hs.nodup.insert
  permits := by
    obtain ⟨holders, hnodup, hmem, hissued, hcount⟩ := hs.permits
    have hnew : s.shared.st.nextClientId ∉ holders := fun h => Nat.lt_irrefl _ (hissued _ h)
    refine ⟨s.shared.st.nextClientId :: holders, List.nodup_cons.2 ⟨hnew, hnodup⟩, fun c => ?_,
      fun c hc => ?_, ?_⟩
    · rw [List.mem_cons, hmem, Holds, Holds, connect_readers, connect_handlers]
      rcases eq_or_ne c s.shared.st.nextClientId with rfl | hne
      · simp
      · rw [Function.update_of_ne hne, Function.update_of_ne hne]
        exact or_iff_right hne
    · rcases List.mem_cons.1 hc with rfl | hc
      · exact Nat.lt_succ_self _
      · exact Nat.lt_succ_of_lt (hissued c hc)
    · show (_ :: holders).length + (s.shared.availablePermits - 1) = _
      rw [List.length_cons]
      omega

/-- And leaves. -/
theorem release (hs : s.Seated cfg) {c₀ : ℕ} {rest : List ClientOp}
    (hops : s.handlers c₀ = .releasePermit :: rest) :
    System.Seated cfg { s with
      shared := { s.shared with availablePermits := s.shared.availablePermits + 1 }
      handlers := Function.update s.handlers c₀ rest } := by
  have hended : s.readers c₀ = false := by
    by_contra hreads
    exact hs.reading c₀ (by simpa using hreads) (hops ▸ List.mem_cons_self)
  have hrest : rest = [] := by
    rcases suffix_lastOps (hops ▸ hs.ended c₀ hended) with ⟨h, -⟩ | ⟨h, -⟩ | ⟨h, -⟩ | ⟨-, h⟩
    · cases h
    · cases h
    · cases h
    · exact h
  subst hrest
  refine ⟨fun c hc => ?_, fun c hc => ?_, hs.nodup, ?_⟩
  · rcases eq_or_ne c c₀ with rfl | hne
    · simp only [Function.update_self]
      exact List.nil_suffix
    · simp only [Function.update_of_ne hne]
      exact hs.ended c hc
  · rcases eq_or_ne c c₀ with rfl | hne
    · simp only [Function.update_self]
      exact List.not_mem_nil
    · simp only [Function.update_of_ne hne]
      exact hs.reading c hc
  · obtain ⟨holders, hnodup, hmem, hissued, hcount⟩ := hs.permits
    have hheld : c₀ ∈ holders := (hmem c₀).2 (.inr (hops ▸ List.mem_cons_self))
    refine ⟨holders.erase c₀, hnodup.erase c₀, fun c => ?_,
      fun c hc => hissued c (List.mem_of_mem_erase hc), ?_⟩
    · rw [hnodup.mem_erase_iff, hmem, Holds, Holds]
      rcases eq_or_ne c c₀ with rfl | hne
      · simp [hended]
      · simp [hne]
    · have hlen := List.length_erase_of_mem hheld
      have hpos := List.length_pos_of_mem hheld
      show (holders.erase c₀).length + (s.shared.availablePermits + 1) = _
      omega

end System.Seated

/-- **Every step keeps the seats.** -/
theorem System.Seated.of_step (hs : s.Seated cfg) (hsound : s.Sound)
    (hstep : s.step cfg l = some s') : s'.Seated cfg := by
  have hnext := (routed_of_step hstep).nextClientId_le hsound
  have hreader : ∀ {c : ℕ} {ops : List ClientOp}, s.readers c = true → ops <:+ lastOps →
      .releasePermit ∈ ops → (s.endReader c ops).Seated cfg := by
    intro c ops hreads hops hrelease
    refine hs.of_handler c (fun c' hne => Function.update_of_ne hne ..) rfl
      (fun _ => hops) (fun hreads' => ?_) ?_ hs.nodup rfl le_rfl
    · rw [endReader_readers, Function.update_self] at hreads'
      cases hreads'
    · refine ⟨fun _ => .inl hreads, fun _ => .inr ?_⟩
      rw [endReader_handlers, Function.update_self]
      exact hrelease
  cases stepped_of_step hstep with
  | connect hpermit => exact hs.connect hpermit
  | @receive c msg hidle =>
    refine hs.of_handler c (fun _ _ => rfl) rfl (fun hended => ?_) (fun _ => by simp) ?_
      hs.nodup rfl hnext
    · rw [show (s.receive c msg).readers c = s.readers c from rfl, hidle.1] at hended
      cases hended
    · exact ⟨fun _ => .inl hidle.1, fun _ => .inl hidle.1⟩
  | disconnect hidle =>
    exact hreader hidle.1 (by simp [lastOps]) (by simp [System.farewell])
  | decodeError hidle =>
    exact hreader hidle.1 (by simp [lastOps, System.farewell, List.suffix_cons_iff]) (by simp)
  | handshakeTimeout hidle =>
    exact hreader hidle.1 (by simp [lastOps]) (by simp [System.farewell])
  | @handler c op rest ops sh hops hrun =>
    -- an operation that does not drop the permit leaves the seat to the rest
    have hkept : op ≠ .releasePermit → sh.st.clients.Nodup →
        sh.availablePermits = s.shared.availablePermits →
        System.Seated cfg
          { s with shared := sh, handlers := Function.update s.handlers c (ops ++ rest) } := by
      intro hop hclients hpermits
      have hnone := ClientOp.releasePermit_notMem hrun
      have hiff : ClientOp.releasePermit ∈ ops ++ rest ↔ .releasePermit ∈ s.handlers c := by
        rw [hops, List.mem_append, List.mem_cons, or_iff_right hnone, or_iff_right hop.symm]
      refine hs.of_handler c (fun _ _ => rfl) rfl (fun hended => ?_) (fun hreads => ?_) ?_
        hclients hpermits hnext
      · have hsuffix := hops ▸ hs.ended c hended
        rw [(of_suffix_lastOps hsuffix hrun).2, List.nil_append]
        exact (List.suffix_cons op rest).trans hsuffix
      · rw [hiff]
        exact hs.reading c hreads
      · refine or_congr Iff.rfl ?_
        show ClientOp.releasePermit ∈ Function.update s.handlers c (ops ++ rest) c ↔ _
        rw [Function.update_self, hiff]
    rcases ClientOp.seats_run hrun with ⟨rfl, rfl⟩ | ⟨rfl, rfl⟩ | ⟨hop, hclients, hpermits⟩
    · cases hrun
      exact hs.release hops
    · exact hkept (by simp) (hs.nodup.filter _) rfl
    · exact hkept hop (hclients ▸ hs.nodup) hpermits
  | @writer c op rest ops sh hops hrun =>
    rcases hsound.writers c op (by simp [hops]) with rfl | rfl
    · cases hrun
      exact hs.of_same rfl rfl (hs.nodup.filter _) rfl le_rfl
    · cases hrun
      exact hs.of_same rfl rfl hs.nodup rfl le_rfl
  | @routerTurn event rest hidle hevents =>
    have hframe := RouterOp.dispatch_frame event rest s.shared
    refine hs.of_same rfl rfl ?_ (congrArg (·.availablePermits) hframe) hnext
    rw [hframe]
    exact hs.nodup
  | router hops hrun =>
    have hframe := RouterOp.run_frame hrun
    refine hs.of_same rfl rfl ?_ (congrArg (·.availablePermits) hframe) hnext
    rw [hframe]
    exact hs.nodup
  | reaper hops hrun =>
    have hframe := ReaperOp.run_frame hrun
    refine hs.of_same rfl rfl ?_ (congrArg (·.availablePermits) hframe) hnext
    rw [hframe]
    exact hs.nodup
  | heartbeat hops hrun =>
    have hframe := HeartbeatOp.run_frame hrun
    refine hs.of_same rfl rfl ?_ (congrArg (·.availablePermits) hframe) hnext
    rw [hframe]
    exact hs.nodup
  | manager hops hlock hrun =>
    have hframe := ManagerOp.run_frame hrun
    refine hs.of_same rfl rfl ?_ (congrArg (·.availablePermits) hframe) hnext
    rw [hframe]
    exact hs.nodup
  | handshakeTick | writerFails | reaperTick | heartbeatTick | heartbeatEvent | childOutput
  | readerEnds | childExits | shutdown | elapse => exact hs.of_same rfl rfl hs.nodup rfl le_rfl

theorem seated_init (cfg : Config) : (System.init cfg).Seated cfg where
  ended := fun _ _ => List.nil_suffix
  reading := fun c hreads => by cases hreads
  nodup := .nil
  permits := by
    refine ⟨[], .nil, fun c => ⟨fun hc => (List.not_mem_nil hc).elim, ?_⟩, by simp,
      Nat.zero_add _⟩
    rintro (hreads | hmem)
    · cases hreads
    · cases hmem

theorem Reachable.seated (h : Reachable cfg ok s) : s.Seated cfg :=
  h.invariant_of (fun _ hr => Reachable.sound hr) (seated_init cfg)
    fun _ _ _ _ hsound hs hstep => hs.of_step hsound hstep

/-! ## What is left of a client whose loop has ended -/

/-- **A client whose loop has ended is forgotten**, or is going to be. -/
def System.Leaves (s : System) : Prop :=
  ∀ c, s.readers c = false → .unregisterClient ∈ s.handlers c ∨ s.shared.Forgotten c

/-- No entry is made for a client whose loop has ended. -/
theorem System.Seated.not_makesEntry (hs : s.Seated cfg) (hended : s.readers c = false) :
    ¬ s.MakesEntry l c := by
  rintro ⟨op, rest, -, hops, hmakes⟩
  have hsuffix := hops ▸ hs.ended c hended
  rcases suffix_lastOps hsuffix with ⟨rfl, -⟩ | ⟨rfl, -⟩ | ⟨rfl, -⟩ | ⟨rfl, -⟩ <;> cases hmakes

/-- **Every step leaves it so**, when a frame that does not decode comes from a client that
is forgotten already. -/
theorem System.Leaves.of_step (hs : s.Leaves) (hok : s.decodesUntilGone l = true)
    (hsound : s.Sound) (hseated : s.Seated cfg) (hstep : s.step cfg l = some s') : s'.Leaves := by
  intro c hended'
  -- a client whose loop had ended before has its handler do one operation, or none
  have hold : s.readers c = false → (s'.handlers c = s.handlers c ∨
      l = .handler c ∧ ∃ op rest, s.handlers c = op :: rest ∧ s'.handlers c = rest ∧
        (op = .unregisterClient → s'.shared = s.shared.unregister c)) →
      .unregisterClient ∈ s'.handlers c ∨ s'.shared.Forgotten c := by
    intro hended hhandlers
    have hforgotten : s.shared.Forgotten c → s'.shared.Forgotten c := by
      intro hc
      refine hsound.forgotten hstep hc (hseated.not_makesEntry hended) ?_
      rintro rfl rfl
      rw [System.connect_readers, Function.update_self] at hended'
      cases hended'
    rcases hhandlers with hsame | ⟨-, op, rest, hops, hrest, hdone⟩
    · rw [hsame]
      exact (hs c hended).imp_right hforgotten
    · rcases hs c hended with hmem | hc
      · rw [hops] at hmem
        rcases List.mem_cons.1 hmem with heq | hmem
        · rw [hdone heq.symm]
          exact .inr (Shared.forgotten_unregister ..)
        · exact .inl (hrest ▸ hmem)
      · exact .inr (hforgotten hc)
  have hends : ∀ {c₀ : ℕ} {ops : List ClientOp}, s' = s.endReader c₀ ops →
      (.unregisterClient ∈ ops ∨ s.shared.Forgotten c₀) →
      .unregisterClient ∈ s'.handlers c ∨ s'.shared.Forgotten c := by
    intro c₀ ops hs' hops
    rcases eq_or_ne c c₀ with rfl | hne
    · rw [hs', System.endReader_handlers, Function.update_self]
      exact hops
    · refine hold ?_ (.inl ?_)
      · rw [hs', System.endReader_readers, Function.update_of_ne hne] at hended'
        exact hended'
      · rw [hs', System.endReader_handlers, Function.update_of_ne hne]
  cases stepped_of_step hstep with
  | connect =>
    have hne : c ≠ s.shared.st.nextClientId := by
      rintro rfl
      rw [System.connect_readers, Function.update_self] at hended'
      cases hended'
    refine hold ?_ (.inl ?_)
    · rw [System.connect_readers, Function.update_of_ne hne] at hended'
      exact hended'
    · rw [System.connect_handlers, Function.update_of_ne hne]
  | @receive c₀ msg hidle =>
    have hne : c ≠ c₀ := by
      rintro rfl
      rw [show (s.receive c msg).readers c = s.readers c from rfl, hidle.1] at hended'
      cases hended'
    exact hold hended' (.inl (Function.update_of_ne hne ..))
  | disconnect | handshakeTimeout => exact hends rfl (.inl (by simp [System.farewell]))
  | @decodeError c₀ => exact hends rfl (.inr (Shared.forgets_iff.1 hok))
  | @handler c₀ op rest ops sh hops hrun =>
    refine hold hended' ?_
    rcases eq_or_ne c c₀ with rfl | hne
    · have hnil := (of_suffix_lastOps (hops ▸ hseated.ended c hended') hrun).2
      refine .inr ⟨rfl, op, rest, hops, ?_, ?_⟩
      · show Function.update s.handlers c (ops ++ rest) c = rest
        rw [Function.update_self, hnil, List.nil_append]
      · rintro rfl
        cases hrun
        rfl
    · exact .inl (Function.update_of_ne hne ..)
  | handshakeTick | writerFails | writer | routerTurn | router | reaperTick | reaper
  | heartbeatTick | heartbeatEvent | heartbeat | manager | childOutput | readerEnds | childExits
  | shutdown | elapse => exact hold hended' (.inl rfl)

theorem leaves_init (cfg : Config) : (System.init cfg).Leaves :=
  fun c _ => .inr
    { clients := List.not_mem_nil
      handshake := HashMap.get_empty c
      pending := fun k p hp => by
        replace hp : HashMap.get (∅ : HashMap String Pending) k = some p := hp
        rw [HashMap.get_empty] at hp
        cases hp
      initWaiting := fun w hw => (List.not_mem_nil hw).elim }

/-- Registered clients hold permits, so there are no more of them. -/
theorem System.Leaves.tidy (hs : s.Leaves) (hseated : s.Seated cfg) : s.CleansUp cfg where
  forgotten := fun c hc => (hs c hc.readers).resolve_left (by rw [hc.handlers]; simp)
  bounded := by
    obtain ⟨holders, hnodup, hmem, -, hcount⟩ := hseated.permits
    have hsub : s.shared.st.clients ⊆ holders := by
      intro c hc
      refine (hmem c).2 ?_
      cases hreads : s.readers c with
      | true => exact .inl hreads
      | false =>
        right
        have hleft := (hs c hreads).resolve_right fun hgone => hgone.clients hc
        have hsuffix := hseated.ended c hreads
        cases hops : s.handlers c with
        | nil =>
          rw [hops] at hleft
          cases hleft
        | cons op rest =>
          rw [hops] at hsuffix
          rcases suffix_lastOps hsuffix with ⟨rfl, rfl⟩ | ⟨rfl, rfl⟩ | ⟨rfl, rfl⟩ | ⟨rfl, rfl⟩ <;>
            simp [System.farewell]
    have hlen := (List.subperm_of_subset hseated.nodup hsub).length_le
    omega

/-- **`handle_client` cleans up**, in the runs in which a frame that does not decode comes
only from a client that a failed write has unregistered already: where it has
returned nothing of its client is left, and there are never more registered clients
than permits. -/
theorem cleansUp (cfg : Config) (s : System)
    (h : Reachable cfg (fun s l => s.decodesUntilGone l = true) s) : s.CleansUp cfg := by
  have hleaves : s.Leaves := by
    refine h.invariant_of (I := System.Leaves) (J := fun s => s.Sound ∧ s.Seated cfg)
      (fun _ hr => ⟨Reachable.sound hr, Reachable.seated hr⟩) (leaves_init cfg) ?_
    exact fun _ _ _ hok hJ hs hstep => hs.of_step hok hJ.1 hJ.2 hstep
  exact hleaves.tidy (Reachable.seated h)

/-- A client sends its `initialize` and leaves. -/
theorem cleansUp_leavesRun :
    (Config.small.after (leavesRun ++ [.handler 1, .handler 1, .handler 1])).CleansUp .small := by
  have hruns : Config.small.runs (leavesRun ++ [.handler 1, .handler 1, .handler 1]) = true := by
    decide +kernel
  exact cleansUp .small _
    (Config.small.reachable_of_meets System.decodesUntilGone hruns (by decide +kernel))

/-- **Where a frame does not decode, and its client is not forgotten**, `handle_client`
returns and leaves behind what there is of the client. -/
theorem not_cleansUp_of_decodeError {s'' : System} (h : Reachable cfg ok s)
    (hc : ¬ s.shared.Forgotten c) (hstep : s.step cfg (.decodeError c) = some s')
    (hstep' : s'.step cfg (.handler c) = some s'') : ¬ s''.CleansUp cfg := by
  intro hclean
  cases stepped_of_step hstep with
  | decodeError hidle =>
    have hissued := (Reachable.sound h).readers c hidle.1
    have hops : (s.endReader c [.releasePermit]).handlers c = [.releasePermit] := by
      rw [System.endReader_handlers, Function.update_self]
    cases stepped_of_step hstep' with
    | handler hops' hrun =>
      rw [hops] at hops'
      cases hops'
      cases hrun
      have hgone := hclean.forgotten c
        ⟨hissued, Function.update_self .., Function.update_self ..⟩
      exact hc ⟨hgone.clients, hgone.handshake, hgone.pending, hgone.initWaiting⟩

/-- A client connects, and its first frame does not decode. -/
def decodeErrorRun : List Label := [.connect, .handler 1, .decodeError 1, .handler 1]

/-- **A ghost client**: it is still registered when `handle_client` has returned. -/
theorem not_cleansUp_decodeErrorRun : ¬ ∀ (cfg : Config) (s : System),
    Reachable cfg Run.Any s → s.CleansUp cfg := by
  intro h
  have hruns : Config.small.runs decodeErrorRun = true := by decide +kernel
  have hclients : (Config.small.after decodeErrorRun).shared.st.clients = [1] := by decide +kernel
  have hissued : (Config.small.after decodeErrorRun).shared.st.nextClientId = 2 := by
    decide +kernel
  have hreaders : (Config.small.after decodeErrorRun).readers 1 = false := by decide +kernel
  have hhandlers : ((Config.small.after decodeErrorRun).handlers 1).isEmpty = true := by
    decide +kernel
  have hclean := h .small _ (Config.small.reachable_after hruns)
  have hgone := hclean.forgotten 1 ⟨by rw [hissued]; decide, hreaders, List.isEmpty_iff.1 hhandlers⟩
  exact hgone.clients (by rw [hclients]; exact List.mem_cons_self)

end Mux

end VcOperator
