import VcOperator.Mux.CachedResults
/-!
# The cache and the client that asked

The response of an `initialize` request is to be cached even if the client
that asked has left: the router looks for that client only after the cache
is filled. But it knows the response by the request's entry in `pending`,
and `unregister_client` takes the entry away with the client. So the cache
holds the response exactly if neither the client's handler nor its writer
unregisters it between the request and the answer.
-/

namespace VcOperator

namespace Mux

variable {sh sh' : Shared} {c : ℕ}

/-! ## The entries that stay -/

/-- Every entry of `pending` stays. -/
def KeepsEntries (sh sh' : Shared) : Prop :=
  ∀ k p, sh.st.pending.get k = some p → sh'.st.pending.get k = some p

theorem KeepsEntries.of_eq (h : sh'.st.pending = sh.st.pending) : KeepsEntries sh sh' := by
  intro k p hp
  rwa [h]

theorem Quiet.keepsEntries (h : Quiet sh sh') : KeepsEntries sh sh' := .of_eq h.pending

/-- An id is issued that no entry stands under. -/
theorem keepsEntries_insertPending (hk : sh.Keyed) (c : ℕ) (lid : Tagged Value)
    (isInitialize : Bool) : KeepsEntries sh (ClientOp.insertPending sh c lid isInitialize) := by
  intro k p hp
  have hne : k ≠ globalId c sh.st.nextGlobalId := by
    rintro rfl
    rw [hk.fresh c] at hp
    cases hp
  rwa [ClientOp.insertPending, HashMap.get_insert_ne hne]

namespace ClientOp

variable {enc : Value → ℕ} {op : ClientOp} {ops : List ClientOp}

theorem Forwarded.keepsEntries {msg : Tagged Value} (h : Forwarded c msg sh sh' ops)
    (hk : sh.Keyed) : KeepsEntries sh sh' := by
  cases h with
  | noId hid => exact .of_eq rfl
  | refused hid => exact .of_eq rfl
  | forwarded hid => exact keepsEntries_insertPending hk c _ false

theorem Initialized.keepsEntries {val : Value} {lid : Tagged Value}
    (h : Initialized c val lid sh sh' ops) (hk : sh.Keyed) : KeepsEntries sh sh' := by
  cases h with
  | cached hcached => exact .of_eq rfl
  | parked hcached hinit => exact .of_eq rfl
  | refused hcached hinit => exact .of_eq rfl
  | forwarded hcached hinit => exact keepsEntries_insertPending hk c lid true

/-- **No operation of a handler takes an entry away**, but the one that
unregisters its client. -/
theorem keepsEntries_run (h : op.run enc c sh = some (sh', ops)) (hk : sh.Keyed)
    (hop : op ≠ .unregisterClient) : KeepsEntries sh sh' := by
  cases op with
  | unregisterClient => exact absurd rfl hop
  | forwardRequest msg =>
    rw [run, Option.some.injEq] at h
    exact (forwarded_of_run h).keepsEntries hk
  | flushBuffered buffered =>
    cases buffered with
    | nil =>
      cases h
      exact .of_eq rfl
    | cons msg buffered =>
      cases hr : runForwardRequest c msg sh with
      | mk sh₁ ops₁ =>
        rw [run, hr] at h
        cases h
        exact (forwarded_of_run hr).keepsEntries hk
  | handleInitialize val lid =>
    rw [run, Option.some.injEq] at h
    have hquiet := quiet_initializePending sh c
    intro k p hp
    exact (initialized_of_run h).keepsEntries (hk.shrinks hquiet.shrinks) k p
      (hquiet.keepsEntries k p hp)
  | trySend msg => exact (quiet_trySend h).1.keepsEntries
  | send msg isInitialize => exact (quiet_send h).1.keepsEntries
  | markServerInitialized msg => exact (quiet_markServerInitialized h).1.keepsEntries
  | checkHandshake msg =>
    simp only [run] at h
    split at h <;> cases h <;> exact .of_eq rfl
  | completeHandshake =>
    cases h
    obtain ⟨hss, heq, -⟩ := sh.st.markHandshakeComplete_spec c
    exact .of_eq (by rw [heq])
  | bufferMessage msg =>
    cases h
    obtain ⟨hss, heq, -⟩ := sh.st.bufferMessage_spec c msg
    exact .of_eq (by rw [heq])
  | handleClientMessage _ | rejectTooLarge _ | rejectHandshakeTimeout | updateQueueDepth
  | publishStatus | releasePermit =>
    cases h
    exact .of_eq rfl

end ClientOp

/-- A client that is unregistered takes its entries with it, and no others. -/
theorem get_unregister_of_ne {key : String} {p : Pending} (hp : sh.st.pending.get key = some p)
    (hne : p.clientId ≠ c) : (sh.unregister c).st.pending.get key = some p :=
  HashMap.get_retain_of_pos hp (by simpa using hne)

theorem get_unregister_eq_none {key : String}
    (h : ∀ p, sh.st.pending.get key = some p → p.clientId = c) :
    (sh.unregister c).st.pending.get key = none :=
  HashMap.get_retain_of_neg fun p hp => by simpa using h p hp

/-! ## A request that is over -/

/-- The request was answered, or it timed out. A reset answers with an error. -/
def Shared.Over (sh : Shared) (o : Occ) : Prop :=
  (∃ isError, .answered o isError ∈ sh.initEvents) ∨ .timedOut o ∈ sh.initEvents

theorem Shared.Over.mono {o : Occ} (h : sh.Over o) (hevents : sh.initEvents <+: sh'.initEvents) :
    sh'.Over o := by
  rcases h with ⟨isError, h⟩ | h
  · exact .inl ⟨isError, hevents.subset h⟩
  · exact .inr (hevents.subset h)

/-- **The router takes an entry away when it answers the request.** -/
theorem RouterOp.entry_run {order : List String} {op : RouterOp} {ops : List RouterOp}
    (h : op.run order sh = some (sh', ops)) {key : String} {p : Pending}
    (hp : sh.st.pending.get key = some p) (hinit : p.isInitialize = true) :
    sh'.st.pending.get key = some p ∨ sh'.Over p.localId.occ := by
  cases op with
  | takePending msg id =>
    by_cases hkey : key = id
    · subst hkey
      rw [run, hp] at h
      cases h
      refine .inr (.inl ⟨isError msg, List.mem_append_right _ ?_⟩)
      rw [if_pos hinit]
      exact List.mem_singleton.2 rfl
    · simp only [run] at h
      split at h <;> cases h
      · exact .inl hp
      · exact .inl ((HashMap.get_remove_ne hkey).trans hp)
  | resetState reason =>
    simp only [run] at h
    split at h <;> cases h
    have hmem : p.localId.occ ∈ Shared.initOccs sh.st.pending.values :=
      List.mem_map_of_mem (List.mem_filter.2 ⟨HashMap.mem_values_of_get hp, hinit⟩)
    exact .inr (.inl ⟨true, List.mem_append_left _
      (List.mem_append_right _ (List.mem_map_of_mem hmem))⟩)
  | findTarget msg p =>
    simp only [run] at h
    split at h <;> cases h <;> exact .inl hp
  | broadcast _ | cacheInitialize _ _ | sendTarget _ _ | publishStatus =>
    cases h
    exact .inl hp

/-- **The reaper takes it away when the request times out.** -/
theorem ReaperOp.entry_run {order : List String} {op : ReaperOp} {ops : List ReaperOp}
    (h : op.run order sh = some (sh', ops)) {key : String} {p : Pending}
    (hp : sh.st.pending.get key = some p) (hinit : p.isInitialize = true) :
    sh'.st.pending.get key = some p ∨ sh'.Over p.localId.occ := by
  cases op with
  | reap timeout =>
    simp only [run] at h
    split at h
    · rename_i horder
      cases h
      cases hexp : isExpired sh.now timeout p with
      | false => exact .inl (HashMap.get_retain_of_pos hp (by simp [hexp]))
      | true =>
        have hvalue : p ∈ sh.st.pending.valuesIn order :=
          (HashMap.valuesIn_perm horder).mem_iff.2 (HashMap.mem_values_of_get hp)
        have hmem : p.localId.occ ∈ Shared.initOccs
            ((sh.st.pending.valuesIn order).filter (isExpired sh.now timeout)) :=
          List.mem_map_of_mem (List.mem_filter.2 ⟨List.mem_filter.2 ⟨hvalue, hexp⟩, hinit⟩)
        exact .inr (.inr (List.mem_append_right _ (List.mem_map_of_mem hmem)))
    · cases h
  | readTimeout | replyExpired _ | publishStatus =>
    cases h
    exact .inl hp

/-! ## The history of the `initialize` requests -/

/-- The history of the `initialize` requests grows. -/
theorem Stepped.initEvents_prefix {cfg : Config} {s s' : System} {l : Label}
    (h : Stepped cfg s l s') (hk : s.shared.Keyed) :
    s.shared.initEvents <+: s'.shared.initEvents := by
  have hclient : ∀ {c sh} {op : ClientOp} {ops : List ClientOp},
      op.run cfg.encodedLen c s.shared = some (sh, ops) →
        s.shared.initEvents <+: sh.initEvents := by
    intro c sh op ops hrun
    cases ClientOp.initMove_run hrun hk with
    | nothing hsame hops => exact hsame.events ▸ List.prefix_rfl
    | start hcached hcached' hpending hevents hops => exact hevents ▸ List.prefix_rfl
    | put hst hevents hops =>
      rw [hevents]
      exact List.prefix_append ..
    | drop => exact List.prefix_append ..
  have hstill : ∀ {sh}, Still s.shared sh → s.shared.initEvents <+: sh.initEvents := by
    intro sh hstill
    rcases hstill.events with ⟨hevents, -⟩ | ⟨hevents, -⟩
    · exact hevents ▸ List.prefix_rfl
    · rw [hevents]
      exact List.prefix_append ..
  cases h with
  | handler hops hrun | writer hops hrun => exact hclient hrun
  | @routerTurn event rest => exact hstill (still_dispatch event rest s.shared)
  | router hops hrun =>
    cases RouterOp.initMove_run hrun with
    | nothing hsame hop hops => exact hsame.events ▸ List.prefix_rfl
    | take hget hinit hpending hcached hevents hops =>
      rw [hevents]
      exact List.prefix_append ..
    | cache hpending hcached hevents => exact hevents ▸ List.prefix_rfl
    | reset hpending hcached hevents =>
      rw [hevents, List.append_assoc]
      exact List.prefix_append ..
  | reaper hops hrun =>
    cases ReaperOp.initMove_run hrun with
    | nothing hsame => exact hsame.events ▸ List.prefix_rfl
    | timeOut hpending hcached hevents =>
      rw [hevents]
      exact List.prefix_append ..
  | heartbeat hops hrun => exact hstill (HeartbeatOp.still_run hrun)
  | manager hops hlock hrun => exact hstill (ManagerOp.still_run hrun)
  | connect | receive | disconnect | decodeError | handshakeTimeout | handshakeTick
  | writerFails | reaperTick | heartbeatTick | heartbeatEvent | childOutput | readerEnds
  | childExits | shutdown | elapse => exact List.prefix_rfl

/-! ## The condition on the steps -/

/-- **No task unregisters the client** in this step: neither its handler nor its writer. -/
def System.keepsClient (c : ℕ) (s : System) : Label → Bool
  | .handler c' =>
    match s.handlers c' with
    | .unregisterClient :: _ => decide (c' ≠ c)
    | _ => true
  | .writer c' =>
    match s.writers c' with
    | .unregisterClient :: _ => decide (c' ≠ c)
    | _ => true
  | _ => true

variable {cfg : Config} {s s₁ s₂ s' : System} {l : Label} {key : String} {p : Pending}

/-- **A step that keeps the client keeps its entry**, unless the request is over. -/
theorem Stepped.entry_of_keepsClient (h : Stepped cfg s l s') (hk : s.shared.Keyed)
    (hp : s.shared.st.pending.get key = some p) (hinit : p.isInitialize = true)
    (hok : s.keepsClient p.clientId l = true) :
    s'.shared.st.pending.get key = some p ∨ s'.shared.Over p.localId.occ := by
  have hclient : ∀ {c sh} {op : ClientOp} {ops : List ClientOp},
      op.run cfg.encodedLen c s.shared = some (sh, ops) →
        (op = .unregisterClient → c ≠ p.clientId) → sh.st.pending.get key = some p := by
    intro c sh op ops hrun hne
    by_cases hop : op = .unregisterClient
    · subst hop
      cases hrun
      exact get_unregister_of_ne hp (hne rfl).symm
    · exact ClientOp.keepsEntries_run hrun hk hop key p hp
  cases h with
  | handler hops hrun =>
    refine .inl (hclient hrun ?_)
    rintro rfl
    simpa [System.keepsClient, hops] using hok
  | writer hops hrun =>
    refine .inl (hclient hrun ?_)
    rintro rfl
    simpa [System.keepsClient, hops] using hok
  | @routerTurn event rest =>
    exact .inl ((still_dispatch event rest s.shared).toQuiet.keepsEntries key p hp)
  | router hops hrun => exact RouterOp.entry_run hrun hp hinit
  | reaper hops hrun => exact ReaperOp.entry_run hrun hp hinit
  | heartbeat hops hrun =>
    exact .inl ((HeartbeatOp.still_run hrun).toQuiet.keepsEntries key p hp)
  | manager hops hlock hrun =>
    exact .inl ((ManagerOp.still_run hrun).toQuiet.keepsEntries key p hp)
  | connect | receive | disconnect | decodeError | handshakeTimeout | handshakeTick
  | writerFails | reaperTick | heartbeatTick | heartbeatEvent | childOutput | readerEnds
  | childExits | shutdown | elapse => exact .inl hp

/-- **A step that does not keep the client takes its entry away.** -/
theorem Stepped.entry_of_not_keepsClient (h : Stepped cfg s l s')
    (hp : ∀ q, s.shared.st.pending.get key = some q → q.clientId = c)
    (hok : s.keepsClient c l = false) : s'.shared.st.pending.get key = none := by
  cases h with
  | @handler c' op rest ops sh hops hrun | @writer c' op rest ops sh hops hrun =>
    simp only [System.keepsClient, hops] at hok
    split at hok
    · rename_i heq
      obtain ⟨rfl, -⟩ := List.cons.inj heq
      cases hrun
      obtain rfl : c' = c := by simpa using hok
      exact get_unregister_eq_none hp
    · cases hok
  | _ => cases hok

/-! ## The entry, over a run -/

/-- **An entry that stands under an issued id stood there before.** -/
theorem entry_of_reach {n : ℕ} (h : Run.Reach (System.step cfg) Run.Any s s')
    (hn : n < s.shared.st.nextGlobalId) : n < s'.shared.st.nextGlobalId ∧
      ∀ q, s'.shared.st.pending.get (globalId c n) = some q →
        s.shared.st.pending.get (globalId c n) = some q := by
  refine h.invariant (I := fun t => n < t.shared.st.nextGlobalId ∧
    ∀ q, t.shared.st.pending.get (globalId c n) = some q →
      s.shared.st.pending.get (globalId c n) = some q) ⟨hn, fun q hq => hq⟩ ?_
  rintro t l t' - ⟨hlt, hold⟩ hstep
  obtain ⟨c', hissues⟩ := (routed_of_step hstep).issues
  refine ⟨Nat.lt_of_lt_of_le hlt hissues.nextGlobalId_le, fun q hq => ?_⟩
  rcases hissues.pending_cases hq with hbefore | hfresh
  · exact hold q hbefore
  · have hnext := (globalId_injective hfresh).2
    omega

/-- **A run that keeps the client keeps its entry**, unless the request is over. -/
theorem entry_of_meets {ls : List Label} (hk : s.shared.Keyed)
    (hp : s.shared.st.pending.get key = some p) (hinit : p.isInitialize = true)
    (hexec : Run.exec (System.step cfg) s ls = some s')
    (hmeets : Run.meets (System.step cfg) (System.keepsClient p.clientId) s ls = true) :
    s'.shared.st.pending.get key = some p ∨ s'.shared.Over p.localId.occ := by
  have hreach := Run.reach_of_meets hmeets .init hexec
  refine (hreach.invariant (I := fun t => t.shared.Keyed ∧
    (t.shared.st.pending.get key = some p ∨ t.shared.Over p.localId.occ)) ⟨hk, .inl hp⟩ ?_).2
  rintro t l t' hok ⟨hkeyed, hentry⟩ hstep
  have hstepped := stepped_of_step hstep
  refine ⟨hstepped.routed.keyed hkeyed, ?_⟩
  rcases hentry with hentry | hover
  · exact hstepped.entry_of_keepsClient hkeyed hentry hinit hok
  · exact .inr (hover.mono (hstepped.initEvents_prefix hkeyed))

/-- **A run that does not keep the client ends without it.** -/
theorem entry_of_not_meets {ls : List Label} (hk : s.shared.Keyed)
    (hp : s.shared.st.pending.get key = some p)
    (hexec : Run.exec (System.step cfg) s ls = some s')
    (hmeets : Run.meets (System.step cfg) (System.keepsClient p.clientId) s ls = false) :
    s'.shared.st.pending.get key = none := by
  obtain ⟨i, hi, rfl, -⟩ := hk.pending key p hp
  obtain ⟨t, l, t', hbefore, hok, hstep, hafter⟩ := Run.exists_of_not_meets hmeets hexec
  obtain ⟨-, hold⟩ := entry_of_reach (c := i.clientId) hbefore (hk.below i hi)
  have hgone : t'.shared.st.pending.get (globalId i.clientId i.n) = none := by
    refine (stepped_of_step hstep).entry_of_not_keepsClient (fun q hq => ?_) hok
    obtain rfl := Option.some.inj ((hold q hq).symm.trans hp)
    rfl
  -- what is gone does not come back, for the id was issued before
  obtain ⟨hissued, -⟩ := entry_of_reach (c := i.clientId)
    (hbefore.trans (.step .init trivial hstep)) (hk.below i hi)
  cases hget : s'.shared.st.pending.get (globalId i.clientId i.n) with
  | none => rfl
  | some q =>
    have hthere := (entry_of_reach hafter hissued).2 q hget
    rw [hgone] at hthere
    cases hthere

/-! ## The cache holds answers -/

/-- The response is the answer to a request that was answered. -/
def Shared.AnsweredBy (sh : Shared) (msg : Value) : Prop :=
  ∃ i ∈ sh.issued, (msg.get "id").bind idStr = some (globalId i.clientId i.n) ∧
    ∃ isError, .answered i.occ isError ∈ sh.initEvents

theorem Shared.AnsweredBy.mono {msg : Value} (h : sh.AnsweredBy msg)
    (hissued : sh.issued ⊆ sh'.issued) (hevents : sh.initEvents <+: sh'.initEvents) :
    sh'.AnsweredBy msg := by
  obtain ⟨i, hi, hid, isError, hmem⟩ := h
  exact ⟨i, hissued hi, hid, isError, hevents.subset hmem⟩

/-- **What the router has in its hands**: a response with the id it is looked up by, and one
whose entry was found. -/
def RouterOp.AnsweredIn (sh : Shared) : RouterOp → Prop
  | takePending msg id => (msg.get "id").bind idStr = some id
  | cacheInitialize msg _ => sh.AnsweredBy msg
  | _ => True

/-- **What is cached, or about to be, is the answer to a request that was answered.** -/
structure System.CacheAnswered (s : System) : Prop where
  router : ∀ op ∈ s.router, op.AnsweredIn s.shared
  cached : ∀ msg, s.shared.st.cachedInitialize = some msg → s.shared.AnsweredBy msg

theorem RouterOp.AnsweredIn.mono {op : RouterOp} (h : op.AnsweredIn sh)
    (hissued : sh.issued ⊆ sh'.issued) (hevents : sh.initEvents <+: sh'.initEvents) :
    op.AnsweredIn sh' := by
  cases op with
  | cacheInitialize msg p => exact Shared.AnsweredBy.mono h hissued hevents
  | takePending msg id => exact h
  | _ => trivial

theorem RouterOp.answeredIn_handleServerMessage (sh : Shared) (msg : Value) :
    ∀ op ∈ handleServerMessage msg, op.AnsweredIn sh := by
  intro op hop
  simp only [handleServerMessage] at hop
  split at hop
  · rw [List.mem_singleton.1 hop]
    trivial
  · rename_i id hid
    split at hop
    · rw [List.mem_singleton.1 hop]
      trivial
    · split at hop
      · cases hop
      · rename_i key hkey
        rw [List.mem_singleton.1 hop]
        show (msg.get "id").bind idStr = some key
        rw [hid, Option.bind_some, hkey]

/-- What the router goes on with. -/
theorem RouterOp.answeredIn_run {order : List String} {op : RouterOp} {ops : List RouterOp}
    (h : op.run order sh = some (sh', ops)) (hk : sh.Keyed) (hop : op.AnsweredIn sh) :
    ∀ op' ∈ ops, op'.AnsweredIn sh' := by
  cases op with
  | takePending msg id =>
    cases hget : sh.st.pending.get id with
    | none =>
      rw [run, hget] at h
      cases h
      simp
    | some p =>
      rw [run, hget] at h
      cases h
      intro op' hop'
      rcases List.mem_append.1 hop' with hop' | hop'
      · split at hop'
        · rename_i hinit
          rw [List.mem_singleton.1 hop']
          obtain ⟨i, hi, hkey, -, hocc, -⟩ := hk.pending id p hget
          refine ⟨i, hi, hkey ▸ hop, isError msg, List.mem_append_right _ ?_⟩
          rw [if_pos hinit, hocc]
          exact List.mem_singleton.2 rfl
        · cases hop'
      · rw [List.mem_singleton.1 hop']
        trivial
  | findTarget msg p =>
    simp only [run] at h
    split at h <;> cases h <;> simp [AnsweredIn]
  | resetState reason =>
    simp only [run] at h
    split at h <;> cases h
    simp
  | broadcast _ | cacheInitialize _ _ | sendTarget _ _ | publishStatus =>
    cases h
    simp

/-- A task other than the router leaves it what it has in its hands. -/
theorem Stepped.router_of_ne_nil (h : Stepped cfg s l s') (hne : s.router ≠ [])
    (hl : ∀ order, l ≠ .router order) : s'.router = s.router := by
  cases h with
  | routerTurn hidle => exact absurd hidle hne
  | router => exact absurd rfl (hl _)
  | _ => rfl

theorem Stepped.cacheAnswered (h : Stepped cfg s l s') (hk : s.shared.Keyed)
    (hs : s.CacheAnswered) : s'.CacheAnswered := by
  obtain ⟨c, hissues⟩ := h.routed.issues
  have hissued := hissues.issued_subset
  have hevents := h.initEvents_prefix hk
  have hkept : ∀ op ∈ s.router, op.AnsweredIn s'.shared := fun op hop =>
    (hs.router op hop).mono hissued hevents
  refine ⟨fun op hop => ?_, fun msg hmsg => ?_⟩
  · cases h with
    | @routerTurn event rest hidle hqueue =>
      cases event with
      | reset reason =>
        simp only [RouterOp.dispatch, List.mem_cons, List.not_mem_nil, or_false] at hop
        rcases hop with rfl | rfl <;> trivial
      | message msg =>
        simp only [RouterOp.dispatch] at hop
        split at hop
        · cases hop
        · exact RouterOp.answeredIn_handleServerMessage _ msg op hop
    | @router order op' rest ops sh hops hrun =>
      rcases List.mem_append.1 hop with hop | hop
      · exact RouterOp.answeredIn_run hrun hk (hs.router op' (by simp [hops])) op hop
      · exact hkept op (by simp [hops, hop])
    | _ => exact hkept op hop
  · rcases h.cached_cases hk hmsg with hold | ⟨order, p, rest, -, hops⟩
    · exact (hs.cached msg hold).mono hissued hevents
    · exact hkept (.cacheInitialize msg p) (by simp [hops])

theorem cacheAnswered_init (cfg : Config) : (System.init cfg).CacheAnswered where
  router := fun op hop => by cases hop
  cached := fun msg hmsg => by cases hmsg

theorem Reachable.cacheAnswered {ok : System → Label → Prop} (h : Reachable cfg ok s) :
    s.CacheAnswered :=
  Run.Reach.invariant_of (I := System.CacheAnswered) (fun _ hr => Reachable.keyed hr)
    (cacheAnswered_init cfg)
    (fun _ _ _ _ hk hs hstep => (stepped_of_step hstep).cacheAnswered hk hs) h

/-! ## The answer to a request -/

/-- **A response is up with the router** that is looked up by `key`, while the request `o` was
neither answered, by a reset or otherwise, nor timed out. -/
structure System.AnswersInTime (s : System) (key : String) (o : Occ) (msg : Value) : Prop where
  router : s.router = [.takePending msg key]
  inTime : ¬ s.shared.Over o

/-- **The cache holds the response** the router has looked up. Where that leaves the router
nothing to do, it holds it there and then; else after the router's next step, whatever the
other tasks do in between. -/
def System.CachesAnswer (cfg : Config) (s : System) (msg : Value) : Prop :=
  (s.router = [] → s.shared.st.cachedInitialize = some msg) ∧
    (s.router ≠ [] → ∀ s₁ s₂ order',
      Run.Reach (System.step cfg) (fun _ l => ∀ order, l ≠ .router order) s s₁ →
        s₁.step cfg (.router order') = some s₂ → s₂.shared.st.cachedInitialize = some msg)

variable {ls : List Label} {msg : Value} {order : List String}

/-- What the router does where the entry stands. -/
theorem cachesAnswer_of_entry (hrouter : s'.router = [.takePending msg key])
    (hp : s'.shared.st.pending.get key = some p) (hinit : p.isInitialize = true)
    (htakes : s'.step cfg (.router order) = some s₁) : s₁.CachesAnswer cfg msg := by
  have hops : s₁.router = [.cacheInitialize msg p, .findTarget msg p] := by
    cases stepped_of_step htakes with
    | router hops hrun =>
      obtain ⟨rfl, rfl⟩ := List.cons.inj (hrouter.symm.trans hops)
      rw [RouterOp.run, hp] at hrun
      cases hrun
      simp [hinit]
  have hne : s₁.router ≠ [] := by simp [hops]
  refine ⟨fun hnil => absurd hnil hne, fun _ t t' order' hreach hcaches => ?_⟩
  have hsame : t.router = s₁.router :=
    hreach.invariant (I := fun t => t.router = s₁.router) rfl fun u l u' hl hu hstep =>
      ((stepped_of_step hstep).router_of_ne_nil (hu ▸ hne) hl).trans hu
  cases stepped_of_step hcaches with
  | router hops' hrun =>
    obtain ⟨rfl, rfl⟩ := List.cons.inj ((hsame.trans hops).symm.trans hops')
    cases hrun
    rfl

/-- What it does where the entry is gone. -/
theorem eq_of_no_entry (hrouter : s'.router = [.takePending msg key])
    (hp : s'.shared.st.pending.get key = none)
    (htakes : s'.step cfg (.router order) = some s₁) :
    s₁.router = [] ∧ s₁.shared = s'.shared := by
  cases stepped_of_step htakes with
  | router hops hrun =>
    obtain ⟨rfl, rfl⟩ := List.cons.inj (hrouter.symm.trans hops)
    rw [RouterOp.run, hp] at hrun
    cases hrun
    exact ⟨rfl, rfl⟩

/-- **When the cache survives the client that asked**: an `initialize` request is pending, and
its response comes up before it is over. The cache then holds the response exactly if no task
has unregistered the client in between. -/
theorem cachesAnswer_iff (h : Reachable cfg Run.Any s)
    (hp : s.shared.st.pending.get key = some p) (hinit : p.isInitialize = true)
    (hexec : Run.exec (System.step cfg) s ls = some s')
    (hanswer : s'.AnswersInTime key p.localId.occ msg)
    (htakes : s'.step cfg (.router order) = some s₁) :
    s₁.CachesAnswer cfg msg ↔
      Run.meets (System.step cfg) (System.keepsClient p.clientId) s ls = true := by
  have hk := Reachable.keyed h
  have hreach := Run.reach_of_exec hexec h
  constructor
  · intro hcaches
    by_contra hcon
    have hgone := entry_of_not_meets hk hp hexec (Bool.eq_false_iff.2 hcon)
    obtain ⟨hnil, hsame⟩ := eq_of_no_entry hanswer.router hgone htakes
    have hcached := hcaches.1 hnil
    rw [hsame] at hcached
    -- what the cache holds answers a request that was answered, and it has the same id
    obtain ⟨j, hj, hid, isError, hmem⟩ := (Reachable.cacheAnswered hreach).cached msg hcached
    have hkey : (msg.get "id").bind idStr = some key :=
      (Reachable.cacheAnswered hreach).router (.takePending msg key) (by simp [hanswer.router])
    obtain ⟨i, hi, rfl, -, hocc, -⟩ := hk.pending key p hp
    have hi' : i ∈ s'.shared.issued := by
      have hfrom : Run.Reach (System.step cfg) Run.Any s s' := Run.reach_of_exec hexec .init
      refine hfrom.invariant (I := fun t => i ∈ t.shared.issued) hi fun t l t' _ hmem hstep => ?_
      obtain ⟨c, hissues⟩ := (routed_of_step hstep).issues
      exact hissues.issued_subset hmem
    have hn := (globalId_injective (Option.some.inj (hid.symm.trans hkey))).2
    obtain rfl := (Reachable.keyed hreach).eq_of_n_eq hj hi' hn
    exact hanswer.inTime (.inl ⟨isError, hocc ▸ hmem⟩)
  · intro hmeets
    rcases entry_of_meets hk hp hinit hexec hmeets with hentry | hover
    · exact cachesAnswer_of_entry hanswer.router hentry hinit htakes
    · exact absurd hover hanswer.inTime

/-! ## A client that stays, and one that leaves -/

deriving instance DecidableEq for Tagged, Pending, RouterOp

/-- A client asks for `initialize`, and its request is pending. -/
def initRun : List Label :=
  startRun ++
    [.connect, .handler 1,
      .receive 1 (.object [("id", .number (.posInt 7)), ("method", .string "initialize")]),
      .handler 1, .handler 1]

/-- The entry of that request. -/
def askedEntry : Pending := ⟨1, ⟨.number (.posInt 7), ⟨1, 0⟩⟩, true, 0⟩

/-- The answer of the child. -/
def initResult : Value := .object [("id", .string "c1:1"), ("result", .object [])]

/-- The request is written to the child, the client does `leaves`, and the child answers. -/
def resultRun (leaves : List Label) : List Label :=
  [.handler 1, .handler 1, .handler 1, .manager .received, .manager .go, .manager .written,
    .manager .go] ++ leaves ++ [.childOutput 0 initResult, .routerTurn]

/-- The request with this id was written to the child, and the child is alive. -/
def System.sentToChild (s : System) (key : String) : Bool :=
  match s.shared.children.getLast? with
  | some ch => ch.alive && ch.written.any fun m => m.get "id" = some (.string key)
  | none => false

/-- The client disconnects, and its handler unregisters it. -/
def leaveRun : List Label := [.disconnect 1, .handler 1]

theorem answersInTime_resultRun (leaves : List Label)
    (hrouter : (Config.small.after (initRun ++ resultRun leaves)).router =
      [.takePending initResult "c1:1"])
    (hevents : ((Config.small.after (initRun ++ resultRun leaves)).shared.initEvents.all fun e =>
      decide (e = .put ⟨1, 0⟩ ∨ e = .dropped ⟨1, 0⟩)) = true) :
    (Config.small.after (initRun ++ resultRun leaves)).AnswersInTime "c1:1" askedEntry.localId.occ
      initResult := by
  have hall := List.all_eq_true.1 hevents
  refine ⟨hrouter, ?_⟩
  rintro (⟨isError, h⟩ | h)
  · simpa using hall _ h
  · simpa using hall _ h

/-- The client stays, and the cache holds the result. -/
theorem cachesAnswer_iff_resultRun :
    (Config.small.after (initRun ++ resultRun [] ++ [.router []])).CachesAnswer .small
      initResult := by
  have hasks : Config.small.runs initRun = true := by decide +kernel
  have hanswers : Config.small.runs (initRun ++ resultRun []) = true := by decide +kernel
  have htakes : Config.small.runs (initRun ++ resultRun [] ++ [.router []]) = true := by
    decide +kernel
  have hp : (Config.small.after initRun).shared.st.pending.get "c1:1" = some askedEntry := by
    decide +kernel
  have hrouter : (Config.small.after (initRun ++ resultRun [])).router =
      [.takePending initResult "c1:1"] := by
    decide +kernel
  exact (cachesAnswer_iff (Config.small.reachable_after hasks) hp rfl
    (Config.small.exec_after hasks hanswers)
    (answersInTime_resultRun [] hrouter (by decide +kernel))
    (Config.small.step_after hanswers htakes)).2 (by decide +kernel)

/-- **The client leaves, and the answer of the running child is not cached.** -/
theorem not_cachesAnswer_leaveRun :
    ¬ ∀ (cfg : Config) (s s' s₁ : System) (ls : List Label) (key : String) (p : Pending)
      (msg : Value) (order : List String), Reachable cfg Run.Any s →
      s.shared.st.pending.get key = some p → p.isInitialize = true →
      Run.exec (System.step cfg) s ls = some s' → s'.sentToChild key = true →
      isResult msg = true → .reset ∉ s'.shared.initEvents →
      s'.AnswersInTime key p.localId.occ msg → s'.step cfg (.router order) = some s₁ →
      s₁.CachesAnswer cfg msg := by
  intro h
  have hasks : Config.small.runs initRun = true := by decide +kernel
  have hanswers : Config.small.runs (initRun ++ resultRun leaveRun) = true := by decide +kernel
  have htakes : Config.small.runs (initRun ++ resultRun leaveRun ++ [.router []]) = true := by
    decide +kernel
  have hp : (Config.small.after initRun).shared.st.pending.get "c1:1" = some askedEntry := by
    decide +kernel
  have hrouter : (Config.small.after (initRun ++ resultRun leaveRun)).router =
      [.takePending initResult "c1:1"] := by
    decide +kernel
  have hcaches := h _ _ _ _ _ _ _ _ [] (Config.small.reachable_after hasks) hp rfl
    (Config.small.exec_after hasks hanswers) (by decide +kernel) (by decide) (by decide +kernel)
    (answersInTime_resultRun leaveRun hrouter (by decide +kernel))
    (Config.small.step_after hanswers htakes)
  have hnil : (Config.small.after (initRun ++ resultRun leaveRun ++ [.router []])).router = [] := by
    decide +kernel
  have hcached : (Config.small.after (initRun ++ resultRun leaveRun ++
      [.router []])).shared.st.cachedInitialize = none := by
    decide +kernel
  have hsome := hcaches.1 hnil
  rw [hcached] at hsome
  cases hsome

end Mux

end VcOperator
