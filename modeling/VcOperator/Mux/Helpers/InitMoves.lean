import VcOperator.Mux.Helpers.Ids
/-!
# What happens to the `initialize` requests

An `initialize` request that is forwarded is in turn an entry of
`pending` with the message in its handler's hands, an entry of `pending`
alone, and the entry the router has taken out of it. `Shared.initPending`,
`ClientOp.initSends` and `RouterOp.initCaches` are these three places.
This file says what one operation of each task does to them, to the cache
and to the history of `initialize` requests, and no invariant about
`initialize` unfolds an operation.
-/

namespace VcOperator

namespace Mux

/-- The `initialize` requests in `pending`. -/
def Shared.initPending (sh : Shared) : List Occ := initOccs sh.st.pending.values

/-- The `initialize` requests a handler is about to enqueue. -/
def ClientOp.initSends (ops : List ClientOp) : List Occ :=
  ops.filterMap fun
    | .send msg true => some msg.occ
    | _ => none

/-- The `initialize` requests whose response the router is about to cache. -/
def RouterOp.initCaches (ops : List RouterOp) : List Occ :=
  ops.filterMap fun
    | .cacheInitialize _ p => some p.localId.occ
    | _ => none

variable {sh sh' : Shared} {c : ℕ}

theorem initOccs_append (ps qs : List Pending) :
    Shared.initOccs (ps ++ qs) = Shared.initOccs ps ++ Shared.initOccs qs := by
  simp [Shared.initOccs]

theorem initOccs_perm {ps qs : List Pending} (h : ps.Perm qs) :
    (Shared.initOccs ps).Perm (Shared.initOccs qs) :=
  (h.filter _).map _

/-- **Nothing happens to an `initialize` request.** -/
structure SameInit (sh sh' : Shared) : Prop where
  pending : sh'.initPending.Perm sh.initPending
  cached : sh'.st.cachedInitialize = sh.st.cachedInitialize
  events : sh'.initEvents = sh.initEvents

theorem SameInit.of_eq (hpending : sh'.st.pending = sh.st.pending)
    (hcached : sh'.st.cachedInitialize = sh.st.cachedInitialize)
    (hevents : sh'.initEvents = sh.initEvents) : SameInit sh sh' :=
  ⟨by rw [Shared.initPending, hpending, Shared.initPending], hcached, hevents⟩

@[refl] theorem SameInit.refl (sh : Shared) : SameInit sh sh := .of_eq rfl rfl rfl

/-- A new entry stands under a fresh id. -/
theorem initPending_insertPending (hk : sh.Keyed) (c : ℕ) (lid : Tagged Value)
    (isInitialize : Bool) : (ClientOp.insertPending sh c lid isInitialize).initPending =
      (if isInitialize then [lid.occ] else []) ++ sh.initPending := by
  have hvalues : (ClientOp.insertPending sh c lid isInitialize).st.pending.values = _ :=
    HashMap.values_insert (hk.fresh c) _
  rw [Shared.initPending, hvalues, Shared.initOccs]
  cases isInitialize <;> rfl

/-! ## The handlers -/

namespace ClientOp

variable {enc : Value → ℕ} {op : ClientOp} {ops : List ClientOp}

theorem initSends_append (ops ops' : List ClientOp) :
    initSends (ops ++ ops') = initSends ops ++ initSends ops' :=
  List.filterMap_append

/-- **What a handler's operation does to the `initialize` requests.** -/
inductive InitMove (c : ℕ) (sh : Shared) : ClientOp → Shared → List ClientOp → Prop
  | nothing {op : ClientOp} {sh' : Shared} {ops : List ClientOp} (h : SameInit sh sh')
      (hops : initSends ops = []) : InitMove c sh op sh' ops
  | start {val : Value} {lid : Tagged Value} {sh' : Shared} {ops : List ClientOp}
      (hcached : sh.st.cachedInitialize = none) (hcached' : sh'.st.cachedInitialize = none)
      (hpending : sh'.initPending.Perm (lid.occ :: sh.initPending))
      (hevents : sh'.initEvents = sh.initEvents) (hops : initSends ops = [lid.occ]) :
      InitMove c sh (.handleInitialize val lid) sh' ops
  | put {msg : Tagged Value} {sh' : Shared} {ops : List ClientOp}
      (hst : sh'.st = sh.st) (hevents : sh'.initEvents = sh.initEvents ++ [.put msg.occ])
      (hops : initSends ops = []) : InitMove c sh (.send msg true) sh' ops
  | drop : InitMove c sh .unregisterClient (sh.unregister c) []

theorem Forwarded.initMove {msg : Tagged Value} (h : Forwarded c msg sh sh' ops)
    (hk : sh.Keyed) : SameInit sh sh' ∧ initSends ops = [] := by
  cases h with
  | noId hid => exact ⟨.refl sh, rfl⟩
  | refused hid => exact ⟨.of_eq rfl rfl rfl, rfl⟩
  | forwarded hid =>
    refine ⟨⟨?_, rfl, rfl⟩, rfl⟩
    rw [initPending_insertPending hk]
    rfl

theorem sameInit_initializePending (sh : Shared) (c : ℕ) :
    SameInit sh (initializePending sh c) := by
  simp only [initializePending, MuxState.markInitializePending]
  split <;> exact .of_eq rfl rfl rfl

theorem Initialized.initMove {val : Value} {lid : Tagged Value}
    (h : Initialized c val lid (initializePending sh c) sh' ops) (hk : sh.Keyed) :
    InitMove c sh (.handleInitialize val lid) sh' ops := by
  have hsame := sameInit_initializePending sh c
  have hkey : (initializePending sh c).Keyed :=
    hk.shrinks (quiet_initializePending sh c).shrinks
  cases h with
  | cached hcached => exact .nothing ⟨hsame.pending, hsame.cached, hsame.events⟩ rfl
  | parked hcached hinit => exact .nothing ⟨hsame.pending, hsame.cached, hsame.events⟩ rfl
  | refused hcached hinit => exact .nothing ⟨hsame.pending, hsame.cached, hsame.events⟩ rfl
  | forwarded hcached hinit =>
    refine .start (hsame.cached ▸ hcached) hcached ?_ hsame.events rfl
    rw [initPending_insertPending hkey]
    exact hsame.pending.cons lid.occ

theorem initMove_run (h : op.run enc c sh = some (sh', ops)) (hk : sh.Keyed) :
    InitMove c sh op sh' ops := by
  cases op with
  | handleClientMessage msg =>
    cases h
    refine .nothing (.refl sh) ?_
    have hd := dispatched enc sh.st.maxRequestBytes msg
    generalize dispatch enc sh.st.maxRequestBytes msg = ops at hd
    cases hd <;> rfl
  | handleInitialize val lid =>
    rw [run, Option.some.injEq] at h
    exact (initialized_of_run h).initMove hk
  | forwardRequest msg =>
    rw [run, Option.some.injEq] at h
    obtain ⟨hsame, hops⟩ := (forwarded_of_run h).initMove hk
    exact .nothing hsame hops
  | flushBuffered buffered =>
    cases buffered with
    | nil => cases h; exact .nothing (.refl sh) rfl
    | cons msg buffered =>
      cases hr : runForwardRequest c msg sh with
      | mk sh₁ ops₁ =>
        rw [run, hr] at h
        cases h
        obtain ⟨hsame, hops⟩ := (forwarded_of_run hr).initMove hk
        refine .nothing hsame ?_
        rw [initSends_append, hops]
        rfl
  | send msg isInitialize =>
    simp only [run] at h
    split at h
    · cases h; exact .nothing (.refl sh) rfl
    · split at h
      · cases isInitialize with
        | true => cases h; exact .put rfl rfl rfl
        | false => cases h; exact .nothing (.of_eq rfl rfl rfl) rfl
      · cases h
  | unregisterClient => cases h; exact .drop
  | completeHandshake =>
    cases h
    refine .nothing ?_ rfl
    simp only [MuxState.markHandshakeComplete]
    split <;> exact .of_eq rfl rfl rfl
  | bufferMessage msg =>
    cases h
    refine .nothing ?_ rfl
    simp only [MuxState.bufferMessage]
    split <;> exact .of_eq rfl rfl rfl
  | markServerInitialized msg | trySend msg | checkHandshake msg =>
    simp only [run] at h
    split at h <;> cases h <;> exact .nothing (.of_eq rfl rfl rfl) rfl
  | rejectTooLarge msg | rejectHandshakeTimeout | updateQueueDepth | publishStatus
  | releasePermit => cases h; exact .nothing (.of_eq rfl rfl rfl) rfl

end ClientOp

/-! ## The router -/

namespace RouterOp

variable {order : List String} {op : RouterOp} {ops : List RouterOp}

theorem initCaches_append (ops ops' : List RouterOp) :
    initCaches (ops ++ ops') = initCaches ops ++ initCaches ops' :=
  List.filterMap_append

/-- **What the router's operation does to the `initialize` requests.** -/
inductive InitMove (sh : Shared) : RouterOp → Shared → List RouterOp → Prop
  | nothing {op : RouterOp} {sh' : Shared} {ops : List RouterOp} (h : SameInit sh sh')
      (hop : initCaches [op] = []) (hops : initCaches ops = []) : InitMove sh op sh' ops
  | take {msg : Value} {id : String} {p : Pending} {sh' : Shared} {ops : List RouterOp}
      (hget : sh.st.pending.get id = some p) (hinit : p.isInitialize = true)
      (hpending : sh.initPending.Perm (p.localId.occ :: sh'.initPending))
      (hcached : sh'.st.cachedInitialize = sh.st.cachedInitialize)
      (hevents : sh'.initEvents = sh.initEvents ++ [.answered p.localId.occ (isError msg)])
      (hops : initCaches ops = [p.localId.occ]) : InitMove sh (.takePending msg id) sh' ops
  | cache {msg : Value} {p : Pending} {sh' : Shared}
      (hpending : sh'.initPending = sh.initPending)
      (hcached : sh'.st.cachedInitialize = some msg) (hevents : sh'.initEvents = sh.initEvents) :
      InitMove sh (.cacheInitialize msg p) sh' []
  | reset {reason : String} {sh' : Shared} (hpending : sh'.initPending = [])
      (hcached : sh'.st.cachedInitialize = none)
      (hevents : sh'.initEvents =
        sh.initEvents ++ sh.initPending.map (.answered · true) ++ [.reset]) :
      InitMove sh (.resetState reason) sh' []

theorem initMove_run (h : op.run order sh = some (sh', ops)) : InitMove sh op sh' ops := by
  cases op with
  | takePending msg id =>
    simp only [run] at h
    cases hget : sh.st.pending.get id with
    | none =>
      rw [hget] at h
      cases h
      exact .nothing (.refl sh) rfl rfl
    | some p =>
      have hvalues := (HashMap.values_remove hget).filter (·.isInitialize)
      rw [hget] at h
      cases hinit : p.isInitialize with
      | true =>
        simp only [hinit] at h
        cases h
        refine .take hget hinit ?_ rfl rfl rfl
        rw [List.filter_cons_of_pos hinit] at hvalues
        exact hvalues.map (·.localId.occ)
      | false =>
        simp only [hinit] at h
        cases h
        refine .nothing ⟨?_, rfl, List.append_nil _⟩ rfl rfl
        rw [List.filter_cons_of_neg (by simp [hinit])] at hvalues
        exact (hvalues.map (·.localId.occ)).symm
  | cacheInitialize msg p => cases h; exact .cache rfl rfl rfl
  | findTarget msg p =>
    simp only [run] at h
    split at h <;> cases h <;> exact .nothing (.refl sh) rfl rfl
  | resetState reason =>
    simp only [run] at h
    split at h <;> cases h
    exact .reset rfl rfl rfl
  | broadcast _ | sendTarget _ _ | publishStatus =>
    cases h; exact .nothing (.of_eq rfl rfl rfl) rfl rfl

/-- A turn begins with no response to cache. -/
theorem initCaches_handleServerMessage (msg : Value) :
    initCaches (handleServerMessage msg) = [] := by
  simp only [handleServerMessage]
  split
  · rfl
  · split
    · rfl
    · split <;> rfl

end RouterOp

/-! ## The reaper, and the rest -/

/-- **What the reaper's operation does to the `initialize` requests.** -/
inductive ReaperOp.InitMove (sh sh' : Shared) : Prop
  | nothing (h : SameInit sh sh')
  | timeOut {os : List Occ} (hpending : sh.initPending.Perm (os ++ sh'.initPending))
      (hcached : sh'.st.cachedInitialize = sh.st.cachedInitialize)
      (hevents : sh'.initEvents = sh.initEvents ++ os.map .timedOut)

theorem ReaperOp.initMove_run {order : List String} {op : ReaperOp} {ops : List ReaperOp}
    (h : op.run order sh = some (sh', ops)) : InitMove sh sh' := by
  cases op with
  | reap timeout =>
    simp only [run] at h
    split at h
    · rename_i horder
      cases h
      refine .timeOut ?_ rfl rfl
      have hvalues := (List.filter_append_perm (isExpired sh.now timeout) sh.st.pending.values).symm
      have hperm := (HashMap.valuesIn_perm horder).filter (isExpired sh.now timeout)
      rw [Shared.initPending, Shared.initPending, ← initOccs_append]
      rw [show (sh.st.pending.retain fun _ p => !isExpired sh.now timeout p).values = _ from
        HashMap.values_retain _ _]
      exact initOccs_perm (hvalues.trans (hperm.symm.append_right _))
    · cases h
  | readTimeout | replyExpired _ | publishStatus =>
    cases h; exact .nothing (.of_eq rfl rfl rfl)

/-- **A still step does nothing to them, or resets the cache.** -/
theorem Still.initMove (h : Still sh sh') : sh'.initPending = sh.initPending ∧
    (sh'.initEvents = sh.initEvents ∧ sh'.st.cachedInitialize = sh.st.cachedInitialize ∨
      sh'.initEvents = sh.initEvents ++ [.reset] ∧ sh'.st.cachedInitialize = none) :=
  ⟨by rw [Shared.initPending, h.pending, Shared.initPending], h.events⟩

/-! ## The cache -/

/-- The cache is filled by the router alone. -/
theorem Stepped.cached_of_some {cfg : Config} {s s' : System} {l : Label}
    (h : Stepped cfg s l s') (hk : s.shared.Keyed) (hl : ∀ order, l ≠ .router order) {v : Value}
    (hv : s'.shared.st.cachedInitialize = some v) : s.shared.st.cachedInitialize = some v := by
  have hclient : ∀ {c sh} {op : ClientOp} {ops : List ClientOp},
      op.run cfg.encodedLen c s.shared = some (sh, ops) → sh.st.cachedInitialize = some v →
        s.shared.st.cachedInitialize = some v := by
    intro c sh op ops hrun hv
    cases ClientOp.initMove_run hrun hk with
    | nothing hsame hops => rwa [← hsame.cached]
    | start hcached hcached' =>
      rw [hcached'] at hv
      cases hv
    | put hst => rwa [← hst]
    | drop => exact hv
  cases h with
  | router => exact absurd rfl (hl _)
  | handler hops hrun | writer hops hrun => exact hclient hrun hv
  | @routerTurn event rest =>
    exact (still_dispatch event rest s.shared).toQuiet.cached_of_some hv
  | reaper hops hrun =>
    cases ReaperOp.initMove_run hrun with
    | nothing hsame => rwa [← hsame.cached]
    | timeOut hpending hcached => rwa [← hcached]
  | heartbeat hops hrun => exact (HeartbeatOp.still_run hrun).toQuiet.cached_of_some hv
  | manager hops hlock hrun => exact (ManagerOp.still_run hrun).toQuiet.cached_of_some hv
  | connect | receive | disconnect | decodeError | handshakeTimeout | handshakeTick
  | writerFails | reaperTick | heartbeatTick | heartbeatEvent | childOutput | readerEnds
  | childExits | shutdown | elapse => exact hv

/-- So what is cached was cached before, or is a response the router had in its hands. -/
theorem Stepped.cached_cases {cfg : Config} {s s' : System} {l : Label}
    (h : Stepped cfg s l s') (hk : s.shared.Keyed) {v : Value}
    (hv : s'.shared.st.cachedInitialize = some v) :
    s.shared.st.cachedInitialize = some v ∨
      ∃ order p rest, l = .router order ∧ s.router = .cacheInitialize v p :: rest := by
  by_cases hl : ∀ order, l ≠ .router order
  · exact .inl (h.cached_of_some hk hl hv)
  · cases h with
    | @router order op rest ops sh hops hrun =>
      cases RouterOp.initMove_run hrun with
      | nothing hsame => exact .inl (by rwa [← hsame.cached])
      | take hget hinit hpending hcached => exact .inl (by rwa [← hcached])
      | cache hpending hcached =>
        obtain rfl := Option.some.inj (hcached.symm.trans hv)
        exact .inr ⟨order, _, rest, rfl, hops⟩
      | reset hpending hcached =>
        rw [hcached] at hv
        cases hv
    | connect | receive | disconnect | decodeError | handshakeTimeout | handshakeTick
    | writerFails | handler | writer | routerTurn | reaperTick | reaper | heartbeatTick
    | heartbeatEvent | heartbeat | manager | childOutput | readerEnds | childExits | shutdown
    | elapse => exact absurd (fun order heq => by cases heq) hl

end Mux

end VcOperator
