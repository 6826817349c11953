import VcOperator.Mux.Helpers.InitMoves
import VcOperator.Mux.Helpers.Sound
/-!
# `initialize`, once per child

The lock section of `initialize` parks a request behind one that is
running, and `initializing` says whether one is. But nothing ever sets
that flag, so what keeps a second request from being forwarded is the
cache alone. `OneAtATime` says of the history that no `initialize`
request is enqueued before the last one was answered with an error or
timed out. It holds in every run whose steps meet
`System.initializesAlone`: a request that the cache cannot serve finds no
other in the mux, no client leaves while its request is pending, and the
child answers no request it has not been sent.
-/

namespace VcOperator

namespace Mux

/-! ## The history of `initialize` requests -/

namespace InitEvent

/-- A request is answered with an error, or times out. -/
def settles (o : Occ) : InitEvent → Bool
  | answered o' isError => decide (o' = o) && isError
  | timedOut o' => decide (o' = o)
  | _ => false

/-- A request is no longer outstanding. -/
def closes (o : Occ) : InitEvent → Bool
  | answered o' _ | timedOut o' | dropped o' => decide (o' = o)
  | _ => false

/-- The requests enqueued since the last reset. -/
def putsSinceReset (events : List InitEvent) : List Occ :=
  events.foldl (fun os e => match e with
    | put o => os ++ [o]
    | reset => []
    | _ => os) []

/-- Those of them that were neither answered with an error nor timed out. -/
def unsettled (events : List InitEvent) : List Occ :=
  (putsSinceReset events).filter fun o => !events.any (settles o)

/-- The requests enqueued and not yet answered, timed out or dropped. -/
def outstanding (events : List InitEvent) : List Occ :=
  (events.filterMap fun
    | put o => some o
    | _ => none).filter fun o => !events.any (closes o)

/-- **One `initialize` request at a time.** When one is enqueued, every
other enqueued since the last reset has been answered with an error or
has timed out. -/
def OneAtATime (events : List InitEvent) : Prop :=
  ∀ pre o post, events = pre ++ put o :: post → unsettled pre = []

variable {events es : List InitEvent} {o : Occ}

theorem oneAtATime_nil : OneAtATime [] := by
  intro pre o post h
  simp at h

/-- The history grows by an event. -/
theorem OneAtATime.concat (h : OneAtATime events) {e : InitEvent}
    (he : ∀ o, e = put o → unsettled events = []) : OneAtATime (events ++ [e]) := by
  intro pre o post heq
  rcases List.eq_nil_or_concat post with rfl | ⟨post', e', rfl⟩
  · obtain ⟨rfl, hput⟩ := List.append_inj' heq rfl
    exact he o (List.singleton_inj.1 hput)
  · rw [List.concat_eq_append, ← List.cons_append, ← List.append_assoc] at heq
    exact h pre o post' (List.append_inj' heq rfl).1

/-- It grows by events that enqueue nothing. -/
theorem OneAtATime.append (h : OneAtATime events) (hes : ∀ o, put o ∉ es) :
    OneAtATime (events ++ es) := by
  induction es generalizing events with
  | nil => rwa [List.append_nil]
  | cons e es ih =>
    rw [List.append_cons]
    refine ih (h.concat fun o heq => ?_) fun o ho => hes o (List.mem_cons_of_mem _ ho)
    exact absurd (heq ▸ List.mem_cons_self ..) (hes o)

@[simp] theorem unsettled_reset : unsettled (events ++ [reset]) = [] := by
  simp [unsettled, putsSinceReset]

/-- What settles a request takes it off the list, and nothing is added. -/
theorem unsettled_append (hput : ∀ o, put o ∉ es) (hreset : reset ∉ es) :
    unsettled (events ++ es) = (unsettled events).filter fun o => !es.any (settles o) := by
  have hputs : ∀ os : List Occ, es.foldl (fun os e => match e with
      | put o => os ++ [o]
      | reset => []
      | _ => os) os = os := by
    induction es with
    | nil => exact fun os => rfl
    | cons e es ih =>
      intro os
      have hrest := ih (fun o ho => hput o (List.mem_cons_of_mem _ ho))
        fun h => hreset (List.mem_cons_of_mem _ h)
      cases e with
      | put o => exact absurd (List.mem_cons_self ..) (hput o)
      | reset => exact absurd (List.mem_cons_self ..) hreset
      | answered _ _ | timedOut _ | dropped _ => exact hrest os
  simp only [unsettled, putsSinceReset, List.foldl_append, hputs, List.filter_filter,
    List.any_append, Bool.not_or, Bool.and_comm]

theorem unsettled_put : unsettled (events ++ [put o]) =
    unsettled events ++ if events.any (settles o) then [] else [o] := by
  have hsettles : ∀ o', settles o' (put o) = false := fun _ => rfl
  simp only [unsettled, putsSinceReset, List.foldl_append, List.foldl_cons, List.foldl_nil,
    List.filter_append, List.any_append, List.any_cons, List.any_nil, hsettles, Bool.or_false]
  congr 1
  cases h : events.any (settles o) <;> simp [h]

theorem outstanding_append (hput : ∀ o, put o ∉ es) :
    outstanding (events ++ es) = (outstanding events).filter fun o => !es.any (closes o) := by
  have hnone : es.filterMap (fun | put o => some o | _ => none) = [] := by
    refine List.filterMap_eq_nil_iff.2 fun e he => ?_
    cases e with
    | put o => exact absurd he (hput o)
    | answered _ _ | timedOut _ | dropped _ | reset => rfl
  simp only [outstanding, List.filterMap_append, hnone, List.append_nil, List.filter_filter,
    List.any_append, Bool.not_or, Bool.and_comm]

theorem outstanding_put : outstanding (events ++ [put o]) =
    outstanding events ++ if events.any (closes o) then [] else [o] := by
  have hcloses : ∀ o', closes o' (put o) = false := fun _ => rfl
  simp only [outstanding, List.filterMap_append, List.filter_append, List.any_append,
    List.any_cons, List.any_nil, hcloses, Bool.or_false]
  congr 1
  cases h : events.any (closes o) <;> simp [h]

/-- What settles a request closes it. -/
theorem closes_of_settles (h : events.any (settles o) = true) : events.any (closes o) = true := by
  obtain ⟨e, he, hs⟩ := List.any_eq_true.1 h
  refine List.any_eq_true.2 ⟨e, he, ?_⟩
  cases e with
  | answered o' isError => exact (Bool.and_eq_true_iff.1 hs).1
  | timedOut o' => exact hs
  | put _ | dropped _ | reset => cases hs

theorem any_settles_append_left (h : events.any (settles o) = true) :
    (events ++ es).any (settles o) = true := by
  rw [List.any_append, h, Bool.true_or]

/-- A list of at most the request `o` stays one. -/
theorem unsettled_append_of_eq (hput : ∀ o, put o ∉ es) (hreset : reset ∉ es)
    (h : unsettled events = [o]) :
    unsettled (events ++ es) = [] ∨
      unsettled (events ++ es) = [o] ∧ es.any (settles o) = false := by
  rw [unsettled_append hput hreset, h]
  cases hes : es.any (settles o) with
  | true => exact .inl (by simp [hes])
  | false => exact .inr (by simp [hes])

end InitEvent

open InitEvent ClientOp RouterOp

/-! ## The condition -/

namespace System

variable (s : System)

/-- A handler is about to enqueue an `initialize` request. -/
def sendsInitialize : Bool :=
  (List.range s.shared.st.nextClientId).any fun c => !(initSends (s.handlers c)).isEmpty

/-- An `initialize` request is about to be enqueued, is pending, or was
answered and is about to be cached. -/
def initializeInFlight : Bool :=
  !s.shared.initPending.isEmpty || !(initCaches s.router).isEmpty || s.sendsInitialize

/-- No `initialize` request of client `c` is pending. -/
def noInitializeOf (c : ℕ) : Bool :=
  s.shared.st.pending.values.all fun p => !(p.isInitialize && decide (p.clientId = c))

/-- **The condition on a step.** A request the cache cannot serve finds no
other in the mux, a client leaves with none of its own pending, and the
router takes the answer to one that was enqueued. -/
def initializesAlone : Label → Bool
  | .handler c =>
    match s.handlers c with
    | .handleInitialize _ _ :: _ =>
      s.shared.st.cachedInitialize.isSome || !s.initializeInFlight
    | .unregisterClient :: _ => s.noInitializeOf c
    | _ => true
  | .writer c =>
    match s.writers c with
    | .unregisterClient :: _ => s.noInitializeOf c
    | _ => true
  | .router _ =>
    match s.router with
    | .takePending _ id :: _ =>
      match s.shared.st.pending.get id with
      | some p => !(p.isInitialize && s.sendsInitialize)
      | none => true
    | _ => true
  | _ => true

/-- **An `initialize` request that arrives while one is outstanding is parked.** -/
def Parks (s : System) (l : Label) (s' : System) : Prop :=
  ∀ c val lid rest, l = .handler c → s.handlers c = .handleInitialize val lid :: rest →
    outstanding s.shared.initEvents ≠ [] → (c, lid) ∈ s'.shared.st.initWaiting

end System

/-! ## The invariant -/

/-- **Where the one `initialize` request is.** Either no handler is about to
enqueue one, and the one that is unsettled (if any) is pending, about to
be cached, or served by the cache; or one handler is about to enqueue one,
and it is the only one. -/
inductive Stage (s : System) : Prop
  | resting (hsends : ∀ c, initSends (s.handlers c) = [])
      (h : unsettled s.shared.initEvents = [] ∨ s.shared.st.cachedInitialize.isSome = true ∨
        ∃ o, unsettled s.shared.initEvents = [o] ∧
          (o ∈ s.shared.initPending ∨ o ∈ initCaches s.router))
  | sending {c : ℕ} {o : Occ} (hsends : initSends (s.handlers c) = [o])
      (hothers : ∀ c' ≠ c, initSends (s.handlers c') = [])
      (h : unsettled s.shared.initEvents = [])
      (ho : o ∈ s.shared.initPending ∨ s.shared.initEvents.any (settles o) = true)

/-- **One `initialize` request at a time, and where it is.** -/
structure System.SingleFlight (s : System) : Prop where
  order : OneAtATime s.shared.initEvents
  atMostOne : s.shared.initPending.length ≤ 1
  /-- Once one is answered, none is pending. -/
  clear : initCaches s.router ≠ [] ∨ s.shared.st.cachedInitialize.isSome = true →
    s.shared.initPending = []
  open' : ∀ o ∈ outstanding s.shared.initEvents, o ∈ s.shared.initPending
  stage : Stage s

variable {s s' : System} {es : List InitEvent}

/-- No handler is about to enqueue an `initialize` request it was not before. -/
def SendsFewer (s s' : System) : Prop :=
  ∀ c, initSends (s'.handlers c) = initSends (s.handlers c) ∨ initSends (s'.handlers c) = []

theorem sendsFewer_of_eq (h : s'.handlers = s.handlers) : SendsFewer s s' :=
  fun c => .inl (by rw [h])

/-- A step that enqueues none, and resets nothing. -/
structure Settling (s s' : System) (es : List InitEvent) : Prop where
  noPut : ∀ o, .put o ∉ es
  noReset : .reset ∉ es
  events : s'.shared.initEvents = s.shared.initEvents ++ es
  cached : s'.shared.st.cachedInitialize = s.shared.st.cachedInitialize
  fewer : s'.shared.initPending.length ≤ s.shared.initPending.length
  closed : ∀ o ∈ s.shared.initPending, o ∈ s'.shared.initPending ∨ es.any (closes o) = true
  settled : ∀ o ∈ s.shared.initPending, o ∈ s'.shared.initPending ∨
    es.any (settles o) = true ∨ (∀ c, initSends (s.handlers c) = []) ∧ o ∈ initCaches s'.router
  caches : initCaches s.router ⊆ initCaches s'.router
  clear : initCaches s'.router ≠ [] → initCaches s.router ≠ [] ∨ s'.shared.initPending = []
  sends : SendsFewer s s'

theorem List.eq_nil_of_length_le {α : Type} {as bs : List α} (h : bs.length ≤ as.length)
    (has : as = []) : bs = [] := by
  rw [has] at h
  exact List.eq_nil_of_length_eq_zero (Nat.le_zero.1 h)

theorem Stage.settling (hs : Stage s) (h : Settling s s' es) : Stage s' := by
  cases hs with
  | resting hsends hU =>
    refine .resting (fun c => ?_) ?_
    · rcases h.sends c with heq | heq
      · rw [heq, hsends c]
      · exact heq
    · rcases hU with hU | hU | ⟨o, hU, ho⟩
      · left
        rw [h.events, unsettled_append h.noPut h.noReset, hU, List.filter_nil]
      · exact .inr (.inl (h.cached ▸ hU))
      · rcases unsettled_append_of_eq h.noPut h.noReset hU with hU' | ⟨hU', hsettles⟩
        · exact .inl (h.events ▸ hU')
        · refine .inr (.inr ⟨o, h.events ▸ hU', ?_⟩)
          rcases ho with ho | ho
          · rcases h.settled o ho with ho | ho | ⟨-, ho⟩
            · exact .inl ho
            · rw [hsettles] at ho
              cases ho
            · exact .inr ho
          · exact .inr (h.caches ho)
  | @sending c o hsends hothers hU ho =>
    have hU' : unsettled s'.shared.initEvents = [] := by
      rw [h.events, unsettled_append h.noPut h.noReset, hU, List.filter_nil]
    have hothers' : ∀ c' ≠ c, initSends (s'.handlers c') = [] := by
      intro c' hc'
      rcases h.sends c' with heq | heq
      · rw [heq, hothers c' hc']
      · exact heq
    rcases h.sends c with heq | heq
    · refine .sending (heq.trans hsends) hothers' hU' ?_
      rw [h.events]
      rcases ho with ho | ho
      · rcases h.settled o ho with ho | ho | ⟨hnone, -⟩
        · exact .inl ho
        · exact .inr (by rw [List.any_append, ho, Bool.or_true])
        · rw [hnone c] at hsends
          cases hsends
      · exact .inr (any_settles_append_left ho)
    · refine .resting (fun c' => ?_) (.inl hU')
      rcases eq_or_ne c' c with rfl | hne
      · exact heq
      · exact hothers' c' hne

/-- **What settles requests keeps them apart.** -/
theorem System.SingleFlight.settling (es : List InitEvent) (hs : s.SingleFlight)
    (h : Settling s s' es) : s'.SingleFlight where
  order := by
    rw [h.events]
    exact hs.order.append h.noPut
  atMostOne := Nat.le_trans h.fewer hs.atMostOne
  clear := by
    intro hclear
    rcases hclear with hcaches | hcached
    · rcases h.clear hcaches with hcaches | hnil
      · exact List.eq_nil_of_length_le h.fewer (hs.clear (.inl hcaches))
      · exact hnil
    · exact List.eq_nil_of_length_le h.fewer (hs.clear (.inr (h.cached ▸ hcached)))
  open' := by
    intro o ho
    rw [h.events, outstanding_append h.noPut] at ho
    obtain ⟨ho, hopen⟩ := List.mem_filter.1 ho
    rcases h.closed o (hs.open' o ho) with hmem | hclosed
    · exact hmem
    · rw [hclosed] at hopen
      cases hopen
  stage := hs.stage.settling h

theorem Settling.of_same (h : SameInit s.shared s'.shared)
    (hcaches : initCaches s'.router = initCaches s.router) (hsends : SendsFewer s s') :
    Settling s s' [] where
  noPut := fun o => List.not_mem_nil
  noReset := List.not_mem_nil
  events := by rw [h.events, List.append_nil]
  cached := h.cached
  fewer := Nat.le_of_eq h.pending.length_eq
  closed := fun o ho => .inl (h.pending.mem_iff.2 ho)
  settled := fun o ho => .inl (h.pending.mem_iff.2 ho)
  caches := hcaches ▸ List.Subset.refl _
  clear := fun hne => .inl (hcaches ▸ hne)
  sends := hsends

/-- **A reset starts over.** Either the pending requests stay, or all of
them are answered with an error. -/
theorem System.SingleFlight.reset (es : List InitEvent) (hs : s.SingleFlight)
    (hput : ∀ o, .put o ∉ es)
    (hevents : s'.shared.initEvents = s.shared.initEvents ++ es ++ [.reset])
    (hcached : s'.shared.st.cachedInitialize = none)
    (hcaches : initCaches s'.router = initCaches s.router) (hhandlers : s'.handlers = s.handlers)
    (hpending : s'.shared.initPending = s.shared.initPending ∨
      s'.shared.initPending = [] ∧ ∀ o ∈ s.shared.initPending, es.any (settles o) = true) :
    s'.SingleFlight where
  order := by
    rw [hevents]
    exact (hs.order.append hput).concat fun o h => by cases h
  atMostOne := by
    rcases hpending with heq | ⟨heq, -⟩
    · exact heq ▸ hs.atMostOne
    · simp [heq]
  clear := by
    intro hclear
    rcases hpending with heq | ⟨heq, -⟩
    · rw [hcaches, hcached] at hclear
      rcases hclear with hclear | hclear
      · exact heq.trans (hs.clear (.inl hclear))
      · cases hclear
    · exact heq
  open' := by
    intro o ho
    rw [hevents, outstanding_append (by simp), outstanding_append hput] at ho
    obtain ⟨ho, hopen⟩ := List.mem_filter.1 (List.mem_filter.1 ho).1
    have hmem := hs.open' o ho
    rcases hpending with heq | ⟨-, hall⟩
    · exact heq ▸ hmem
    · rw [closes_of_settles (hall o hmem)] at hopen
      cases hopen
  stage := by
    have hU : unsettled s'.shared.initEvents = [] := by rw [hevents, unsettled_reset]
    cases hs.stage with
    | resting hsends _ => exact .resting (hhandlers ▸ hsends) (.inl hU)
    | @sending c o hsends hothers _ ho =>
      refine .sending (hhandlers ▸ hsends) (hhandlers ▸ hothers) hU ?_
      rw [hevents]
      rcases ho with ho | ho
      · rcases hpending with heq | ⟨-, hall⟩
        · exact .inl (heq ▸ ho)
        · refine .inr (any_settles_append_left ?_)
          rw [List.any_append, hall o ho, Bool.or_true]
      · exact .inr (any_settles_append_left (any_settles_append_left ho))

/-! ## Handlers -/

/-- A handler's list has been used up to a point, and goes on otherwise. -/
theorem sends_update {c : ℕ} {op : ClientOp} {rest ops : List ClientOp}
    (hops : s.handlers c = op :: rest) (hnew : initSends ops = []) {c' : ℕ} :
    initSends (Function.update s.handlers c (ops ++ rest) c') =
      if c' = c then initSends rest else initSends (s.handlers c') := by
  rcases eq_or_ne c' c with rfl | hne
  · rw [Function.update_self, initSends_append, hnew, List.nil_append, if_pos rfl]
  · rw [Function.update_of_ne hne, if_neg hne]

/-- One operation's own `initialize` request comes first. -/
theorem initSends_cons (op : ClientOp) (rest : List ClientOp) :
    initSends (op :: rest) = initSends [op] ++ initSends rest :=
  initSends_append [op] rest

/-- At most one handler is about to enqueue an `initialize` request, and at most one of them. -/
theorem Stage.sends_length (hs : Stage s) (c : ℕ) : (initSends (s.handlers c)).length ≤ 1 := by
  cases hs with
  | resting hsends => simp [hsends c]
  | @sending c₀ o hsends hothers =>
    rcases eq_or_ne c c₀ with rfl | hne
    · simp [hsends]
    · simp [hothers c hne]

/-- An operation is used up: its handler is about to enqueue no more than before. -/
theorem Stage.sendsFewer_update (hs : Stage s) {sh : Shared} {c : ℕ} {op : ClientOp}
    {rest ops : List ClientOp} (hops : s.handlers c = op :: rest) (hnew : initSends ops = []) :
    SendsFewer s
      { s with shared := sh, handlers := Function.update s.handlers c (ops ++ rest) } := by
  intro c'
  have hupdate : initSends (Function.update s.handlers c (ops ++ rest) c') = _ :=
    sends_update hops hnew
  rcases eq_or_ne c' c with rfl | hne
  · have hlen := hs.sends_length c'
    rw [hops, initSends_cons, List.length_append] at hlen
    rw [if_pos rfl] at hupdate
    rcases List.eq_nil_or_concat (initSends [op]) with hnil | ⟨os, o, hcons⟩
    · refine .inl (hupdate.trans ?_)
      rw [hops, initSends_cons, hnil, List.nil_append]
    · refine .inr (hupdate.trans (List.eq_nil_of_length_eq_zero ?_))
      rw [hcons, List.concat_eq_append, List.length_append, List.length_singleton] at hlen
      omega
  · rw [if_neg hne] at hupdate
    exact .inl hupdate

/-- **A handler takes up an `initialize` request, and finds no other.** -/
theorem System.SingleFlight.start (hs : s.SingleFlight) {c : ℕ} {op : ClientOp}
    {rest ops : List ClientOp} {sh : Shared} {o : Occ} (hops : s.handlers c = op :: rest)
    (hempty : s.shared.initPending = []) (hcaches : initCaches s.router = [])
    (hsends : ∀ c, initSends (s.handlers c) = [])
    (hcached : s.shared.st.cachedInitialize = none) (hcached' : sh.st.cachedInitialize = none)
    (hpending : sh.initPending.Perm (o :: s.shared.initPending))
    (hevents : sh.initEvents = s.shared.initEvents) (hnew : initSends ops = [o]) :
    System.SingleFlight
      { s with shared := sh, handlers := Function.update s.handlers c (ops ++ rest) } where
  order := hevents ▸ hs.order
  atMostOne := by
    rw [hempty] at hpending
    exact Nat.le_of_eq hpending.length_eq
  clear := by
    intro hclear
    rcases hclear with hclear | hclear
    · exact absurd hcaches hclear
    · replace hclear : sh.st.cachedInitialize.isSome = true := hclear
      rw [hcached'] at hclear
      cases hclear
  open' := by
    intro o' ho'
    have hmem := hs.open' o' (hevents ▸ ho')
    rw [hempty] at hmem
    cases hmem
  stage := by
    have hU : unsettled s.shared.initEvents = [] := by
      cases hs.stage with
      | resting _ hU =>
        rcases hU with hU | hU | ⟨o', -, ho' | ho'⟩
        · exact hU
        · rw [hcached] at hU
          cases hU
        · rw [hempty] at ho'
          cases ho'
        · rw [hcaches] at ho'
          cases ho'
      | sending _ _ hU => exact hU
    refine .sending (c := c) (o := o) ?_ (fun c' hne => ?_) (hevents ▸ hU) (.inl ?_)
    · have hrest := hsends c
      rw [hops, initSends_cons, List.append_eq_nil_iff] at hrest
      simp only [Function.update_self]
      rw [initSends_append, hnew, hrest.2]
      rfl
    · simp only [Function.update_of_ne hne]
      exact hsends c'
    · exact hpending.mem_iff.2 (List.mem_cons_self ..)

/-- **A handler enqueues the `initialize` request it holds.** -/
theorem System.SingleFlight.put (hs : s.SingleFlight) {c : ℕ} {msg : Tagged Value}
    {rest ops : List ClientOp} {sh : Shared} (hops : s.handlers c = .send msg true :: rest)
    (hst : sh.st = s.shared.st)
    (hevents : sh.initEvents = s.shared.initEvents ++ [.put msg.occ])
    (hnew : initSends ops = []) :
    System.SingleFlight
      { s with shared := sh, handlers := Function.update s.handlers c (ops ++ rest) } := by
  have hpending : sh.initPending = s.shared.initPending := by
    rw [Shared.initPending, hst, Shared.initPending]
  have hfirst : initSends (s.handlers c) = msg.occ :: initSends rest := by
    rw [hops, initSends_cons]
    rfl
  -- the handler that enqueues is the only one that is about to
  have hstage : initSends rest = [] ∧ (∀ c' ≠ c, initSends (s.handlers c') = []) ∧
      unsettled s.shared.initEvents = [] ∧ (msg.occ ∈ s.shared.initPending ∨
        s.shared.initEvents.any (settles msg.occ) = true) := by
    cases hs.stage with
    | resting hsends =>
      rw [hsends c] at hfirst
      cases hfirst
    | @sending c₀ o hsends hothers hU ho =>
      have hc : c = c₀ := by
        by_contra hne
        rw [hothers c hne] at hfirst
        cases hfirst
      subst hc
      rw [hsends, List.cons.injEq] at hfirst
      obtain ⟨rfl, hrest⟩ := hfirst
      exact ⟨hrest.symm, hothers, hU, ho⟩
  obtain ⟨hrest, hothers, hU, ho⟩ := hstage
  refine ⟨?_, hpending ▸ hs.atMostOne, ?_, ?_, .resting (fun c' => ?_) ?_⟩
  · simp only [hevents]
    exact hs.order.concat fun _ _ => hU
  · simp only [hpending, hst]
    exact hs.clear
  · intro o' ho'
    simp only [hevents, outstanding_put] at ho'
    simp only [hpending]
    rcases List.mem_append.1 ho' with ho' | ho'
    · exact hs.open' o' ho'
    · split at ho'
      · cases ho'
      · rename_i hopen
        rw [List.mem_singleton.1 ho']
        exact ho.resolve_right fun h => hopen (closes_of_settles h)
  · have hupdate : initSends (Function.update s.handlers c (ops ++ rest) c') = _ :=
      sends_update hops hnew
    refine hupdate.trans ?_
    split_ifs with hc
    · exact hrest
    · exact hothers c' hc
  · simp only [hevents, unsettled_put, hU, List.nil_append, hpending]
    split_ifs with h
    · exact .inl rfl
    · exact .inr (.inr ⟨msg.occ, rfl, .inl (ho.resolve_right h)⟩)

/-- A client without a pending `initialize` request leaves. -/
theorem sameInit_unregister {c : ℕ} (h : s.noInitializeOf c = true) :
    SameInit s.shared (s.shared.unregister c) := by
  have hnone : ∀ p ∈ s.shared.st.pending.values, p.isInitialize = true → p.clientId ≠ c := by
    intro p hp hinit hc
    have hp' := List.all_eq_true.1 h p hp
    simp [hinit, hc] at hp'
  refine ⟨?_, rfl, ?_⟩
  · have hvalues : (s.shared.unregister c).st.pending.values = _ :=
      HashMap.values_retain s.shared.st.pending fun p => p.clientId ≠ c
    rw [Shared.initPending, hvalues, Shared.initPending, Shared.initOccs, Shared.initOccs,
      List.filter_filter]
    refine List.Perm.of_eq (congrArg _ (List.filter_congr fun p hp => ?_))
    cases hinit : p.isInitialize with
    | false => rfl
    | true => simpa using hnone p hp hinit
  · have hdropped : (s.shared.st.pending.values.filter (·.clientId = c)).filter
        (·.isInitialize) = [] := by
      rw [List.filter_filter]
      refine List.filter_eq_nil_iff.2 fun p hp hboth => ?_
      rw [Bool.and_eq_true, decide_eq_true_eq] at hboth
      exact hnone p hp hboth.1 hboth.2
    simp only [Shared.unregister, Shared.initOccs, hdropped, List.map_nil, List.append_nil]

/-! ## Every step -/

/-- No handler is about to enqueue an `initialize` request. -/
theorem System.sends_eq_nil (hb : s.Born) (h : s.sendsInitialize = false) (c : ℕ) :
    initSends (s.handlers c) = [] := by
  rcases eq_or_ne (s.handlers c) [] with hnil | hne
  · rw [hnil]
    rfl
  · have hc := List.any_eq_false.1 h c (List.mem_range.2 (hb c hne))
    simpa using hc

/-- **One operation of a handler.** -/
theorem System.SingleFlight.handler (hs : s.SingleFlight) (hb : s.Born) (hk : s.shared.Keyed)
    {enc : Value → ℕ} {c : ℕ} {op : ClientOp} {rest ops : List ClientOp} {sh : Shared}
    (hops : s.handlers c = op :: rest) (hrun : op.run enc c s.shared = some (sh, ops))
    (hok : s.initializesAlone (.handler c) = true) : System.SingleFlight
      { s with shared := sh, handlers := Function.update s.handlers c (ops ++ rest) } := by
  cases ClientOp.initMove_run hrun hk with
  | nothing h hnew =>
    exact hs.settling [] (.of_same h rfl (hs.stage.sendsFewer_update hops hnew))
  | start hcached hcached' hpending hevents hnew =>
    have hfree : s.initializeInFlight = false := by
      simpa [System.initializesAlone, hops, hcached] using hok
    simp only [System.initializeInFlight, Bool.or_eq_false_iff, Bool.not_eq_false',
      List.isEmpty_iff] at hfree
    exact hs.start hops hfree.1.1 hfree.1.2 (System.sends_eq_nil hb hfree.2) hcached hcached'
      hpending hevents hnew
  | put hst hevents hnew => exact hs.put hops hst hevents hnew
  | drop =>
    have hnone : s.noInitializeOf c = true := by
      simpa [System.initializesAlone, hops] using hok
    exact hs.settling [] (.of_same (sameInit_unregister hnone) rfl
      (hs.stage.sendsFewer_update hops rfl))

/-- **One operation of the router.** -/
theorem System.SingleFlight.router (hs : s.SingleFlight) (hb : s.Born) {order : List String}
    {op : RouterOp} {rest ops : List RouterOp} {sh : Shared} (hops : s.router = op :: rest)
    (hrun : op.run order s.shared = some (sh, ops))
    (hok : s.initializesAlone (.router order) = true) :
    System.SingleFlight { s with shared := sh, router := ops ++ rest } := by
  have hcaches : initCaches s.router = initCaches [op] ++ initCaches rest := by
    rw [hops]
    exact initCaches_append [op] rest
  cases RouterOp.initMove_run hrun with
  | nothing h hop hnew =>
    refine hs.settling [] (.of_same h ?_ (sendsFewer_of_eq rfl))
    rw [hcaches, hop]
    simp only [initCaches_append, hnew]
  | @take msg id p _ _ hget hinit hpending hcached hevents hnew =>
    have hidle : ∀ c, initSends (s.handlers c) = [] := System.sends_eq_nil hb (by
      simpa [System.initializesAlone, hops, hget, hinit] using hok)
    have hnil : sh.initPending = [] := by
      have hlen := hpending.length_eq
      have hmost := hs.atMostOne
      rw [List.length_cons] at hlen
      exact List.eq_nil_of_length_eq_zero (by omega)
    have honly : ∀ o ∈ s.shared.initPending, o = p.localId.occ := by
      intro o ho
      rw [hnil] at hpending
      exact List.mem_singleton.1 (hpending.mem_iff.1 ho)
    exact hs.settling [.answered p.localId.occ (isError msg)]
      { noPut := by simp
        noReset := by simp
        events := hevents
        cached := hcached
        fewer := by rw [hpending.length_eq]; exact Nat.le_succ _
        closed := fun o ho => .inr (by simp [closes, honly o ho])
        settled := fun o ho => .inr (.inr ⟨hidle, by simp [initCaches_append, hnew, honly o ho]⟩)
        caches := by
          rw [hcaches, initCaches_append]
          exact List.subset_append_right _ _
        clear := fun _ => .inr hnil
        sends := sendsFewer_of_eq rfl }
  | @cache msg p _ hpending hcached hevents =>
    have hnil : s.shared.initPending = [] := hs.clear (.inl (by
      rw [hcaches]
      exact List.cons_ne_nil _ _))
    refine ⟨hevents ▸ hs.order, by simp [hpending, hnil], fun _ => hpending.trans hnil,
      fun o ho => ?_, ?_⟩
    · have hmem := hs.open' o (hevents ▸ ho)
      rw [hnil] at hmem
      cases hmem
    · cases hs.stage with
      | resting hsends _ => exact .resting hsends (.inr (.inl (by simp [hcached])))
      | sending hsends hothers hU ho =>
        exact .sending hsends hothers (hevents ▸ hU) (hpending ▸ hevents ▸ ho)
  | reset hpending hcached hevents =>
    refine hs.reset (s.shared.initPending.map (.answered · true)) (by simp) hevents hcached
      (by rw [hcaches]; rfl) rfl (.inr ⟨hpending, fun o ho => ?_⟩)
    exact List.any_eq_true.2 ⟨.answered o true, List.mem_map.2 ⟨o, ho, rfl⟩, by simp [settles]⟩

/-- **One operation of the reaper.** -/
theorem System.SingleFlight.reaper (hs : s.SingleFlight) {order : List String}
    {op : ReaperOp} {ops rops : List ReaperOp} {sh : Shared}
    (hrun : op.run order s.shared = some (sh, ops)) :
    System.SingleFlight { s with shared := sh, reaper := rops } := by
  cases ReaperOp.initMove_run hrun with
  | nothing h => exact hs.settling [] (.of_same h rfl (sendsFewer_of_eq rfl))
  | @timeOut os hpending hcached hevents =>
    have hsettles : ∀ o ∈ s.shared.initPending, o ∈ sh.initPending ∨
        (os.map InitEvent.timedOut).any (settles o) = true := by
      intro o ho
      rcases List.mem_append.1 (hpending.mem_iff.1 ho) with ho | ho
      · exact .inr (List.any_eq_true.2
          ⟨.timedOut o, List.mem_map.2 ⟨o, ho, rfl⟩, by simp [settles]⟩)
      · exact .inl ho
    exact hs.settling (os.map .timedOut)
      { noPut := by simp
        noReset := by simp
        events := hevents
        cached := hcached
        fewer := by
          rw [hpending.length_eq, List.length_append]
          exact Nat.le_add_left _ _
        closed := fun o ho => (hsettles o ho).imp_right closes_of_settles
        settled := fun o ho => (hsettles o ho).imp_right .inl
        caches := List.Subset.refl _
        clear := .inl
        sends := sendsFewer_of_eq rfl }

/-- **What the inspector and the manager do**: nothing, or a reset. -/
theorem System.SingleFlight.still (hs : s.SingleFlight) (h : Still s.shared s'.shared)
    (hcaches : initCaches s'.router = initCaches s.router) (hhandlers : s'.handlers = s.handlers) :
    s'.SingleFlight := by
  obtain ⟨hpending, ⟨hevents, hcached⟩ | ⟨hevents, hcached⟩⟩ := h.initMove
  · exact hs.settling [] (.of_same ⟨.of_eq hpending, hcached, hevents⟩ hcaches
      (sendsFewer_of_eq hhandlers))
  · exact hs.reset [] (by simp) (by rw [List.append_nil]; exact hevents) hcached hcaches
      hhandlers (.inl hpending)

variable {cfg : Config} {l : Label}

/-- A list that enqueues no `initialize` request replaces an empty one. -/
theorem sendsFewer_update {c : ℕ} {ops : List ClientOp}
    (hnew : initSends ops = []) (c' : ℕ) :
    initSends (Function.update s.handlers c ops c') = initSends (s.handlers c') ∨
      initSends (Function.update s.handlers c ops c') = [] := by
  rcases eq_or_ne c' c with rfl | hne
  · rw [Function.update_self]
    exact .inr hnew
  · rw [Function.update_of_ne hne]
    exact .inl rfl

/-- **One step, where it meets the condition.** -/
theorem Stepped.singleFlight (h : Stepped cfg s l s') (hsound : s.Sound) (hb : s.Born)
    (hk : s.shared.Keyed) (hs : s.SingleFlight) (hok : s.initializesAlone l = true) :
    s'.SingleFlight := by
  cases h with
  | connect | receive | disconnect | decodeError | handshakeTimeout =>
    exact hs.settling [] (.of_same (.of_eq rfl rfl rfl) rfl (sendsFewer_update rfl))
  | handshakeTick | writerFails | reaperTick | heartbeatTick | heartbeatEvent | childOutput
  | readerEnds | childExits | shutdown | elapse =>
    exact hs.settling [] (.of_same (.of_eq rfl rfl rfl) rfl (sendsFewer_of_eq rfl))
  | handler hops hrun => exact hs.handler hb hk hops hrun hok
  | @writer c op rest ops sh hops hrun =>
    rcases hsound.writers c op (by simp [hops]) with rfl | rfl
    · have hnone : s.noInitializeOf c = true := by
        simpa [System.initializesAlone, hops] using hok
      cases hrun
      exact hs.settling [] (.of_same (sameInit_unregister hnone) rfl (sendsFewer_of_eq rfl))
    · cases hrun
      exact hs.settling [] (.of_same (.of_eq rfl rfl rfl) rfl (sendsFewer_of_eq rfl))
  | @routerTurn event rest hidle hevents =>
    refine hs.still (still_dispatch event rest s.shared) ?_ rfl
    rw [hidle]
    cases event with
    | message msg =>
      simp only [RouterOp.dispatch]
      split
      · rfl
      · exact initCaches_handleServerMessage msg
    | reset reason => rfl
  | router hops hrun => exact hs.router hb hops hrun hok
  | reaper hops hrun => exact hs.reaper hrun
  | heartbeat hops hrun => exact hs.still (HeartbeatOp.still_run hrun) rfl rfl
  | manager hops hlock hrun => exact hs.still (ManagerOp.still_run hrun) rfl rfl

theorem singleFlight_init (cfg : Config) : (System.init cfg).SingleFlight where
  order := oneAtATime_nil
  atMostOne := Nat.zero_le _
  clear := fun _ => rfl
  open' := fun o ho => by cases ho
  stage := .resting (fun c => rfl) (.inl rfl)

/-- **Where the one `initialize` request is, in every run that meets the condition.** -/
theorem Reachable.singleFlight
    (h : Reachable cfg (fun s l => s.initializesAlone l = true) s) : s.SingleFlight :=
  Run.Reach.invariant_of (I := System.SingleFlight)
    (J := fun s => s.Sound ∧ s.Born ∧ s.shared.Keyed)
    (fun _ hr => ⟨Reachable.sound hr, Reachable.born hr, Reachable.keyed hr⟩)
    (singleFlight_init cfg)
    (fun _ _ _ hok hJ hs hstep =>
      (stepped_of_step hstep).singleFlight hJ.1 hJ.2.1 hJ.2.2 hs hok) h

/-! ## The fan-out -/

/-- **When a response is cached, every registered waiter gets one copy**,
under the id it asked with, and no one waits any longer. -/
def System.FansOut (s : System) (l : Label) (s' : System) : Prop :=
  ∀ order msg p rest, l = .router order → s.router = .cacheInitialize msg p :: rest →
    s'.shared.st.initWaiting = [] ∧
    ∃ copies, s'.shared.sent = s.shared.sent ++ copies ∧
      List.Forall₂ (fun w d => d.client = w.1 ∧ d.msg = setId msg w.2.val ∧
          d.msg.get "id" = some w.2.val ∧ d.answers = some w.2.occ)
        (s.shared.st.initWaiting.filter fun w => w.1 ∈ s.shared.st.clients) copies

theorem System.Sound.fansOut (hs : s.Sound) (h : s.step cfg l = some s') : s.FansOut l s' := by
  rintro order msg p rest rfl hops
  cases stepped_of_step h with
  | router hops' hrun =>
    cases hops.symm.trans hops'
    cases hrun
    obtain ⟨old, hold⟩ := Option.isSome_iff_exists.1
      (hs.router (.cacheInitialize msg p) (by simp [hops])).1
    refine ⟨rfl, _, rfl, ?_⟩
    rw [waiterReplies, List.filter_map, List.forall₂_map_right_iff]
    exact List.forall₂_same.2 fun w _ => ⟨rfl, rfl, get_id_setId hold _, rfl⟩

/-- **`initialize` runs once per child, where each runs alone.** In a run
whose steps meet the condition one `initialize` request is enqueued at a
time, and none arrives while one is outstanding; and whenever a response
is cached, the waiters get their copies. -/
theorem initialize_once (cfg : Config) :
    (∀ s, Reachable cfg (fun s l => s.initializesAlone l = true) s →
      OneAtATime s.shared.initEvents) ∧
    (∀ s l s', Reachable cfg (fun s l => s.initializesAlone l = true) s →
      s.initializesAlone l = true → s.step cfg l = some s' → s.Parks l s') ∧
    ∀ (s : System) l s', s.Sound → s.step cfg l = some s' → s.FansOut l s' := by
  refine ⟨fun s h => (Reachable.singleFlight h).order, fun s l s' h hok hstep => ?_,
    fun s l s' hs hstep => hs.fansOut hstep⟩
  rintro c val lid rest rfl hops hout
  have hs := Reachable.singleFlight h
  obtain ⟨o, ho⟩ := List.exists_mem_of_ne_nil _ hout
  have hpending : s.shared.initPending ≠ [] := List.ne_nil_of_mem (hs.open' o ho)
  -- neither the cache nor an empty mux could serve it: it did not arrive
  have hok' : s.shared.st.cachedInitialize.isSome = true ∨ s.initializeInFlight = false := by
    simpa [System.initializesAlone, hops] using hok
  rcases hok' with hcached | hfree
  · exact absurd (hs.clear (.inr hcached)) hpending
  · simp only [System.initializeInFlight, Bool.or_eq_false_iff, Bool.not_eq_false',
      List.isEmpty_iff] at hfree
    exact absurd hfree.1.1 hpending

/-- The child is started, a client asks for `initialize`, and the child
answers; the router is about to cache the answer. -/
def initializeRun : List Label :=
  [.manager .go, .manager .go, .manager (.spawned 1), .manager .go, .manager .go, .manager .go,
    .connect, .handler 1,
    .receive 1 (.object [("id", .number (.posInt 7)), ("method", .string "initialize")]),
    .handler 1, .handler 1, .handler 1,
    .childOutput 0 (.object [("id", .string "c1:1"), ("result", .object [])]),
    .routerTurn, .router []]

/-- One request is enqueued in that run, and its answer is cached. -/
theorem initialize_once_initializeRun :
    (Config.small.after initializeRun).shared.initEvents =
        [.put ⟨1, 0⟩, .answered ⟨1, 0⟩ false] ∧
      OneAtATime (Config.small.after initializeRun).shared.initEvents ∧
      (Config.small.after initializeRun).Parks (.router [])
        (Config.small.after (initializeRun ++ [.router []])) ∧
      (Config.small.after initializeRun).FansOut (.router [])
        (Config.small.after (initializeRun ++ [.router []])) := by
  have hruns : Config.small.runs initializeRun = true := by decide +kernel
  have hruns' : Config.small.runs (initializeRun ++ [.router []]) = true := by decide +kernel
  have hmeets : Run.meets (System.step .small) System.initializesAlone
      (System.init .small) initializeRun = true := by decide +kernel
  have hok : (Config.small.after initializeRun).initializesAlone (.router []) = true := by
    decide +kernel
  have hreach := Config.small.reachable_of_meets _ hruns hmeets
  have hstep := Config.small.step_after hruns hruns'
  exact ⟨by decide +kernel, (initialize_once .small).1 _ hreach,
    (initialize_once .small).2.1 _ _ _ hreach hok hstep,
    (initialize_once .small).2.2 _ _ _ (Reachable.sound hreach) hstep⟩

/-- Two clients ask for `initialize` before the child has answered either. -/
def twoInitializesRun : List Label :=
  [.connect, .handler 1, .connect, .handler 2,
    .receive 1 (.object [("id", .number (.posInt 7)), ("method", .string "initialize")]),
    .receive 2 (.object [("id", .number (.posInt 8)), ("method", .string "initialize")]),
    .handler 1, .handler 1, .handler 1, .handler 2, .handler 2, .handler 2]

/-- **Two `initialize` requests reach the child**, and none is parked. -/
theorem not_oneAtATime_twoInitializesRun : ¬ ∀ (cfg : Config) (s : System),
    Reachable cfg Run.Any s → OneAtATime s.shared.initEvents := by
  intro hall
  have hruns : Config.small.runs twoInitializesRun = true := by decide +kernel
  have hevents : (Config.small.after twoInitializesRun).shared.initEvents =
      [.put ⟨1, 0⟩] ++ .put ⟨2, 1⟩ :: [] := by decide +kernel
  have hone := hall _ _ (Config.small.reachable_after hruns) _ _ _ hevents
  cases hone

end Mux

end VcOperator
