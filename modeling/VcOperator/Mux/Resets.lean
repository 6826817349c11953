import VcOperator.Mux.Helpers.Ids
import VcOperator.Mux.Helpers.ResetCount
/-!
# What a reset answers, and what is written after it

`reset_state` answers every pending request with an error, and empties
`pending`. The request itself may still be on its way: in the hands of
its handler, on the `to_server` queue, which the reset does not drain, or
in the hands of the manager. Then the next incarnation is given it, after
its client was told that it had failed.

`not_written_after_reset` says that this is the only way. A request that
is not on its way when it is answered is never written again, whatever
the run does next, since its id is not issued a second time.
-/

namespace VcOperator

namespace Mux

/-- The message is the request that was issued the id `key`. A
`notifications/initialized` is forwarded under the id its client gave it,
and is nobody's request. -/
def isRequest (key : String) (msg : Value) : Bool :=
  decide ((msg.get "id").bind Value.asStr = some key) &&
    decide (method msg ≠ "notifications/initialized")

namespace System

/-- The request is on its way to the child, or about to be enqueued, and
`server_manager` has not returned. -/
def underway (s : System) (key : String) : Bool :=
  s.shared.toServerOpen && (s.onTheWay.any (isRequest key) ||
    (List.range s.shared.st.nextClientId).any fun c =>
      (s.handlers c).any fun op => op.outgoing.any (isRequest key))

/-- The times the request was written to an incarnation. -/
def writesOf (s : System) (key : String) (k : ℕ) : List Value :=
  (s.writtenTo k).filter (isRequest key)

end System

variable {cfg : Config} {ok : System → Label → Prop} {s s' s'' : System} {l : Label}
variable {key : String} {msg : Value}

theorem isRequest_of_noId (h : msg.get "id" = none) (key : String) :
    isRequest key msg = false := by
  simp [isRequest, h]

theorem isRequest_initialized (h : method msg = "notifications/initialized") (key : String) :
    isRequest key msg = false := by
  simp [isRequest, h]

/-- A message that is given another id is another request. -/
theorem isRequest_setId {id : String} (h : id ≠ key) (val : Value) :
    isRequest key (setId val (.string id)) = false := by
  cases val with
  | object ms =>
    have hget := get_id_setId_object ms (.string id)
    simp [isRequest, hget, Value.asStr, h]
  | null | bool _ | number _ | string _ | array _ =>
    exact isRequest_of_noId rfl key

theorem isRequest_pingMessage (c n m : ℕ) :
    isRequest (globalId c n) (HeartbeatOp.pingMessage m) = false := by
  have hne : heartbeatId m ≠ globalId c n := fun h => globalId_ne_heartbeatId c n m h.symm
  simp [isRequest, HeartbeatOp.pingMessage, Value.get, Value.member, Value.asStr, hne]

/-! ## A request that is nowhere on its way -/

/-- **The request of an issued id is not on its way**, nor about to be. -/
structure System.Nowhere (c n : ℕ) (s : System) : Prop where
  issued : n < s.shared.st.nextGlobalId
  handlers : s.Forwards fun m => isRequest (globalId c n) m = false
  onTheWay : ∀ m ∈ s.onTheWay, isRequest (globalId c n) m = false

/-- What a handler puts next is not the request. -/
theorem System.Nowhere.outgoing {c n : ℕ} (h : s.Nowhere c n) {c' : ℕ} {op : ClientOp}
    (hop : op ∈ s.handlers c') (hm : msg ∈ op.outgoing) :
    isRequest (globalId c n) msg = false := by
  have hforwards := h.handlers c' op hop
  cases op with
  | trySend m =>
    rw [List.mem_singleton.1 hm]
    rcases hforwards with hid | hmethod
    · exact isRequest_of_noId hid _
    · exact isRequest_initialized hmethod _
  | send m _ =>
    rw [List.mem_singleton.1 hm]
    exact hforwards
  | _ => cases hm

/-- **A request that is nowhere stays nowhere, and is not written.** -/
theorem Stepped.nowhere {c n : ℕ} (h : Stepped cfg s l s') (hs : s.Sound) (hn : s.Nowhere c n) :
    s'.Nowhere c n ∧ ∀ k, s'.writesOf (globalId c n) k = s.writesOf (globalId c n) k := by
  obtain ⟨_, hissues⟩ := h.routed.issues
  have hle := hissues.nextGlobalId_le
  have hconveys := h.conveys hs
  have hput : ∀ p, s'.shared.put = s.shared.put ++ [p] →
      isRequest (globalId c n) p.msg = false := by
    intro p hp
    rcases hconveys.put with hsame | ⟨q, hq, hfrom⟩
    · rw [hsame] at hp
      simp at hp
    · rw [hq] at hp
      obtain rfl : q = p := by simpa using hp
      rcases hfrom with ⟨c', op, rest, -, hops, hm⟩ | ⟨m, hm⟩
      · exact hn.outgoing (by rw [hops]; exact List.mem_cons_self ..) hm
      · rw [hm]
        exact isRequest_pingMessage c n m
  refine ⟨⟨Nat.lt_of_lt_of_le hn.issued hle, ?_, fun m hm => ?_⟩, fun k => ?_⟩
  · refine h.forwards hs hn.handlers fun c' val _ _ => isRequest_setId (fun heq => ?_) val
    have hlt := hn.issued
    have hnext := (globalId_injective heq).2
    omega
  · rcases hconveys.comes m hm with hold | ⟨p, hp, rfl⟩
    · exact hn.onTheWay m hold
    · exact hput p hp
  · rw [System.writesOf, System.writesOf]
    rcases hconveys.written k with hsame | ⟨m, hm, heq, -⟩
    · rw [hsame]
    · rw [heq, List.filter_append, List.filter_cons_of_neg (by simp [hn.onTheWay m hm]),
        List.filter_nil, List.append_nil]

/-- A request that is not underway where its id is in use is nowhere. -/
theorem System.nowhere_of_not_underway (hb : s.Born) (hforwards : s.Forwards fun _ => True)
    {i : Issue} (hi : i ∈ s.shared.issued) (hk : s.shared.Keyed)
    (hopen : s.shared.toServerOpen = true)
    (hnot : s.underway (globalId i.clientId i.n) = false) : s.Nowhere i.clientId i.n := by
  rw [underway, hopen, Bool.true_and, Bool.or_eq_false_iff] at hnot
  obtain ⟨hway, hhands⟩ := hnot
  refine ⟨hk.below i hi, fun c op hop => ?_, fun m hm => ?_⟩
  · have hop' := hforwards c op hop
    cases op with
    | send m _ =>
      have hc : c < s.shared.st.nextClientId := hb c (List.ne_nil_of_mem hop)
      by_contra hcon
      have hrequest : isRequest (globalId i.clientId i.n) m.val = true := by
        simpa [ClientOp.Forwards] using hcon
      have hany : ((List.range s.shared.st.nextClientId).any fun c =>
          (s.handlers c).any fun op =>
            op.outgoing.any (isRequest (globalId i.clientId i.n))) = true := by
        refine List.any_eq_true.2 ⟨c, List.mem_range.2 hc, List.any_eq_true.2 ⟨_, hop, ?_⟩⟩
        simp [ClientOp.outgoing, hrequest]
      rw [hany] at hhands
      cases hhands
    | _ => exact hop'
  · by_contra hcon
    have hany : s.onTheWay.any (isRequest (globalId i.clientId i.n)) = true :=
      List.any_eq_true.2 ⟨m, hm, by simpa using hcon⟩
    rw [hany] at hway
    cases hway

/-! ## A manager that has returned -/

/-- The other tasks leave the queue open. -/
theorem Stepped.toServerOpen (h : Stepped cfg s l s') (hl : ∀ choice, l ≠ .manager choice) :
    s'.shared.toServerOpen = s.shared.toServerOpen := by
  cases h with
  | manager => exact absurd rfl (hl _)
  | handler hops hrun | writer hops hrun =>
    cases ClientOp.feeds_run hrun with
    | nothing hunfed => exact hunfed.toServerOpen
    | trySend | flag => rfl
    | send hroom hunfed => exact hunfed.toServerOpen
  | @routerTurn event rest => exact (unfed_dispatch event rest s.shared).toServerOpen
  | router hops hrun => exact (RouterOp.unfed_run hrun).toServerOpen
  | reaper hops hrun => exact (ReaperOp.unfed_run hrun).toServerOpen
  | heartbeat hops hrun =>
    cases HeartbeatOp.feeds_run hrun with
    | nothing hunfed => exact hunfed.toServerOpen
    | probe => rfl
  | connect | receive | disconnect | decodeError | handshakeTimeout | handshakeTick
  | writerFails | reaperTick | heartbeatTick | heartbeatEvent | childOutput | readerEnds
  | childExits | shutdown | elapse => rfl

/-- The queue is closed only by a manager that returns. -/
def System.ClosedByReturn (s : System) : Prop :=
  s.shared.toServerOpen = false → s.manager = []

theorem Stepped.closedByReturn (h : Stepped cfg s l s') (hshaped : s.Shaped)
    (hs : s.ClosedByReturn) : s'.ClosedByReturn := by
  intro hclosed
  rcases h.manager_cases with ⟨choice, op, rest, ops, -, hops, -, hops', hmoved⟩ | ⟨hsame, hl⟩
  · have hopen : s.shared.toServerOpen = true := by
      by_contra hcon
      rw [hs (by simpa using hcon)] at hops
      cases hops
    have hclosing : ∀ {sh : Shared}, sh.toServerOpen = s.shared.toServerOpen →
        sh.toServerOpen = false → s'.manager = [] := by
      intro sh hsame hfalse
      rw [hsame, hopen] at hfalse
      cases hfalse
    have hreturns : op.detail = false → ops = [] → s'.manager = [] := by
      intro hdetail hnil
      rw [hops', hnil, hshaped.rest_eq_nil hops hdetail, List.nil_append]
    generalize hsh : s'.shared = sh at hmoved hclosed
    cases hmoved with
    | detail hop haside => exact hclosing haside.toServerOpen hclosed
    | atLimit hlimit haside => exact hclosing haside.toServerOpen hclosed
    | left details hdetails haside => exact hclosing haside.toServerOpen hclosed
    | returned hop =>
      refine hreturns ?_ rfl
      rcases hop with rfl | rfl | ⟨b, rfl⟩ <;> rfl
    | dropped | spawnFailed | pipeMissing => exact hreturns rfl rfl
    | head | first | underLimit | published | spawned | piped | wroteFirst | lostFirst | loop
    | halted | received | wrote | lost | cleanup | backoff | woke => exact hclosing rfl hclosed
  · rw [hsame]
    exact hs (by rw [← h.toServerOpen hl, hclosed])

theorem Reachable.closedByReturn (h : Reachable cfg ok s) : s.ClosedByReturn :=
  h.invariant_of (I := System.ClosedByReturn) (J := System.Shaped)
    (fun _ hr => Reachable.shaped hr) nofun
    fun _ _ _ _ hshaped hs hstep => (stepped_of_step hstep).closedByReturn hshaped hs

/-- A manager that has returned writes nothing. -/
theorem Stepped.returned (h : Stepped cfg s l s') (hs : s.Sound) (hmanager : s.manager = []) :
    s'.manager = [] ∧ ∀ k, s'.writtenTo k = s.writtenTo k := by
  refine ⟨?_, fun k => ?_⟩
  · rcases h.manager_cases with ⟨choice, op, rest, ops, -, hops, -⟩ | ⟨hsame, -⟩
    · rw [hmanager] at hops
      cases hops
    · rw [hsame, hmanager]
  · rcases (h.conveys hs).written k with hsame | ⟨m, -, -, -, op, hop, -⟩
    · exact hsame
    · rw [hmanager] at hop
      cases hop

/-! ## Nobody waits -/

/-- No `initialize` is parked: the flag that parks one is never set. -/
structure MuxState.Waitless (st : MuxState) : Prop where
  initializing : st.initializing = false
  initWaiting : st.initWaiting = []

/-- The flag is not raised, and nobody is parked. -/
structure ParksNone (sh sh' : Shared) : Prop where
  initializing : sh'.st.initializing = true → sh.st.initializing = true
  initWaiting : sh'.st.initWaiting ⊆ sh.st.initWaiting

theorem MuxState.Waitless.parksNone {sh sh' : Shared} (hw : sh.st.Waitless)
    (h : ParksNone sh sh') : sh'.st.Waitless where
  initializing := by
    by_contra hcon
    have hset := h.initializing (by simpa using hcon)
    rw [hw.initializing] at hset
    cases hset
  initWaiting := by
    have hsub := h.initWaiting
    rw [hw.initWaiting] at hsub
    exact List.eq_nil_of_subset_nil hsub

theorem Quiet.parksNone {sh sh' : Shared} (h : Quiet sh sh') : ParksNone sh sh' where
  initializing := h.initializing_of_true
  initWaiting := by rw [h.initWaiting]; exact List.Subset.refl _

theorem ClientOp.parksNone_run {enc : Value → ℕ} {c : ℕ} {sh sh' : Shared} {op : ClientOp}
    {ops : List ClientOp} (h : op.run enc c sh = some (sh', ops)) (hw : sh.st.Waitless) :
    ParksNone sh sh' := by
  have hforward : ∀ {msg sh' ops}, Forwarded c msg sh sh' ops → ParksNone sh sh' := by
    intro msg sh' ops h
    cases h <;> exact ⟨id, List.Subset.refl _⟩
  cases op with
  | forwardRequest msg =>
    rw [run, Option.some.injEq] at h
    exact hforward (forwarded_of_run h)
  | flushBuffered buffered =>
    cases buffered with
    | nil => cases h; exact ⟨id, List.Subset.refl _⟩
    | cons msg buffered =>
      cases hrun : runForwardRequest c msg sh with
      | mk sh₁ ops₁ =>
        rw [run, hrun] at h
        cases h
        exact hforward (forwarded_of_run hrun)
  | handleInitialize val lid =>
    rw [run, Option.some.injEq] at h
    have hq := (quiet_initializePending sh c).parksNone
    cases initialized_of_run h with
    | cached | refused | forwarded => exact ⟨hq.initializing, hq.initWaiting⟩
    | parked hcached hinit =>
      have hset := hq.initializing hinit
      rw [hw.initializing] at hset
      cases hset
  | trySend msg => exact (quiet_trySend h).1.parksNone
  | send msg isInitialize => exact (quiet_send h).1.parksNone
  | markServerInitialized msg => exact (quiet_markServerInitialized h).1.parksNone
  | checkHandshake msg =>
    simp only [run] at h
    split at h <;> cases h <;> exact ⟨id, List.Subset.refl _⟩
  | unregisterClient => cases h; exact ⟨id, List.filter_subset_self ..⟩
  | completeHandshake =>
    cases h
    simp only [MuxState.markHandshakeComplete]
    split <;> exact ⟨id, List.Subset.refl _⟩
  | bufferMessage msg =>
    cases h
    simp only [MuxState.bufferMessage]
    split <;> exact ⟨id, List.Subset.refl _⟩
  | rejectTooLarge _ | rejectHandshakeTimeout | handleClientMessage _ | updateQueueDepth
  | publishStatus | releasePermit => cases h; exact ⟨id, List.Subset.refl _⟩

theorem RouterOp.parksNone_run {order : List String} {sh sh' : Shared} {op : RouterOp}
    {ops : List RouterOp} (h : op.run order sh = some (sh', ops)) : ParksNone sh sh' := by
  cases op with
  | takePending _ _ | findTarget _ _ =>
    simp only [run] at h
    split at h <;> cases h <;> exact ⟨id, List.Subset.refl _⟩
  | resetState _ =>
    simp only [run] at h
    split at h <;> cases h
    exact ⟨fun h => absurd h Bool.false_ne_true, List.nil_subset _⟩
  | cacheInitialize _ _ =>
    cases h
    exact ⟨fun h => absurd h Bool.false_ne_true, List.nil_subset _⟩
  | broadcast _ | sendTarget _ _ | publishStatus => cases h; exact ⟨id, List.Subset.refl _⟩

theorem ReaperOp.parksNone_run {order : List String} {sh sh' : Shared} {op : ReaperOp}
    {ops : List ReaperOp} (h : op.run order sh = some (sh', ops)) : ParksNone sh sh' := by
  rw [run_frame h]
  exact ⟨id, List.Subset.refl _⟩

theorem Routed.waitless (h : Routed cfg s s') (hw : s.shared.st.Waitless) :
    s'.shared.st.Waitless := by
  cases h with
  | handler hops hrun | writer hops hrun => exact hw.parksNone (ClientOp.parksNone_run hrun hw)
  | routerTurn hidle hstill hops => exact hw.parksNone hstill.toQuiet.parksNone
  | router hops hrun => exact hw.parksNone (RouterOp.parksNone_run hrun)
  | reaper hops hrun => exact hw.parksNone (ReaperOp.parksNone_run hrun)
  | still hstill => exact hw.parksNone hstill.toQuiet.parksNone
  | connect | receive | endReader | writerFails | reaperTick =>
    exact ⟨hw.initializing, hw.initWaiting⟩

theorem Reachable.waitless (h : Reachable cfg ok s) : s.shared.st.Waitless :=
  h.invariant (I := fun s => s.shared.st.Waitless) ⟨rfl, rfl⟩
    fun _ _ _ _ hw hstep => (routed_of_step hstep).waitless hw

/-! ## What a reset answers -/

section Later

variable {t : System}

/-- A request that is nowhere is not written in the rest of a run. -/
theorem System.Nowhere.later {c n : ℕ} (hn : s.Nowhere c n) (hs : s.Sound)
    (h : Run.Reach (System.step cfg) Run.Any s t) :
    ∀ k, t.writesOf (globalId c n) k = s.writesOf (globalId c n) k := by
  have hall : t.Sound ∧ t.Nowhere c n ∧
      ∀ k, t.writesOf (globalId c n) k = s.writesOf (globalId c n) k := by
    refine h.invariant (I := fun t => t.Sound ∧ t.Nowhere c n ∧
      ∀ k, t.writesOf (globalId c n) k = s.writesOf (globalId c n) k) ⟨hs, hn, fun _ => rfl⟩ ?_
    rintro t l t' - ⟨ht, hn, hwrites⟩ hstep
    obtain ⟨hn', hwrites'⟩ := (stepped_of_step hstep).nowhere ht hn
    exact ⟨(routed_of_step hstep).sound ht, hn', fun k => (hwrites' k).trans (hwrites k)⟩
  exact hall.2.2

/-- Nor does a manager that has returned write anything. -/
theorem System.Sound.returned_later (hs : s.Sound) (hmanager : s.manager = [])
    (h : Run.Reach (System.step cfg) Run.Any s t) : ∀ k, t.writtenTo k = s.writtenTo k := by
  have hall : t.Sound ∧ t.manager = [] ∧ ∀ k, t.writtenTo k = s.writtenTo k := by
    refine h.invariant (I := fun t => t.Sound ∧ t.manager = [] ∧
      ∀ k, t.writtenTo k = s.writtenTo k) ⟨hs, hmanager, fun _ => rfl⟩ ?_
    rintro t l t' - ⟨ht, hmanager, hwritten⟩ hstep
    obtain ⟨hmanager', hwritten'⟩ := (stepped_of_step hstep).returned ht hmanager
    exact ⟨(routed_of_step hstep).sound ht, hmanager', fun k => (hwritten' k).trans (hwritten k)⟩
  exact hall.2.2

end Later

/-- **A request a reset answers is not written afterwards**, where it is
not on its way when the reset is processed: not in the rest of any run,
and to no incarnation. A reset answers requests of `pending` alone. -/
theorem not_written_after_reset (cfg : Config) (s s' s'' : System) (order : List String)
    (reason : String) (h : Reachable cfg Run.Any s) (hreset : s.resetting = some reason)
    (hstep : s.step cfg (.router order) = some s')
    (hlater : Run.Reach (System.step cfg) Run.Any s' s'') :
    s'.shared.sent = s.shared.sent ++ ((s.shared.st.pending.valuesIn order).map fun p =>
      Shared.errorReply p.localId reason p.clientId).filter (·.client ∈ s.shared.st.clients) ∧
    ∀ key p, s.shared.st.pending.get key = some p → s.underway key = false →
      ∀ k, s''.writesOf key k = s'.writesOf key k := by
  constructor
  · cases stepped_of_step hstep with
    | @router _ op rest ops sh hops hrun =>
      rw [System.resetting, hops] at hreset
      split at hreset
      · rename_i reason' rest' heq
        cases heq
        cases hreset
        simp only [RouterOp.run] at hrun
        split at hrun <;> cases hrun
        simp [RouterOp.runResetState, RouterOp.clearState, Shared.replyAll, RouterOp.resetReplies,
          (Reachable.waitless h).initWaiting]
      · cases hreset
  · intro key p hp hnot
    obtain ⟨i, hi, rfl, -⟩ := (Reachable.keyed h).pending key p hp
    have hsound := Reachable.sound h
    have hsound' := Reachable.sound (h.step trivial hstep)
    cases hopen : s.shared.toServerOpen with
    | true =>
      have hnowhere := System.nowhere_of_not_underway (Reachable.born h) (Reachable.forwards h) hi
        (Reachable.keyed h) hopen hnot
      exact ((stepped_of_step hstep).nowhere hsound hnowhere).1.later hsound' hlater
    | false =>
      have hmanager := Reachable.closedByReturn h hopen
      have hwritten := hsound'.returned_later
        ((stepped_of_step hstep).returned hsound hmanager).1 hlater
      intro k
      rw [System.writesOf, hwritten k, System.writesOf]

/-- A client has a request on the queue. -/
def queuedRun : List Label :=
  startRun ++ handshakeRun ++
    [Label.receive 1 (.object [("id", .number (.posInt 7)), ("method", .string "tools/call")]),
      .handler 1, .handler 1, .handler 1, .handler 1, .handler 1, .handler 1,
      .manager .received, .manager .go, .manager .written, .manager .go]

/-- The child exits, and the router takes the reset. -/
def childExitRun : List Label :=
  [.childExits 0, .manager .childExited, .manager .go, .manager .go, .routerTurn]

/-- The next child is spawned. -/
def respawnRun : List Label :=
  [.manager .go, .manager .go, .manager .go, .manager .go, .elapse 1000, .manager .go,
    .manager .go, .manager .go, .manager (.spawned 2), .manager .go, .manager .go, .manager .go,
    .manager .go]

/-- The request is written before the child exits: the reset that answers
it is the last that is heard of it. -/
def writtenRun : List Label :=
  queuedRun ++ [Label.manager .received, .manager .go, .manager .written, .manager .go] ++
    childExitRun

theorem not_written_after_reset_writtenRun :
    (Config.small.after writtenRun).shared.st.pending.keys = ["c1:1"] ∧
      ∀ k, (Config.small.after (writtenRun ++ [.router ["c1:1"]] ++ respawnRun)).writesOf "c1:1" k =
        (Config.small.after (writtenRun ++ [.router ["c1:1"]])).writesOf "c1:1" k := by
  have hruns : Config.small.runs writtenRun = true := by decide +kernel
  have hruns' : Config.small.runs (writtenRun ++ [.router ["c1:1"]]) = true := by decide +kernel
  have hruns'' : Config.small.runs (writtenRun ++ [.router ["c1:1"]] ++ respawnRun) = true := by
    decide +kernel
  have hkeys : (Config.small.after writtenRun).shared.st.pending.keys = ["c1:1"] := by
    decide +kernel
  have hmem : "c1:1" ∈ (Config.small.after writtenRun).shared.st.pending.keys := by
    rw [hkeys]
    exact List.mem_singleton_self _
  obtain ⟨p, hp⟩ := Option.isSome_iff_exists.1 (HashMap.mem_keys_iff_get.1 hmem)
  exact ⟨hkeys, (not_written_after_reset .small _ _ _ _ "MCP server restarted"
    (Config.small.reachable_after hruns) (by decide +kernel) (Config.small.step_after hruns hruns')
    (Config.small.reach_after hruns' hruns'')).2 "c1:1" p hp (by decide +kernel)⟩

/-- The child exits while the request is on the queue, and the router takes
the reset. -/
def queuedExitRun : List Label := queuedRun ++ childExitRun

/-- The reset answers the request, and the next child is given it. -/
def rewrittenRun : List Label :=
  respawnRun ++ [Label.manager .received, .manager .go, .manager .written]

/-- **A request is executed after its client was told it had failed**, by an
incarnation that was spawned after that. -/
theorem not_unwritten_rewrittenRun : ¬ ∀ (cfg : Config) (s s' s'' : System) (order : List String)
    (reason : String), Reachable cfg Run.Any s → s.resetting = some reason →
    s.step cfg (.router order) = some s' → Run.Reach (System.step cfg) Run.Any s' s'' →
    ∀ key p, s.shared.st.pending.get key = some p → p.clientId ∈ s.shared.st.clients →
      ∀ k, s'.shared.children.length ≤ k → s''.writesOf key k = s'.writesOf key k := by
  intro hall
  have hruns : Config.small.runs queuedExitRun = true := by decide +kernel
  have hruns' : Config.small.runs (queuedExitRun ++ [.router ["c1:1"]]) = true := by decide +kernel
  have hruns'' :
      Config.small.runs (queuedExitRun ++ [.router ["c1:1"]] ++ rewrittenRun) = true := by
    decide +kernel
  have hpending : ((Config.small.after queuedExitRun).shared.st.pending.get "c1:1").any
      (fun p => decide (p.clientId ∈ (Config.small.after queuedExitRun).shared.st.clients)) =
      true := by decide +kernel
  obtain ⟨p, hp, hclient⟩ := (Option.any_eq_true ..).1 hpending
  have heq := hall .small _ _ _ _ "MCP server restarted" (Config.small.reachable_after hruns)
    (by decide +kernel) (Config.small.step_after hruns hruns')
    (Config.small.reach_after hruns' hruns'') "c1:1" p hp (of_decide_eq_true hclient) 1
    (by decide +kernel)
  have hbefore : ((Config.small.after (queuedExitRun ++ [.router ["c1:1"]])).writesOf
      "c1:1" 1).length = 0 := by decide +kernel
  have hafter : ((Config.small.after (queuedExitRun ++ [.router ["c1:1"]] ++
      rewrittenRun)).writesOf "c1:1" 1).length = 1 := by decide +kernel
  rw [heq, hbefore] at hafter
  cases hafter

end Mux

end VcOperator
