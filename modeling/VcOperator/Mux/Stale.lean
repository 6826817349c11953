import VcOperator.Mux.Addressing
import VcOperator.Mux.Helpers.InitMoves
import VcOperator.Mux.IssuedIds
import VcOperator.Mux.Resets
/-!
# Stale responses

The reader task of an incarnation may still queue a message after the
manager has queued the incarnation's `Reset`. Nothing marks such a message
as stale. A response is stale by its id alone: `reset_state` empties
`pending`, and what enters it later stands under an id the incarnation
was never sent.

Two messages escape this. A value that was forwarded as it came may carry
an id the mux has yet to issue; and a batch of responses has no id, so it
goes to everybody. `stale_responses_die` says that no other does.
-/

namespace VcOperator

namespace Mux

variable {cfg : Config} {s s' : System} {l : Label} {msg : Value} {next next' : ℕ}

/-! ## The ids a child was sent -/

/-- The message carries no id that is still to be issued: the next one is
numbered `next`. -/
def IdsBelow (next : ℕ) (msg : Value) : Prop :=
  ∀ id ∈ carriedIds msg, ∀ c n, idStr id = some (globalId c n) → n < next

/-- The keys under which an answer to the message is looked up. -/
def keysOf (msg : Value) : List String := (carriedIds msg).filterMap idStr

/-- The keys of all an incarnation was sent. -/
def System.sentKeys (s : System) (k : ℕ) : List String := (s.writtenTo k).flatMap keysOf

theorem IdsBelow.mono (h : IdsBelow next msg) (hle : next ≤ next') : IdsBelow next' msg :=
  fun id hid c n hkey => Nat.lt_of_lt_of_le (h id hid c n hkey) hle

/-- A request carries the id that was issued for it. -/
theorem idsBelow_setId {val : Value} (hid : (val.get "id").isSome = true) (c n : ℕ) :
    IdsBelow (n + 1) (setId val (.string (globalId c n))) := by
  intro id hmem c' n' hkey
  rw [carriedIds_setId hid, List.mem_singleton] at hmem
  rw [hmem] at hkey
  have heq : globalId c n = globalId c' n' := by simpa [idStr, Value.asStr] using hkey
  have hn := (globalId_injective heq).2
  omega

theorem idsBelow_pingMessage (next m : ℕ) : IdsBelow next (HeartbeatOp.pingMessage m) := by
  intro id hmem c n hkey
  rw [carriedIds_pingMessage, List.mem_singleton] at hmem
  rw [hmem] at hkey
  have heq : heartbeatId m = globalId c n := by simpa [idStr, Value.asStr] using hkey
  exact absurd heq.symm (globalId_ne_heartbeatId c n m)

namespace System

/-- **The first condition on a step**: a value that is put on the queue as
it came carries no id that is still to be issued. -/
def borrowsNoId (s : System) : Label → Prop
  | .handler c => ∀ msg rest, s.handlers c = .trySend msg :: rest →
      IdsBelow s.shared.st.nextGlobalId msg.val
  | _ => True

/-- **No id is seen before it is issued**: not in the hands of a handler,
not on the way to the child, and not by the child. -/
structure IdsIssued (s : System) : Prop where
  handlers : s.Forwards (IdsBelow s.shared.st.nextGlobalId)
  onTheWay : ∀ m ∈ s.onTheWay, IdsBelow s.shared.st.nextGlobalId m
  written : ∀ k, ∀ m ∈ s.writtenTo k, IdsBelow s.shared.st.nextGlobalId m

end System

/-- **A step keeps it**, where it meets the condition. -/
theorem Stepped.idsIssued (h : Stepped cfg s l s') (hsound : s.Sound) (hs : s.IdsIssued)
    (hok : s.borrowsNoId l) : s'.IdsIssued := by
  obtain ⟨c, hissues⟩ := h.routed.issues
  have hle := hissues.nextGlobalId_le
  have hconveys := h.conveys hsound
  have hput : ∀ p, s'.shared.put = s.shared.put ++ [p] →
      IdsBelow s'.shared.st.nextGlobalId p.msg := by
    intro p hp
    rcases hconveys.put with hsame | ⟨q, hq, hfrom⟩
    · rw [hsame] at hp
      simp at hp
    rw [hq] at hp
    obtain rfl : q = p := by simpa using hp
    rcases hfrom with ⟨c, op, rest, rfl, hops, hm⟩ | ⟨m, hm⟩
    · have hforwards := hs.handlers c op (by rw [hops]; exact List.mem_cons_self ..)
      cases op with
      | trySend msg =>
        rw [List.mem_singleton.1 hm]
        exact (hok msg rest hops).mono hle
      | send msg isInitialize =>
        rw [List.mem_singleton.1 hm]
        exact hforwards.mono hle
      | _ => cases hm
    · rw [hm]
      exact idsBelow_pingMessage _ m
  refine ⟨?_, fun m hm => ?_, fun k m hm => ?_⟩
  · refine h.forwards hsound (fun c op hop => ?_) fun c val hid hnext => ?_
    · exact (hs.handlers c op hop).imp fun m hm => hm.mono hle
    · rw [hnext]
      exact idsBelow_setId hid c _
  · rcases hconveys.comes m hm with hold | ⟨p, hp, rfl⟩
    · exact (hs.onTheWay m hold).mono hle
    · exact hput p hp
  · rcases hconveys.written k with hsame | ⟨m', hm', heq, -⟩
    · rw [hsame] at hm
      exact (hs.written k m hm).mono hle
    · rw [heq] at hm
      rcases List.mem_append.1 hm with hm | hm
      · exact (hs.written k m hm).mono hle
      · rw [List.mem_singleton.1 hm]
        exact (hs.onTheWay m' hm').mono hle

theorem idsIssued_init (cfg : Config) : (System.init cfg).IdsIssued where
  handlers := fun c op hop => by cases hop
  onTheWay := by simp [System.init, System.onTheWay, ManagerOp.inHand]
  written := by simp [System.init, System.writtenTo, writtenIn]

/-- An incarnation was sent no id that is still to be issued. -/
theorem System.IdsIssued.notMem_sentKeys (hs : s.IdsIssued) (k c : ℕ) :
    globalId c s.shared.st.nextGlobalId ∉ s.sentKeys k := by
  intro hmem
  obtain ⟨m, hm, hkey⟩ := List.mem_flatMap.1 hmem
  obtain ⟨id, hid, hid'⟩ := List.mem_filterMap.1 hkey
  exact Nat.lt_irrefl _ (hs.written k m hm id hid c _ hid')

/-! ## What was written to an incarnation -/

/-- A write goes to the incarnation whose reset is the next to be queued. -/
theorem Stepped.writtenTo_of_lt {k j : ℕ} (h : Stepped cfg s l s') (hsound : s.Sound)
    (hs : s.Counted k) (hj : j < k) : s'.writtenTo j = s.writtenTo j := by
  rcases (h.conveys hsound).written j with hsame | ⟨m, -, -, hlast, op, hop, hwrites⟩
  · exact hsame
  · have htends : ∃ op ∈ s.manager, op.tends = true := by
      rcases hwrites with rfl | rfl
      · exact hs.writing m hop
      · exact ⟨_, hop, rfl⟩
    have hlength := hs.tending htends
    omega

/-- What an incarnation was sent, it was sent for good. -/
theorem Stepped.sentKeys_subset (h : Stepped cfg s l s') (hsound : s.Sound) (k : ℕ) :
    s.sentKeys k ⊆ s'.sentKeys k := by
  intro key hkey
  rw [System.sentKeys] at hkey ⊢
  rcases (h.conveys hsound).written k with hsame | ⟨m, -, heq, -⟩
  · rwa [hsame]
  · rw [heq, List.flatMap_append]
    exact List.mem_append_left _ hkey

/-! ## Whose event it is -/

/-- **The history of the router's events**: the incarnation each queued one
is of, that of the one the router took last, that of the response in the
cache, and the incarnations whose reset was processed. -/
structure Provenance where
  queued : List ℕ
  inHand : ℕ
  cachedBy : ℕ
  ended : List ℕ

namespace Provenance

/-- What it is at the start. -/
def start : Provenance := ⟨[], 0, 0, []⟩

/-- What it is after a step. -/
def note (h : Provenance) (s : System) : Label → Provenance
  | .childOutput k _ => { h with queued := h.queued ++ [k] }
  | .manager _ =>
    match s.manager with
    | .cleanup _ :: _ => { h with queued := h.queued ++ [s.shared.children.length - 1] }
    | _ => h
  | .routerTurn => { h with queued := h.queued.tail, inHand := h.queued.headD h.inHand }
  | .router _ =>
    match s.router with
    | .resetState _ :: _ => { h with ended := h.ended ++ [h.inHand] }
    | .cacheInitialize _ _ :: _ => { h with cachedBy := h.inHand }
    | _ => h
  | _ => h

/-- **The second condition on a step**: an incarnation whose reset was
queued batches no response. -/
def batchesInTime (h : Provenance) (s : System) : Label → Bool
  | .childOutput k msg =>
    batchesNoResponse msg || decide (h.ended.length + s.resetsOutstanding ≤ k)
  | _ => true

end Provenance

/-- **What a child is trusted with**: it answers only ids it was sent. -/
def System.answersOwn (s : System) : Label → Bool
  | .childOutput k msg =>
    (responses msg).all fun r => ((r.get "id").bind idStr).all fun key => key ∈ s.sentKeys k
  | _ => true

/-- A message of incarnation `k`, queued with `n` resets before it: it
answers only what `sent` tells of the incarnation, and batches responses
only where the reset of the incarnation is not among the `n`. -/
structure Produced (sent : ℕ → List String) (n k : ℕ) (msg : Value) : Prop where
  answers : ∀ r ∈ responses msg, ∀ key, (r.get "id").bind idStr = some key → key ∈ sent k
  batched : batchesNoResponse msg = false → n ≤ k

/-- **The queued events and their incarnations**, with `n` resets before
them: the reset of an incarnation is preceded by those of the earlier ones. -/
inductive Queued (sent : ℕ → List String) : ℕ → List ServerEvent → List ℕ → Prop
  | nil {n : ℕ} : Queued sent n [] []
  | reset {n : ℕ} {reason : String} {es : List ServerEvent} {ks : List ℕ}
      (h : Queued sent (n + 1) es ks) : Queued sent n (.reset reason :: es) (n :: ks)
  | message {n k : ℕ} {msg : Value} {es : List ServerEvent} {ks : List ℕ}
      (hmsg : Produced sent n k msg) (h : Queued sent n es ks) :
      Queued sent n (.message msg :: es) (k :: ks)

section Queue

variable {sent sent' : ℕ → List String} {n k : ℕ} {es : List ServerEvent} {ks : List ℕ}

theorem Produced.mono (h : Produced sent n k msg) (hsub : ∀ k, sent k ⊆ sent' k) :
    Produced sent' n k msg :=
  ⟨fun r hr key hkey => hsub k (h.answers r hr key hkey), h.batched⟩

namespace Queued

theorem mono (h : Queued sent n es ks) (hsub : ∀ k, sent k ⊆ sent' k) :
    Queued sent' n es ks := by
  induction h with
  | nil => exact .nil
  | reset _ ih => exact .reset ih
  | message hmsg _ ih => exact .message (hmsg.mono hsub) ih

/-- One more message is queued. -/
theorem append_message (h : Queued sent n es ks)
    (hmsg : Produced sent (n + es.countP ServerEvent.isReset) k msg) :
    Queued sent n (es ++ [.message msg]) (ks ++ [k]) := by
  induction h with
  | nil => exact .message hmsg .nil
  | reset _ ih =>
    refine .reset (ih ?_)
    rw [List.countP_cons_of_pos rfl] at hmsg
    rwa [Nat.add_right_comm]
  | message hhead _ ih =>
    refine .message hhead (ih ?_)
    rwa [List.countP_cons_of_neg (by simp [ServerEvent.isReset])] at hmsg

/-- The reset of the next incarnation is queued. -/
theorem append_reset (h : Queued sent n es ks) (reason : String)
    (hk : k = n + es.countP ServerEvent.isReset) :
    Queued sent n (es ++ [.reset reason]) (ks ++ [k]) := by
  induction h with
  | nil =>
    rw [hk]
    exact .reset .nil
  | reset _ ih =>
    refine .reset (ih ?_)
    rw [List.countP_cons_of_pos rfl] at hk
    rw [hk, Nat.add_right_comm]
    rfl
  | message hhead _ ih =>
    refine .message hhead (ih ?_)
    rwa [List.countP_cons_of_neg (by simp [ServerEvent.isReset])] at hk

end Queued

/-! ## What the router does with them -/

/-- **The router's operation, on an event of incarnation `k` after `n`
resets.** What it delivers or caches, if it is a response, is of an
incarnation whose reset is not among the `n`. -/
def RouterOp.Fresh (sent : ℕ → List String) (n k : ℕ) : RouterOp → Prop
  | broadcast msg | cacheInitialize msg _ | findTarget msg _ | sendTarget msg _ =>
    responses msg ≠ [] → n ≤ k
  | takePending msg id => responses msg ≠ [] → id ∈ sent k
  | resetState _ => k = n
  | publishStatus => True

theorem RouterOp.Fresh.mono {op : RouterOp} (h : op.Fresh sent n k)
    (hsub : ∀ k, sent k ⊆ sent' k) : op.Fresh sent' n k := by
  cases op with
  | takePending msg id => exact fun hresp => hsub k (h hresp)
  | _ => exact h

/-- What the router begins with, on a message. -/
theorem RouterOp.fresh_handleServerMessage (h : Produced sent n k msg) :
    ∀ op ∈ handleServerMessage msg, op.Fresh sent n k := by
  intro op hop
  simp only [handleServerMessage] at hop
  split at hop
  · rename_i hid
    rw [List.mem_singleton.1 hop]
    intro hresp
    refine h.batched ?_
    by_contra hcon
    exact hresp (responses_eq_nil_of_noId (by simpa using hcon) hid)
  · rename_i id hid
    split at hop
    · rename_i hnull
      rw [List.mem_singleton.1 hop]
      exact fun hresp => absurd (responses_eq_nil_of_null hid hnull) hresp
    · split at hop
      · cases hop
      · rename_i key hkey
        rw [List.mem_singleton.1 hop]
        intro hresp
        obtain ⟨r, hr⟩ := List.exists_mem_of_ne_nil _ hresp
        refine h.answers r hr key ?_
        rw [eq_of_mem_responses hid hr, hid, Option.bind_some, hkey]

/-- **What the router delivers and goes on with.** No request in `pending`
stands under a key that an ended incarnation was sent. -/
theorem RouterOp.fresh_run {sh sh' : Shared} {order : List String} {op : RouterOp}
    {ops : List RouterOp} (h : op.run order sh = some (sh', ops)) (hop : op.Fresh sent n k)
    (hpending : ∀ j < n, ∀ key p, sh.st.pending.get key = some p → key ∉ sent j) :
    (∀ op' ∈ ops, op'.Fresh sent n k) ∧ ∃ ds, sh'.sent = sh.sent ++ ds ∧
      ∀ d ∈ ds, ∀ msg a, d.origin = .child msg a → responses msg ≠ [] → n ≤ k := by
  cases op with
  | broadcast msg =>
    cases h
    refine ⟨by simp, _, rfl, fun d hd msg' a horigin => ?_⟩
    obtain ⟨c, -, rfl⟩ := List.mem_map.1 (List.mem_filter.1 hd).1
    cases horigin
    exact hop
  | takePending msg id =>
    simp only [run] at h
    cases hp : sh.st.pending.get id with
    | none =>
      rw [hp] at h
      cases h
      exact ⟨by simp, [], (List.append_nil _).symm, by simp⟩
    | some p =>
      rw [hp] at h
      cases h
      have hle : responses msg ≠ [] → n ≤ k := by
        intro hresp
        by_contra hcon
        exact hpending k (by omega) id p hp (hop hresp)
      refine ⟨fun op' hop' => ?_, [], (List.append_nil _).symm, by simp⟩
      rcases List.mem_append.1 hop' with hop' | hop'
      · split at hop'
        · rw [List.mem_singleton.1 hop']
          exact hle
        · cases hop'
      · rw [List.mem_singleton.1 hop']
        exact hle
  | cacheInitialize msg p =>
    cases h
    refine ⟨by simp, _, rfl, fun d hd msg' a horigin => ?_⟩
    obtain ⟨w, -, rfl⟩ := List.mem_map.1 (List.mem_filter.1 hd).1
    cases horigin
    exact hop
  | findTarget msg p =>
    simp only [run] at h
    split at h <;> cases h
    · refine ⟨fun op' hop' => ?_, [], (List.append_nil _).symm, by simp⟩
      rcases List.mem_cons.1 hop' with rfl | hop'
      · exact hop
      · rw [List.mem_singleton.1 hop']
        trivial
    · exact ⟨by simp [Fresh], [], (List.append_nil _).symm, by simp⟩
  | sendTarget msg p =>
    cases h
    refine ⟨by simp, _, rfl, fun d hd msg' a horigin => ?_⟩
    rw [List.mem_singleton.1 hd] at horigin
    cases horigin
    exact hop
  | resetState reason =>
    simp only [run] at h
    split at h <;> cases h
    refine ⟨by simp, _, rfl, fun d hd msg' a horigin => ?_⟩
    have hmux : d.origin = .mux := by
      rcases List.mem_append.1 (List.mem_filter.1 hd).1 with hd | hd <;>
        obtain ⟨x, -, rfl⟩ := List.mem_map.1 hd <;> rfl
    rw [hmux] at horigin
    cases horigin
  | publishStatus => cases h; exact ⟨by simp, [], (List.append_nil _).symm, by simp⟩

end Queue

/-! ## Every step -/

/-- **A mux and its history.** -/
structure System.Traced (s : System) (h : Provenance) : Prop where
  counted : s.Counted h.ended.length
  ids : s.IdsIssued
  ended : ∀ k ∈ h.ended, k < h.ended.length
  pending : ∀ k < h.ended.length, ∀ key p, s.shared.st.pending.get key = some p →
    key ∉ s.sentKeys k
  queued : Queued s.sentKeys (h.ended.length + s.router.countP RouterOp.isReset)
    s.shared.serverEvents h.queued
  router : ∀ op ∈ s.router, op.Fresh s.sentKeys h.ended.length h.inHand
  resetting : ∀ reason, .resetState reason ∈ s.router →
    s.router = [.resetState reason, .publishStatus]
  cached : ∀ v, s.shared.st.cachedInitialize = some v → responses v ≠ [] →
    h.ended.length ≤ h.cachedBy

/-- **What a step may deliver**: no response of an incarnation whose reset
was processed. -/
def System.DeliversFresh (s : System) (h : Provenance) (s' : System) : Prop :=
  ∃ ds, s'.shared.sent = s.shared.sent ++ ds ∧ ∀ d ∈ ds, ∀ msg a, d.origin = .child msg a →
    responses msg ≠ [] → ∀ k ∈ h.ended, k < h.inHand

variable {h : Provenance}

/-- What every step keeps of `pending`, as long as no further reset is processed. -/
theorem System.Traced.pending_step (hs : s.Traced h) (hstep : Stepped cfg s l s')
    (hsound : s.Sound) : ∀ k < h.ended.length, ∀ key p,
      s'.shared.st.pending.get key = some p → key ∉ s'.sentKeys k := by
  intro k hk key p hp
  rw [System.sentKeys, hstep.writtenTo_of_lt hsound hs.counted hk]
  obtain ⟨c, hissues⟩ := hstep.routed.issues
  rcases hissues.pending_cases hp with hold | rfl
  · exact hs.pending k hk key p hold
  · exact hs.ids.notMem_sentKeys k c

/-- A step that leaves the router alone, and may queue an event. -/
theorem System.Traced.queues {h' : Provenance} (hs : s.Traced h) (hstep : Stepped cfg s l s')
    (hsound : s.Sound) (hk : s.shared.Keyed) (hids : s'.IdsIssued)
    (hcounted : s'.Counted h.ended.length) (hl : ∀ order, l ≠ .router order)
    (hrouter : s'.router = s.router) (hended : h'.ended = h.ended)
    (hinHand : h'.inHand = h.inHand) (hcachedBy : h'.cachedBy = h.cachedBy)
    (hqueued : Queued s'.sentKeys (h.ended.length + s.router.countP RouterOp.isReset)
      s'.shared.serverEvents h'.queued) : s'.Traced h' where
  counted := by rwa [hended]
  ids := hids
  ended := by rw [hended]; exact hs.ended
  pending := by rw [hended]; exact hs.pending_step hstep hsound
  queued := by rwa [hended, hrouter]
  router := by
    rw [hrouter, hended, hinHand]
    exact fun op hop => (hs.router op hop).mono (hstep.sentKeys_subset hsound)
  resetting := by rw [hrouter]; exact hs.resetting
  cached := by
    rw [hended, hcachedBy]
    exact fun v hv => hs.cached v (hstep.cached_of_some hk hl hv)

/-- The other steps deliver no message of the child. -/
theorem Stepped.spoken (h : Stepped cfg s l s') (hl : ∀ order, l ≠ .router order) :
    ∃ ds, s'.shared.sent = s.shared.sent ++ ds ∧ ∀ d ∈ ds, d.origin = .mux := by
  cases h with
  | router => exact absurd rfl (hl _)
  | handler hops hrun | writer hops hrun => exact (ClientOp.spoken_run hrun).sent
  | reaper hops hrun => exact (ReaperOp.spoken_run hrun).sent
  | heartbeat hops hrun => exact (HeartbeatOp.spoken_run hrun).sent
  | manager hops hlock hrun => exact (ManagerOp.spoken_run hrun).sent
  | @routerTurn event rest =>
    exact ⟨[], by rw [List.append_nil]; exact (still_dispatch event rest s.shared).sent, by simp⟩
  | connect | receive | disconnect | decodeError | handshakeTimeout | handshakeTick
  | writerFails | reaperTick | heartbeatTick | heartbeatEvent | childOutput | readerEnds
  | childExits | shutdown | elapse => exact ⟨[], (List.append_nil _).symm, by simp⟩

/-- What the router begins with, on an event. -/
def RouterOp.begins : ServerEvent → List RouterOp
  | .message msg => if (heartbeatResponse msg).isSome then [] else handleServerMessage msg
  | .reset reason => [resetState reason, publishStatus]

theorem RouterOp.begins_dispatch (event : ServerEvent) (sh : Shared) :
    (dispatch event sh).1.serverEvents = sh.serverEvents ∧
      (dispatch event sh).2 = begins event := by
  cases event with
  | reset reason => exact ⟨rfl, rfl⟩
  | message msg =>
    cases hheart : heartbeatResponse msg with
    | none => simp [dispatch, begins, hheart]
    | some id => simp [dispatch, begins, hheart]

theorem RouterOp.countP_resetState (reason : String) :
    [resetState reason, publishStatus].countP isReset = 1 := rfl

/-- The router takes an event. -/
theorem System.Traced.routerTurn {event : ServerEvent} {rest : List ServerEvent}
    (hs : s.Traced h) (hstep : Stepped cfg s .routerTurn s') (hsound : s.Sound)
    (hk : s.shared.Keyed) (hids : s'.IdsIssued) (hcounted : s'.Counted h.ended.length)
    (hidle : s.router = []) (hevents : s.shared.serverEvents = event :: rest)
    (hevents' : s'.shared.serverEvents = rest)
    (hrouter' : s'.router = RouterOp.begins event) : s'.Traced (h.note s .routerTurn) := by
  have hqueued := hs.queued.mono (hstep.sentKeys_subset hsound)
  rw [hidle, hevents] at hqueued
  have hcached : ∀ v, s'.shared.st.cachedInitialize = some v → responses v ≠ [] →
      h.ended.length ≤ h.cachedBy :=
    fun v hv => hs.cached v (hstep.cached_of_some hk (by simp) hv)
  refine ⟨hcounted, hids, hs.ended, hs.pending_step hstep hsound, ?_, ?_, ?_, hcached⟩
  · rw [hevents', hrouter']
    generalize hks : h.queued = ks at hqueued
    cases hqueued with
    | reset hrest =>
      simpa [RouterOp.begins, Provenance.note, hks, RouterOp.countP_resetState] using hrest
    | @message _ _ msg _ _ hmsg hrest =>
      have hnone := RouterOp.countP_handleServerMessage msg
      by_cases hheart : (RouterOp.heartbeatResponse msg).isSome
      · simpa [RouterOp.begins, Provenance.note, hks, hheart] using hrest
      · simpa [RouterOp.begins, Provenance.note, hks, hheart, hnone] using hrest
  · rw [hrouter']
    generalize hks : h.queued = ks at hqueued
    cases hqueued with
    | reset hrest => simp [RouterOp.begins, Provenance.note, hks, RouterOp.Fresh]
    | @message _ k msg _ _ hmsg hrest =>
      intro op hop
      have hop' : op ∈ RouterOp.handleServerMessage msg := by
        rw [RouterOp.begins] at hop
        split at hop
        · cases hop
        · exact hop
      simpa [Provenance.note, hks] using RouterOp.fresh_handleServerMessage hmsg op hop'
  · rw [hrouter']
    intro reason hmem
    cases event with
    | reset reason' =>
      simp only [RouterOp.begins, List.mem_cons, RouterOp.resetState.injEq, reduceCtorEq,
        List.not_mem_nil, or_false] at hmem
      rw [hmem]
      rfl
    | message msg =>
      have hnone := List.countP_eq_zero.1 (RouterOp.countP_handleServerMessage msg)
      rw [RouterOp.begins] at hmem
      split at hmem
      · cases hmem
      · exact absurd rfl (hnone _ hmem)

/-- A reset is processed: nothing pending is left, and nothing cached. -/
theorem System.Traced.processesReset {order : List String} {reason : String}
    {rest ops : List RouterOp} {sh : Shared} (hs : s.Traced h)
    (hstep : Stepped cfg s (.router order) s') (hsound : s.Sound) (hids : s'.IdsIssued)
    (hcounted : s'.Counted (s.noteReset h.ended.length (.router order)))
    (hops : s.router = .resetState reason :: rest)
    (hrun : (RouterOp.resetState reason).run order s.shared = some (sh, ops))
    (hshared' : s'.shared = sh) (hrouter' : s'.router = ops ++ rest) :
    s'.Traced (h.note s (.router order)) := by
  have hrest : rest = [.publishStatus] := by
    have hrouter := hs.resetting reason (by simp [hops])
    rw [hops] at hrouter
    exact (List.cons.inj hrouter).2
  have hk : h.inHand = h.ended.length := hs.router (.resetState reason) (by simp [hops])
  have hqueued := hs.queued.mono (hstep.sentKeys_subset hsound)
  rw [← (RouterOp.told_run hrun).1, ← hshared', hops, hrest,
    RouterOp.countP_resetState] at hqueued
  simp only [RouterOp.run] at hrun
  split at hrun <;> cases hrun
  have hnote : h.note s (.router order) = { h with ended := h.ended ++ [h.inHand] } := by
    simp [Provenance.note, hops]
  rw [hnote]
  refine ⟨?_, hids, fun k hmem => ?_, fun k _ key p hp => ?_, ?_, ?_, ?_, fun v hv => ?_⟩
  · simpa [System.noteReset, System.processesReset, System.resetting, hops] using hcounted
  · rw [List.length_append]
    rcases List.mem_append.1 hmem with hmem | hmem
    · exact Nat.lt_of_lt_of_le (hs.ended k hmem) (Nat.le_add_right ..)
    · rw [List.mem_singleton.1 hmem, hk]
      exact Nat.lt_succ_self _
  · rw [hshared'] at hp
    replace hp : HashMap.get (∅ : HashMap String Pending) key = some p := hp
    rw [HashMap.get_empty] at hp
    cases hp
  · rw [hrouter', hrest]
    simpa [RouterOp.isReset] using hqueued
  · rw [hrouter', hrest]
    simp [RouterOp.Fresh]
  · rw [hrouter', hrest]
    simp
  · rw [hshared'] at hv
    cases hv

/-- Another operation of the router is done: the resets are as they were. -/
theorem System.Traced.router_other {order : List String} {op : RouterOp}
    {rest ops : List RouterOp} {sh : Shared} (hs : s.Traced h)
    (hstep : Stepped cfg s (.router order) s') (hsound : s.Sound) (hids : s'.IdsIssued)
    (hcounted : s'.Counted (s.noteReset h.ended.length (.router order)))
    (hops : s.router = op :: rest) (hrun : op.run order s.shared = some (sh, ops))
    (hshared' : s'.shared = sh) (hrouter' : s'.router = ops ++ rest)
    (hreset : ∀ reason, op ≠ .resetState reason) : s'.Traced (h.note s (.router order)) := by
  have hsub := hstep.sentKeys_subset hsound
  have hpending := hs.pending_step hstep hsound
  have hop : op.Fresh s.sentKeys h.ended.length h.inHand := hs.router op (by simp [hops])
  obtain ⟨hnew, -⟩ := RouterOp.fresh_run hrun hop hs.pending
  obtain ⟨hevents, -, hnone⟩ := RouterOp.told_run hrun
  have hisReset : op.isReset = false := by
    cases op with
    | resetState reason => exact absurd rfl (hreset reason)
    | _ => rfl
  have hcounted' : s'.Counted h.ended.length := by
    have hprocesses : s.processesReset (.router order) = false := by
      rw [System.processesReset, System.resetting, hops]
      cases op with
      | resetState reason => exact absurd rfl (hreset reason)
      | _ => rfl
    rwa [System.noteReset, hprocesses] at hcounted
  have hqueued : Queued s'.sentKeys (h.ended.length + s'.router.countP RouterOp.isReset)
      s'.shared.serverEvents h.queued := by
    have hcount : ops.countP RouterOp.isReset = 0 := by
      refine List.countP_eq_zero.2 fun op' hop' => ?_
      cases op' with
      | resetState reason => exact absurd hop' (hnone reason)
      | _ => simp [RouterOp.isReset]
    have hold := hs.queued.mono hsub
    rw [← hevents, ← hshared', hops, List.countP_cons_of_neg (by simp [hisReset])] at hold
    rwa [hrouter', List.countP_append, hcount, Nat.zero_add]
  have hfresh : ∀ op' ∈ s'.router, op'.Fresh s'.sentKeys h.ended.length h.inHand := by
    intro op' hop'
    rw [hrouter'] at hop'
    rcases List.mem_append.1 hop' with hop' | hop'
    · exact (hnew op' hop').mono hsub
    · exact (hs.router op' (by simp [hops, hop'])).mono hsub
  have hresetting : ∀ reason, .resetState reason ∈ s'.router →
      s'.router = [.resetState reason, .publishStatus] := by
    intro reason hmem
    rw [hrouter'] at hmem
    rcases List.mem_append.1 hmem with hmem | hmem
    · exact absurd hmem (hnone reason)
    · have hrouter := hs.resetting reason (by simp [hops, hmem])
      rw [hops] at hrouter
      exact absurd (List.cons.inj hrouter).1 (hreset reason)
  by_cases hcache : ∃ msg p, op = .cacheInitialize msg p
  · obtain ⟨msg, p, rfl⟩ := hcache
    have hnote : h.note s (.router order) = { h with cachedBy := h.inHand } := by
      simp [Provenance.note, hops]
    rw [hnote]
    refine ⟨hcounted', hids, hs.ended, hpending, hqueued, hfresh, hresetting, fun v hv => ?_⟩
    cases hrun
    rw [hshared'] at hv
    cases hv
    exact hop
  · have hnote : h.note s (.router order) = h := by
      simp only [Provenance.note, hops]
      cases op with
      | resetState reason => exact absurd rfl (hreset reason)
      | cacheInitialize msg p => exact absurd ⟨msg, p, rfl⟩ hcache
      | _ => rfl
    rw [hnote]
    refine ⟨hcounted', hids, hs.ended, hpending, hqueued, hfresh, hresetting, fun v hv => ?_⟩
    refine hs.cached v ?_
    rw [hshared'] at hv
    cases RouterOp.initMove_run hrun with
    | nothing hsame => rwa [← hsame.cached]
    | take hget hinit hperm hcached => rwa [← hcached]
    | cache => exact absurd ⟨_, _, rfl⟩ hcache
    | reset => exact absurd rfl (hreset _)

/-- The router does its next operation. -/
theorem System.Traced.router_step {order : List String} {op : RouterOp} {rest ops : List RouterOp}
    {sh : Shared} (hs : s.Traced h) (hstep : Stepped cfg s (.router order) s')
    (hsound : s.Sound) (hids : s'.IdsIssued)
    (hcounted : s'.Counted (s.noteReset h.ended.length (.router order)))
    (hops : s.router = op :: rest) (hrun : op.run order s.shared = some (sh, ops))
    (hshared' : s'.shared = sh) (hrouter' : s'.router = ops ++ rest) :
    s'.Traced (h.note s (.router order)) := by
  cases op with
  | resetState reason =>
    exact hs.processesReset hstep hsound hids hcounted hops hrun hshared' hrouter'
  | _ => exact hs.router_other hstep hsound hids hcounted hops hrun hshared' hrouter' nofun

/-- **A step keeps the history in order, and delivers nothing stale**, where
it meets the conditions. -/
theorem Stepped.traced (hstep : Stepped cfg s l s') (hsound : s.Sound) (hshaped : s.Shaped)
    (hk : s.shared.Keyed) (hs : s.Traced h) (howns : s.answersOwn l = true)
    (hborrows : s.borrowsNoId l) (hintime : h.batchesInTime s l = true) :
    s'.Traced (h.note s l) ∧ s.DeliversFresh h s' := by
  have hids := hstep.idsIssued hsound hs.ids hborrows
  have hcounted := hstep.counted hshaped hs.counted
  have hqueued := hs.queued.mono (hstep.sentKeys_subset hsound)
  by_cases hl : ∃ order, l = .router order
  · obtain ⟨order, rfl⟩ := hl
    have htraced : ∀ {op : RouterOp} {rest ops : List RouterOp} {sh : Shared},
        s.router = op :: rest → op.run order s.shared = some (sh, ops) → s'.shared = sh →
        s.DeliversFresh h s' := by
      intro op rest ops sh hops hrun hshared'
      obtain ⟨-, ds, hsent, hfresh⟩ :=
        RouterOp.fresh_run hrun (hs.router op (by simp [hops])) hs.pending
      refine ⟨ds, by rw [hshared', hsent], fun d hd msg a horigin hresp k hk => ?_⟩
      exact Nat.lt_of_lt_of_le (hs.ended k hk) (hfresh d hd msg a horigin hresp)
    have hstep' := hstep
    cases hstep with
    | router hops hrun =>
      exact ⟨hs.router_step hstep' hsound hids hcounted hops hrun rfl rfl,
        htraced hops hrun rfl⟩
  · have hl' : ∀ order, l ≠ .router order := fun order heq => hl ⟨order, heq⟩
    refine ⟨?_, ?_⟩
    · have hcounted' : s'.Counted h.ended.length := by
        cases l with
        | router order => exact absurd rfl (hl' order)
        | _ => exact hcounted
      have hquiet : s'.shared.serverEvents = s.shared.serverEvents → s'.router = s.router →
          h.note s l = h → s'.Traced (h.note s l) := by
        intro hevents hrouter hnote
        rw [hnote]
        exact hs.queues hstep hsound hk hids hcounted' hl' hrouter rfl rfl rfl
          (by rwa [hevents])
      have hstep' := hstep
      cases hstep with
      | router => exact absurd rfl (hl' _)
      | handler hops hrun | writer hops hrun =>
        exact hquiet (ClientOp.sameTold_run hrun).serverEvents rfl rfl
      | reaper hops hrun => exact hquiet (ReaperOp.sameTold_run hrun).serverEvents rfl rfl
      | heartbeat hops hrun => exact hquiet (HeartbeatOp.sameTold_run hrun).serverEvents rfl rfl
      | @routerTurn event rest hidle hevents =>
        have hbegins := RouterOp.begins_dispatch event { s.shared with serverEvents := rest }
        exact hs.routerTurn hstep' hsound hk hids hcounted' hidle hevents hbegins.1 hbegins.2
      | @manager choice op rest ops loc sh hops hlock hrun =>
        have hnote : (∀ b, op ≠ .cleanup b) → h.note s (.manager choice) = h := by
          intro hop
          simp only [Provenance.note, hops]
          cases op with
          | cleanup b => exact absurd rfl (hop b)
          | _ => rfl
        cases ManagerOp.tells_run hrun with
        | nothing hop htold => exact hquiet htold.serverEvents rfl (hnote fun b => (hop b).1)
        | running hevents => exact hquiet hevents rfl (hnote (by simp))
        | gone hop hpid hevents => exact hquiet hevents rfl (hnote hop)
        | @reset b reason _ hpid hevents =>
          have hnote : h.note s (.manager choice) =
              { h with queued := h.queued ++ [s.shared.children.length - 1] } := by
            simp [Provenance.note, hops]
          have hlength := hs.counted.tending ⟨.cleanup b, by simp [hops], rfl⟩
          rw [System.resetsOutstanding] at hlength
          rw [hnote]
          refine hs.queues hstep' hsound hk hids hcounted' hl' rfl rfl rfl rfl ?_
          rw [hevents]
          exact hqueued.append_reset reason (by omega)
      | @childOutput k msg hreads =>
        refine hs.queues hstep' hsound hk hids hcounted' hl' rfl rfl rfl rfl
          (hqueued.append_message ⟨fun r hr key hkey => ?_, fun hbatch => ?_⟩)
        · have hown := List.all_eq_true.1 howns r hr
          rw [hkey] at hown
          exact of_decide_eq_true hown
        · rw [Provenance.batchesInTime, hbatch, Bool.false_or, decide_eq_true_eq,
            System.resetsOutstanding] at hintime
          omega
      | connect | receive | disconnect | decodeError | handshakeTimeout | handshakeTick
      | writerFails | reaperTick | heartbeatTick | heartbeatEvent | readerEnds | childExits
      | shutdown | elapse => exact hquiet rfl rfl rfl
    · obtain ⟨ds, hsent, hmux⟩ := hstep.spoken hl'
      refine ⟨ds, hsent, fun d hd msg a horigin => ?_⟩
      rw [hmux d hd] at horigin
      cases horigin

theorem traced_init (cfg : Config) : (System.init cfg).Traced .start where
  counted := counted_init cfg
  ids := idsIssued_init cfg
  ended := by simp [Provenance.start]
  pending := by simp [Provenance.start]
  queued := .nil
  router := by simp [System.init]
  resetting := by simp [System.init]
  cached := nofun

/-- The runs of a mux, with the provenance of the router's events. -/
abbrev TracedRun (cfg : Config) (ok : System × Provenance → Label → Prop) (s : System)
    (h : Provenance) : Prop :=
  Run.Reach (Run.track (System.step cfg) Provenance.note) ok (System.init cfg, .start) (s, h)

/-- The child answers only what it was sent, and the step meets both conditions. -/
structure FreshStep (p : System × Provenance) (l : Label) : Prop where
  answersOwn : p.1.answersOwn l = true
  borrowsNoId : p.1.borrowsNoId l
  batchesInTime : p.2.batchesInTime p.1 l = true

/-- **Stale responses die with their child**, in the runs in which no value
brings the child an id that is still to be issued, and no incarnation
batches a response once its reset was queued. A step delivers no response
of an incarnation whose reset was processed, and the cache holds none. -/
theorem stale_responses_die (cfg : Config) (s s' : System) (h : Provenance) (l : Label)
    (hrun : TracedRun cfg FreshStep s h) (hok : FreshStep (s, h) l)
    (hstep : s.step cfg l = some s') :
    s.DeliversFresh h s' ∧ ∀ v, s'.shared.st.cachedInitialize = some v → responses v ≠ [] →
      ∀ k ∈ (h.note s l).ended, k < (h.note s l).cachedBy := by
  have hbase : ∀ p, Run.Reach (Run.track (System.step cfg) Provenance.note) FreshStep
      (System.init cfg, .start) p → p.1.Sound ∧ p.1.Shaped ∧ p.1.shared.Keyed :=
    fun p hr => ⟨Reachable.sound hr.untrack, Reachable.shaped hr.untrack,
      Reachable.keyed hr.untrack⟩
  have htraced : s.Traced h := by
    refine hrun.invariant_of (I := fun p => p.1.Traced p.2) hbase (traced_init cfg) ?_
    rintro ⟨s, h⟩ l ⟨s', h'⟩ hok ⟨hsound, hshaped, hk⟩ hs hstep
    obtain ⟨hstep, rfl⟩ := Run.track_eq_some.1 hstep
    exact ((stepped_of_step hstep).traced hsound hshaped hk hs hok.answersOwn hok.borrowsNoId
      hok.batchesInTime).1
  obtain ⟨hsound, hshaped, hk⟩ := hbase _ hrun
  obtain ⟨htraced', hfresh⟩ := (stepped_of_step hstep).traced hsound hshaped hk htraced
    hok.answersOwn hok.borrowsNoId hok.batchesInTime
  refine ⟨hfresh, fun v hv hresp k hmem => ?_⟩
  exact Nat.lt_of_lt_of_le (htraced'.ended k hmem) (htraced'.cached v hv hresp)

/-! ## Late answers -/

/-- An answer to the request `c1:1`. -/
def answerMessage : Value :=
  .object [("id", .string "c1:1"), ("result", .string "late")]

/-- The child exits with a request unanswered; its reset is processed, and
only then does its reader queue the answer, which the router takes. -/
def lateAnswerRun : List Label :=
  writtenRun ++ [Label.router ["c1:1"], .router [], .childOutput 0 answerMessage, .routerTurn]

/-- The step is a fresh one, and nothing with an id is forwarded as it came. -/
def freshStep (p : System × Provenance) (l : Label) : Bool :=
  p.1.answersOwn l && p.2.batchesInTime p.1 l &&
    match l with
    | .handler c =>
      match p.1.handlers c with
      | .trySend msg :: _ => (carriedIds msg.val).isEmpty
      | _ => true
    | _ => true

theorem freshStep_of_eq_true {p : System × Provenance} {l : Label}
    (h : freshStep p l = true) : FreshStep p l := by
  simp only [freshStep, Bool.and_eq_true] at h
  obtain ⟨⟨howns, hintime⟩, hcarries⟩ := h
  refine ⟨howns, ?_, hintime⟩
  cases l with
  | handler c =>
    intro msg rest hops id hid
    simp only [hops] at hcarries
    rw [List.isEmpty_iff.1 hcarries] at hid
    cases hid
  | _ => trivial

/-- The late answer reaches nobody. -/
theorem stale_responses_die_lateAnswerRun :
    (Config.small.tracked Provenance.note .start lateAnswerRun).2.ended = [0] ∧
      (Config.small.tracked Provenance.note .start lateAnswerRun).2.inHand = 0 ∧
      ∀ s', (Config.small.tracked Provenance.note .start lateAnswerRun).1.step .small
          (.router []) = some s' →
        (Config.small.tracked Provenance.note .start lateAnswerRun).1.DeliversFresh
          (Config.small.tracked Provenance.note .start lateAnswerRun).2 s' := by
  have htracks : Config.small.tracks Provenance.note .start lateAnswerRun = true := by
    decide +kernel
  refine ⟨by decide +kernel, by decide +kernel, fun s' hstep => ?_⟩
  exact (stale_responses_die .small _ s' _ (.router []) ((Config.small.reachable_tracked freshStep
    htracks (by decide +kernel)).mono fun _ _ h => freshStep_of_eq_true h) ⟨rfl, trivial, rfl⟩
    hstep).1

/-- A client's `notifications/initialized` carries the id `c1:1`, so the
child is sent it. The child exits, and its reset is processed; then the id
is issued for a request, and the old child's answer to it arrives. -/
def borrowedIdRun : List Label :=
  startRun ++
    [Label.connect, .handler 1,
      .receive 1
        (.object [("id", .string "c1:1"), ("method", .string "notifications/initialized")]),
      .handler 1, .handler 1, .handler 1, .handler 1, .handler 1, .handler 1, .handler 1,
      .manager .received, .manager .go, .manager .written, .manager .go] ++ childExitRun ++
    [Label.router [], .router []] ++ respawnRun ++
    [Label.receive 1 (.object [("id", .number (.posInt 7)), ("method", .string "tools/call")]),
      .handler 1, .handler 1, .handler 1, .handler 1, .handler 1, .handler 1,
      .childOutput 0 answerMessage, .routerTurn, .router [], .router []]

/-- The delivery brings its client a response of the child. -/
def Delivery.bringsResponse (d : Delivery) : Bool :=
  match d.origin with
  | .child msg _ => !(responses msg).isEmpty
  | .mux => false

/-- **The answer of a dead child is delivered.** -/
theorem not_deliversFresh_borrowedIdRun : ¬ ∀ (cfg : Config) (s s' : System) (h : Provenance)
    (l : Label), TracedRun cfg (fun p l => p.1.answersOwn l = true) s h →
    s.answersOwn l = true → s.step cfg l = some s' → s.DeliversFresh h s' := by
  intro hall
  have htracks : Config.small.tracks Provenance.note .start borrowedIdRun = true := by
    decide +kernel
  have hbefore : (Config.small.tracked Provenance.note .start
      borrowedIdRun).1.shared.sent.countP Delivery.bringsResponse = 0 := by decide +kernel
  have hafter : ((Config.small.tracked Provenance.note .start borrowedIdRun).1.step .small
      (.router [])).map (fun s' => s'.shared.sent.countP Delivery.bringsResponse) = some 1 := by
    decide +kernel
  have hended : (Config.small.tracked Provenance.note .start borrowedIdRun).2.ended = [0] := by
    decide +kernel
  have hinHand : (Config.small.tracked Provenance.note .start borrowedIdRun).2.inHand = 0 := by
    decide +kernel
  obtain ⟨s', hstep, hcount⟩ := Option.map_eq_some_iff.1 hafter
  obtain ⟨ds, hsent, hfresh⟩ := hall .small _ s' _ (.router []) (Config.small.reachable_tracked
    (fun p l => p.1.answersOwn l) htracks (by decide +kernel)) rfl hstep
  rw [hsent, List.countP_append, hbefore, Nat.zero_add] at hcount
  obtain ⟨d, hd, hbrings⟩ := List.countP_pos_iff.1 (by rw [hcount]; exact Nat.one_pos)
  cases horigin : d.origin with
  | mux => simp [Delivery.bringsResponse, horigin] at hbrings
  | child msg a =>
    have hresp : responses msg ≠ [] := by
      simpa [Delivery.bringsResponse, horigin] using hbrings
    have hlt := hfresh d hd msg a horigin hresp 0 (by rw [hended]; exact List.mem_singleton_self 0)
    rw [hinHand] at hlt
    exact Nat.lt_irrefl 0 hlt

end Mux

end VcOperator
