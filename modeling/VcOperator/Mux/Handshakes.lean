import VcOperator.Mux.Helpers.Handshakes
import VcOperator.Mux.Helpers.Intake
/-!
# The handshake each child sees

A child expects an `initialize` request, then the one
`notifications/initialized`, and everything else after that. The mux has
three means for it: a client's requests are held back until its own
handshake is complete, `server_initialized` lets the first
`notifications/initialized` through and stops the others, and the
inspector probes only once that flag is set.

None of them looks at the child. The flag is never taken back, so a child
that is spawned after the handshake of an earlier one is told neither half
of it, and the clients go on; a message without an id is forwarded
whatever has been said; the notification is forwarded though nobody has
asked to initialize, and is lost when the queue is full; and the flag is
set before the notification is on the queue. `handshakes_begin_well` says
that these are the gaps.
-/

namespace VcOperator

namespace Mux

/-! ## What a child expects -/

/-- The message is an `initialize` request. -/
def asksInitialize (msg : Value) : Bool :=
  (msg.get "id").isSome && decide (method msg = "initialize")

/-- It is the notification that the handshake is done. -/
def saysInitialized (msg : Value) : Bool := decide (method msg = "notifications/initialized")

/-- **A well-formed session, as far as it has come**: an `initialize` request,
one `notifications/initialized`, and everything else after it. -/
def beginsHandshake : List Value → Bool
  | [] => true
  | [ask] => asksInitialize ask
  | ask :: done :: rest =>
    asksInitialize ask && saysInitialized done && rest.all fun msg => !saysInitialized msg

/-- **Every child is told a well-formed session.** -/
def System.BeginsWell (s : System) : Prop := ∀ k, beginsHandshake (s.writtenTo k) = true

/-! ## The condition -/

/-- The operation has the notification in its hands. -/
def ClientOp.announces : ClientOp → Bool
  | trySend msg => saysInitialized msg.val
  | _ => false

namespace System

variable (s : System)

/-- The handler of a client has no notification in its hands. -/
def silent (c : ℕ) : Bool := (s.handlers c).all fun op => !op.announces

/-- The flag is set, and the notification it was set for is no longer in
the hands of a handler. -/
def announced : Bool :=
  s.shared.st.serverInitialized && (List.range s.shared.st.nextClientId).all s.silent

/-- **The condition on a step.** The notification is forwarded to a child
that was asked to initialize, and there is room for it. A message without
an id, a probe, a request of a client that has no handshake of its own,
and what a client holds back behind another one's notification follow
only once that has left its handler. An `initialize` is the first thing
a child is told, or comes after the notification. A child is spawned after
another only before the flag is set, and takes its first message. -/
def keepsHandshake : Label → Bool
  | .handler c =>
    match s.handlers c with
    | .trySend msg :: _ =>
      if saysInitialized msg.val then s.shared.hasRoom || !s.serving
      else !s.shared.hasRoom || s.announced
    | .markServerInitialized _ :: _ =>
      if s.shared.st.serverInitialized then s.announced else !s.told.isEmpty
    | .checkHandshake _ :: _ => (s.shared.st.clientHandshakes.get c).isSome || s.announced
    | .send _ true :: _ => !s.shared.hasRoom || s.told.isEmpty || s.announced
    | _ => true
  | .heartbeat =>
    match s.heartbeat with
    | .probe :: _ => !s.shared.st.serverInitialized || s.announced
    | _ => true
  | .manager choice =>
    match s.manager, choice with
    | .spawn _ :: _, .spawned _ =>
      s.shared.children.isEmpty || !s.shared.st.serverInitialized
    | .writeFirst _ :: _, .writeFailed _ => false
    | _, _ => true
  | _ => true

end System

variable {cfg : Config} {ok : System → Label → Prop} {s s' : System} {l : Label}
variable {sh sh' : Shared} {c : ℕ}

/-! ## What the messages are -/

namespace ClientOp

/-- What an operation says of the method of its message. -/
def Proper : ClientOp → Prop
  | handleInitialize val _ => asksInitialize val = true
  | send msg true => asksInitialize msg.val = true
  | send msg false | checkHandshake msg | bufferMessage msg | forwardRequest msg =>
    saysInitialized msg.val = false
  | flushBuffered buffered => ∀ msg ∈ buffered, saysInitialized msg.val = false
  | markServerInitialized msg => saysInitialized msg.val = true
  | _ => True

variable {op : ClientOp} {ops : List ClientOp}

@[simp] theorem saysInitialized_setId (msg id : Value) :
    saysInitialized (setId msg id) = saysInitialized msg := by
  rw [saysInitialized, saysInitialized, method_setId]

/-- A request stays a request for the same under its new id. -/
theorem asksInitialize_setId {msg : Value} (h : asksInitialize msg = true) (id : Value) :
    asksInitialize (setId msg id) = true := by
  rw [asksInitialize, Bool.and_eq_true] at h
  obtain ⟨old, hold⟩ := Option.isSome_iff_exists.1 h.1
  rw [asksInitialize, get_id_setId hold, method_setId, h.2]
  rfl

/-- **What an operation goes on with is proper.** -/
theorem proper_run {enc : Value → ℕ} (h : op.run enc c sh = some (sh', ops)) (hop : op.Proper)
    (hbuffered : ∀ msg ∈ sh.st.bufferedMessages c, saysInitialized msg.val = false) :
    ∀ op' ∈ ops, op'.Proper := by
  intro op' hop'
  cases goesOn_of_run h hop' with
  | initialized hmethod => exact decide_eq_true hmethod
  | initRequest hmethod hid =>
    rw [Proper, asksInitialize, hid, hmethod]
    rfl
  | request hmethod => exact decide_eq_false hmethod
  | flush => exact hbuffered
  | flushed => exact fun m hm => hop m (List.mem_cons_of_mem _ hm)
  | flushSend => exact (saysInitialized_setId _ _).trans (hop _ (List.mem_cons_self ..))
  | send => exact (saysInitialized_setId _ _).trans hop
  | sendInitialize => exact asksInitialize_setId hop _
  | forward | buffer => exact hop
  | tooLarge | notification | announce | complete | depth | status => trivial

end ClientOp

/-- What the handlers have in their hands, and what they hold back. -/
structure System.Proper (s : System) : Prop where
  handlers : ∀ c, ∀ op ∈ s.handlers c, op.Proper
  buffered : ∀ c, ∀ msg ∈ s.shared.st.bufferedMessages c, saysInitialized msg.val = false

theorem Stepped.proper (h : Stepped cfg s l s') (hsound : s.Sound) (hs : s.Proper) :
    s'.Proper := by
  have hbuffered : ∀ c, ∀ msg ∈ s'.shared.st.bufferedMessages c,
      saysInitialized msg.val = false := by
    intro c msg hm
    rcases (h.handshaking hsound).buffered c msg hm with hold | ⟨c', rest, -, hops⟩
    · exact hs.buffered c msg hold
    · exact hs.handlers c' (.bufferMessage msg) (by simp [hops])
  refine ⟨?_, hbuffered⟩
  cases h with
  | connect | receive =>
    exact forall_mem_update hs.handlers fun op hop => by
      rw [List.mem_singleton.1 hop]
      trivial
  | disconnect | decodeError | handshakeTimeout =>
    exact forall_mem_update hs.handlers (by simp [System.farewell, ClientOp.Proper])
  | @handler c op rest ops sh hops hrun =>
    refine forall_mem_update hs.handlers fun op' hop' => ?_
    rcases List.mem_append.1 hop' with hop' | hop'
    · exact ClientOp.proper_run hrun (hs.handlers c op (by simp [hops])) (hs.buffered c) op' hop'
    · exact hs.handlers c op' (by simp [hops, hop'])
  | writer | handshakeTick | writerFails | routerTurn | router | reaperTick | reaper
  | heartbeatTick | heartbeatEvent | heartbeat | manager | childOutput | readerEnds | childExits
  | shutdown | elapse => exact hs.handlers

theorem Reachable.proper (h : Reachable cfg ok s) : s.Proper :=
  h.invariant_of (I := System.Proper) (J := System.Sound) (fun _ hr => Reachable.sound hr)
    ⟨fun _ _ hop => absurd hop List.not_mem_nil, fun _ _ hm => absurd hm List.not_mem_nil⟩
    fun _ _ _ _ hsound hs hstep => (stepped_of_step hstep).proper hsound hs

/-! ## Sessions, message by message -/

section Sessions

variable {told : List Value} {msg : Value}

theorem saysInitialized_of_asks (h : asksInitialize msg = true) : saysInitialized msg = false := by
  simp only [asksInitialize, Bool.and_eq_true, decide_eq_true_eq] at h
  rw [saysInitialized, h.2]
  decide

theorem beginsHandshake_prefix {told' : List Value} (h : beginsHandshake told = true)
    (hstart : told' <+: told) : beginsHandshake told' = true := by
  obtain ⟨more, rfl⟩ := hstart
  match told', more with
  | [], _ => rfl
  | [ask], [] => exact h
  | [ask], done :: rest =>
    simp only [List.cons_append, List.nil_append, beginsHandshake, Bool.and_eq_true] at h
    exact h.1.1
  | ask :: done :: rest, more =>
    simp only [List.cons_append, beginsHandshake, Bool.and_eq_true, List.all_append] at h ⊢
    exact ⟨h.1, h.2.1⟩

/-- The first message is the request. -/
theorem beginsHandshake_ask (hlen : told.length = 0) (hmsg : asksInitialize msg = true) :
    beginsHandshake (told ++ [msg]) = true := by
  rw [List.length_eq_zero_iff.1 hlen]
  exact hmsg

/-- The second is the notification. -/
theorem beginsHandshake_done (h : beginsHandshake told = true) (hlen : told.length = 1)
    (hmsg : saysInitialized msg = true) : beginsHandshake (told ++ [msg]) = true := by
  obtain ⟨ask, rfl⟩ := List.length_eq_one_iff.1 hlen
  simp only [List.singleton_append, beginsHandshake, hmsg, Bool.and_true, List.all_nil]
  exact h

/-- After that, anything else may come. -/
theorem beginsHandshake_other (h : beginsHandshake told = true) (hlen : 2 ≤ told.length)
    (hmsg : saysInitialized msg = false) : beginsHandshake (told ++ [msg]) = true := by
  match told with
  | [] | [_] => simp at hlen
  | ask :: done :: rest =>
    simp only [List.cons_append, beginsHandshake, Bool.and_eq_true, List.all_append] at h ⊢
    exact ⟨h.1, h.2, by simp [hmsg]⟩

end Sessions

/-! ## What the operations announce, and let pass -/

namespace ClientOp

variable {op : ClientOp} {ops : List ClientOp} {enc : Value → ℕ}

/-- The operation forwards requests, or is about to: its client's handshake
counts as complete. -/
def passes : ClientOp → Bool
  | completeHandshake | flushBuffered _ | forwardRequest _ | send _ false => true
  | _ => false

/-- The notification is taken in hand where the flag is set, and only there. -/
theorem announces_run (h : op.run enc c sh = some (sh', ops))
    (hflag : ∀ msg, op = .markServerInitialized msg → sh.st.serverInitialized = true) :
    ∀ op' ∈ ops, op'.announces = false := by
  intro op' hop'
  cases goesOn_of_run h hop' with
  | notification _ hmethod _ => exact decide_eq_false hmethod
  | announce hunset =>
    rw [hflag _ rfl] at hunset
    cases hunset
  | _ => rfl

/-- Who lets a request pass: the check of a handshake that is complete, the
notification of a client, and what has passed already. -/
theorem passes_run (h : op.run enc c sh = some (sh', ops)) {op' : ClientOp} (hop' : op' ∈ ops)
    (hpasses : op'.passes = true) : op.passes = true ∨
      (∃ msg, op = .checkHandshake msg ∧ sh.st.isHandshakeComplete c = true) ∨
      ∃ msg, op = .markServerInitialized msg := by
  cases goesOn_of_run h hop' with
  | forward hcomplete => exact .inr (.inl ⟨_, rfl, hcomplete⟩)
  | complete => exact .inr (.inr ⟨_, rfl⟩)
  | flush | flushed | flushSend | send => exact .inl rfl
  | _ => cases hpasses

end ClientOp

/-! ## The invariant -/

namespace System

/-- The handler of client `c` has the notification in its hands, and it is
the only one. -/
structure Announcing (s : System) (c : ℕ) : Prop where
  head : ∃ msg rest, s.handlers c = .trySend msg :: rest ∧ saysInitialized msg.val = true ∧
    ∀ op ∈ rest, op.announces = false
  others : ∀ c', c' ≠ c → s.silent c' = true

/-- **What the child being served is told**, by how far the flag and the
notification have come. -/
structure TellsWell (s : System) : Prop where
  before : s.shared.st.serverInitialized = false →
    beginsHandshake s.told = true ∧ s.told.length ≤ 1
  asked : s.shared.st.serverInitialized = true → s.serving = true → s.announced = false →
    beginsHandshake s.told = true ∧ s.told.length = 1
  greeted : s.serving = true → s.announced = true →
    beginsHandshake s.told = true ∧ 2 ≤ s.told.length

/-- **The invariant.** The notification is nowhere before the flag is set,
and in one handler's hands until it is announced; and nothing passes a
check before that. -/
structure Greets (s : System) : Prop where
  written : s.BeginsWell
  tells : s.TellsWell
  silent : s.shared.st.serverInitialized = false → ∀ c, s.silent c = true
  announcing : s.shared.st.serverInitialized = true →
    s.announced = true ∨ ∃ c, s.Announcing c
  completed : ∀ c, s.shared.st.Completed c → s.announced = true
  passing : ∀ c, ∀ op ∈ s.handlers c, op.passes = true → s.announced = true ∨ s.Announcing c
  probing : ∀ n t, .sendProbe n t ∈ s.heartbeat → s.announced = true

end System

theorem silent_iff : s.silent c = true ↔ ∀ op ∈ s.handlers c, op.announces = false := by
  simp [System.silent]

theorem announced_iff (hb : s.Born) : s.announced = true ↔
    s.shared.st.serverInitialized = true ∧ ∀ c, s.silent c = true := by
  rw [System.announced, Bool.and_eq_true, List.all_eq_true]
  refine and_congr_right fun _ => ⟨fun h c => ?_, fun h c _ => h c⟩
  by_cases hc : s.handlers c = []
  · rw [silent_iff, hc]
    exact fun op hop => by cases hop
  · exact h c (List.mem_range.2 (hb c hc))

theorem System.Announcing.not_silent (h : s.Announcing c) : s.silent c = false := by
  obtain ⟨msg, rest, hops, hmsg, -⟩ := h.head
  rw [System.silent, hops, List.all_cons, ClientOp.announces, hmsg]
  rfl

theorem System.Announcing.not_announced (h : s.Announcing c) (hb : s.Born) :
    s.announced = false := by
  rw [Bool.eq_false_iff]
  intro hannounced
  have hsilent := ((announced_iff hb).1 hannounced).2 c
  rw [h.not_silent] at hsilent
  cases hsilent

/-- **The hands stay as they are**: nothing is announced in the step, and
nothing passes that had not passed. -/
structure System.Hushed (s s' : System) : Prop where
  flag : s'.shared.st.serverInitialized = s.shared.st.serverInitialized
  silent : ∀ c, s.silent c = true → s'.silent c = true
  announcing : ∀ c, s.Announcing c → s'.handlers c = s.handlers c
  completed : ∀ c, s'.shared.st.Completed c → s.shared.st.Completed c ∨ s.announced = true
  passing : ∀ c, ∀ op ∈ s'.handlers c, op.passes = true → op ∈ s.handlers c ∨ s.announced = true
  probing : ∀ n t, .sendProbe n t ∈ s'.heartbeat →
    .sendProbe n t ∈ s.heartbeat ∨ s.announced = true

namespace System.Hushed

theorem announced (h : s.Hushed s') (hb : s.Born) (hb' : s'.Born) (ha : s.announced = true) :
    s'.announced = true := by
  obtain ⟨hflag, hsilent⟩ := (announced_iff hb).1 ha
  exact (announced_iff hb').2 ⟨h.flag ▸ hflag, fun c => h.silent c (hsilent c)⟩

theorem keeps_announcing (h : s.Hushed s') (hc : s.Announcing c) : s'.Announcing c where
  head := by rw [h.announcing c hc]; exact hc.head
  others := fun c' hne => h.silent c' (hc.others c' hne)

/-- What is announced after the step was announced before it. -/
theorem announced_eq (h : s.Hushed s') (hb : s.Born) (hb' : s'.Born) (hs : s.Greets) :
    s'.announced = s.announced := by
  cases ha : s.announced with
  | true => exact h.announced hb hb' ha
  | false =>
    rw [Bool.eq_false_iff]
    intro ha'
    obtain ⟨hflag, -⟩ := (announced_iff hb').1 ha'
    rcases hs.announcing (h.flag ▸ hflag) with hann | ⟨c, hc⟩
    · rw [ha] at hann
      cases hann
    · rw [(h.keeps_announcing hc).not_announced hb'] at ha'
      cases ha'

/-- **The rule for such a step**: what is left to show is what is told and written. -/
theorem greets (h : s.Hushed s') (hb : s.Born) (hb' : s'.Born) (hs : s.Greets)
    (hwritten : s'.BeginsWell) (htells : s'.TellsWell) : s'.Greets where
  written := hwritten
  tells := htells
  silent := fun hflag c => h.silent c (hs.silent (h.flag ▸ hflag) c)
  announcing := fun hflag => (hs.announcing (h.flag ▸ hflag)).imp (h.announced hb hb')
    fun ⟨c, hc⟩ => ⟨c, h.keeps_announcing hc⟩
  completed := fun c hc => h.announced hb hb' ((h.completed c hc).elim (hs.completed c) id)
  passing := by
    intro c op hop hpasses
    rcases h.passing c op hop hpasses with hold | ha
    · exact (hs.passing c op hold hpasses).imp (h.announced hb hb') h.keeps_announcing
    · exact .inl (h.announced hb hb' ha)
  probing := fun n t hmem => h.announced hb hb' ((h.probing n t hmem).elim (hs.probing n t) id)

end System.Hushed

/-! ## What is told -/

/-- The message may come next. -/
def System.Fits (s : System) (msg : Value) : Prop :=
  asksInitialize msg = true ∧ s.told = [] ∨ saysInitialized msg = false ∧ s.announced = true

theorem flag_of_announced (h : s.announced = true) : s.shared.st.serverInitialized = true := by
  rw [System.announced, Bool.and_eq_true] at h
  exact h.1

namespace System.TellsWell

/-- A child that is served is told a well-formed session. -/
theorem begins (h : s.TellsWell) (hserving : s.serving = true) :
    beginsHandshake s.told = true := by
  cases hflag : s.shared.st.serverInitialized with
  | false => exact (h.before hflag).1
  | true =>
    cases ha : s.announced with
    | false => exact (h.asked hflag hserving ha).1
    | true => exact (h.greeted hserving ha).1

theorem same (h : s.TellsWell)
    (hflag : s'.shared.st.serverInitialized = s.shared.st.serverInitialized)
    (ha : s'.announced = s.announced) (htold : s'.told = s.told)
    (hserving : s'.serving = s.serving) : s'.TellsWell where
  before := by rw [hflag, htold]; exact h.before
  asked := by rw [hflag, hserving, ha, htold]; exact h.asked
  greeted := by rw [hserving, ha, htold]; exact h.greeted

/-- A message that fits is put on the queue. -/
theorem put (h : s.TellsWell) {msg : Value} (hfits : s.Fits msg)
    (hflag : s'.shared.st.serverInitialized = s.shared.st.serverInitialized)
    (ha : s'.announced = s.announced) (htold : s'.told = s.told ++ [msg])
    (hserving : s'.serving = s.serving) : s'.TellsWell := by
  rcases hfits with ⟨hasks, hnil⟩ | ⟨hother, hann⟩
  · have hlen : s.told.length = 0 := by rw [hnil]; rfl
    have hbegins := beginsHandshake_ask hlen hasks
    refine ⟨fun _ => ?_, fun hset hserves hnot => ?_, fun hserves hann => ?_⟩
    · rw [htold, List.length_append, hlen]
      exact ⟨hbegins, le_rfl⟩
    · have hone := (h.asked (hflag ▸ hset) (hserving ▸ hserves) (ha ▸ hnot)).2
      omega
    · have htwo := (h.greeted (hserving ▸ hserves) (ha ▸ hann)).2
      omega
  · refine ⟨fun hset => ?_, fun _ _ hnot => ?_, fun hserves _ => ?_⟩
    · rw [hflag, flag_of_announced hann] at hset
      cases hset
    · rw [ha, hann] at hnot
      cases hnot
    · obtain ⟨hbegins, htwo⟩ := h.greeted (hserving ▸ hserves) hann
      rw [htold, List.length_append]
      exact ⟨beginsHandshake_other hbegins htwo hother, by omega⟩

/-- The manager moves the messages along, or gives the child up. -/
theorem serves (h : s.TellsWell) {choice : Choice} (hs : s.Serves choice s')
    (hflag : s'.shared.st.serverInitialized = s.shared.st.serverInitialized)
    (ha : s'.announced = s.announced)
    (hspawn : s'.serving = true → s.serving = true ∨ s.shared.st.serverInitialized = false) :
    s'.TellsWell := by
  have hserved : s.shared.st.serverInitialized = true → s'.serving = true →
      s.serving = true ∧ s'.told = s.told := by
    intro hset hserves
    refine ⟨(hspawn hserves).resolve_right (by rw [hset]; nofun), ?_⟩
    rcases hs.told with htold | ⟨-, hidle⟩
    · exact htold
    · rw [hidle] at hserves
      cases hserves
  refine ⟨fun hset => ?_, fun hset hserves hnot => ?_, fun hserves hann => ?_⟩
  · obtain ⟨hbegins, hlen⟩ := h.before (hflag ▸ hset)
    rcases hs.told with htold | ⟨hsuffix, -⟩
    · rw [htold]
      exact ⟨hbegins, hlen⟩
    · refine ⟨?_, le_trans hsuffix.length_le hlen⟩
      rcases List.eq_nil_or_concat s'.told with hnil | ⟨_, _, hconcat⟩
      · rw [hnil]
        rfl
      · have heq : s'.told = s.told := by
          refine hsuffix.eq_of_length_le ?_
          rw [hconcat, List.length_concat]
          omega
        rw [heq]
        exact hbegins
  · obtain ⟨hserving, htold⟩ := hserved (hflag ▸ hset) hserves
    rw [htold]
    exact h.asked (hflag ▸ hset) hserving (ha ▸ hnot)
  · obtain ⟨hserving, htold⟩ := hserved (flag_of_announced (ha ▸ hann)) hserves
    rw [htold]
    exact h.greeted hserving (ha ▸ hann)

end System.TellsWell

/-! ## The steps -/

theorem System.BeginsWell.same (h : s.BeginsWell) (hwritten : ∀ k, s'.writtenTo k = s.writtenTo k) :
    s'.BeginsWell := fun k => hwritten k ▸ h k

/-- What the manager writes is part of what the child is told. -/
theorem System.BeginsWell.serves (h : s.BeginsWell) {choice : Choice} (hs : s.Serves choice s')
    (htells : s'.TellsWell) : s'.BeginsWell := by
  intro k
  rcases hs.written k with hsame | ⟨hserving, hk⟩
  · rw [hsame]
    exact h k
  · have hlast : s'.writtenLast = s'.writtenTo k := by
      rw [System.writtenLast, ← hk, Nat.add_sub_cancel]
    refine beginsHandshake_prefix (htells.begins hserving) ?_
    rw [System.told, if_pos hserving, hlast]
    exact List.prefix_append _ _

/-- A step of another task that leaves the handlers and the inspector alone. -/
theorem System.Hushed.of_eq (h : Stepped cfg s l s') (hsound : s.Sound)
    (hl : ∀ c, l ≠ .handler c) (hhandlers : s'.handlers = s.handlers)
    (hflag : s'.shared.st.serverInitialized = s.shared.st.serverInitialized)
    (hprobing : ∀ n t, .sendProbe n t ∈ s'.heartbeat →
      .sendProbe n t ∈ s.heartbeat ∨ s.announced = true) : s.Hushed s' where
  flag := hflag
  silent := fun c hc => by rw [System.silent, hhandlers]; exact hc
  announcing := fun c _ => by rw [hhandlers]
  completed := by
    intro c hc
    rcases (h.handshaking hsound).completed c hc with hold | ⟨_, rfl, -⟩
    · exact .inl hold
    · exact absurd rfl (hl _)
  passing := fun c op hop _ => .inl (by rw [hhandlers] at hop; exact hop)
  probing := hprobing

/-- A step that gives one client's handler something else to do. -/
theorem System.Hushed.of_update {c₀ : ℕ} (h : Stepped cfg s l s') (hsound : s.Sound)
    {ops : List ClientOp} (hhandlers : s'.handlers = Function.update s.handlers c₀ ops)
    (hflag : s'.shared.st.serverInitialized = s.shared.st.serverInitialized)
    (hhead : ∀ op rest, s.handlers c₀ = op :: rest → op.announces = false)
    (hops : s.silent c₀ = true → ∀ op ∈ ops, op.announces = false)
    (hpassing : ∀ op ∈ ops, op.passes = true → op ∈ s.handlers c₀ ∨ s.announced = true)
    (hcompleted : ∀ c rest, l = .handler c → s.handlers c = .completeHandshake :: rest →
      s.announced = true)
    (hheartbeat : s'.heartbeat = s.heartbeat) : s.Hushed s' where
  flag := hflag
  silent := by
    intro c hc
    rw [silent_iff, hhandlers]
    rcases eq_or_ne c c₀ with rfl | hne
    · rw [Function.update_self]
      exact hops hc
    · rw [Function.update_of_ne hne]
      exact silent_iff.1 hc
  announcing := by
    intro c hc
    have hne : c ≠ c₀ := by
      rintro rfl
      obtain ⟨msg, rest, heq, hmsg, -⟩ := hc.head
      have hno := hhead _ _ heq
      rw [ClientOp.announces, hmsg] at hno
      cases hno
    rw [hhandlers, Function.update_of_ne hne]
  completed := by
    intro c hc
    rcases (h.handshaking hsound).completed c hc with hold | ⟨rest, hl, heq⟩
    · exact .inl hold
    · exact .inr (hcompleted c rest hl heq)
  passing := by
    intro c op hop hpasses
    rw [hhandlers] at hop
    rcases eq_or_ne c c₀ with rfl | hne
    · rw [Function.update_self] at hop
      exact hpassing op hop hpasses
    · rw [Function.update_of_ne hne] at hop
      exact .inl hop
  probing := fun n t hmem => .inl (hheartbeat ▸ hmem)

section Handler

variable {op : ClientOp} {rest ops : List ClientOp} {msg : Tagged Value}

/-- **The flag is set**, and the handler takes the notification in its hands. -/
theorem greets_announce (hops : s.handlers c = .markServerInitialized msg :: rest)
    (hstep : Stepped cfg s (.handler c) s') (hsound : s.Sound) (hb' : s'.Born)
    (hproper : s.Proper) (hs : s.Greets) (hflag : s.shared.st.serverInitialized = false)
    (hok : s.told ≠ []) (hto : s'.shared.toServer = s.shared.toServer)
    (hset : s'.shared.st.serverInitialized = true)
    (hhandlers : s'.handlers =
      Function.update s.handlers c (.trySend msg :: .completeHandshake :: rest))
    (hheartbeat : s'.heartbeat = s.heartbeat) : s'.Greets := by
  obtain ⟨htold, hserving, hwritten⟩ :=
    hstep.told_append (by nofun) (hto.trans (List.append_nil _).symm)
  rw [List.append_nil] at htold
  have hmsg : saysInitialized msg.val = true :=
    hproper.handlers c (.markServerInitialized msg) (by simp [hops])
  have hnone : s.announced ≠ true := fun ha => by
    rw [flag_of_announced ha] at hflag
    cases hflag
  have hannouncing : s'.Announcing c := by
    refine ⟨⟨msg, .completeHandshake :: rest, ?_, hmsg, fun op hop => ?_⟩, fun c' hne => ?_⟩
    · rw [hhandlers, Function.update_self]
    · rcases List.mem_cons.1 hop with rfl | hop
      · rfl
      · exact silent_iff.1 (hs.silent hflag c) op (hops ▸ List.mem_cons_of_mem _ hop)
    · have hsilent := hs.silent hflag c'
      rw [silent_iff] at hsilent ⊢
      rwa [hhandlers, Function.update_of_ne hne]
  have hnot := hannouncing.not_announced hb'
  refine ⟨hs.written.same hwritten, ⟨fun hunset => ?_, fun _ _ _ => ?_, fun _ ha => ?_⟩,
    fun hunset => ?_, fun _ => .inr ⟨c, hannouncing⟩, fun c' hc' => ?_, fun c' op hop hpasses => ?_,
    fun n t hmem => ?_⟩
  · rw [hset] at hunset
    cases hunset
  · obtain ⟨hbegins, hlen⟩ := hs.tells.before hflag
    have hpos := List.length_pos_iff.2 hok
    rw [htold]
    exact ⟨hbegins, by omega⟩
  · rw [hnot] at ha
    cases ha
  · rw [hset] at hunset
    cases hunset
  · rcases (hstep.handshaking hsound).completed c' hc' with hold | ⟨rest', hl, heq⟩
    · exact absurd (hs.completed c' hold) hnone
    · cases hl
      rw [hops] at heq
      cases heq
  · rcases eq_or_ne c' c with rfl | hne
    · exact .inr hannouncing
    · rw [hhandlers, Function.update_of_ne hne] at hop
      rcases hs.passing c' op hop hpasses with ha | hc'
      · exact absurd ha hnone
      · have hsilent := hs.silent hflag c'
        rw [hc'.not_silent] at hsilent
        cases hsilent
  · rw [hheartbeat] at hmem
    exact absurd (hs.probing n t hmem) hnone

/-- **The notification leaves its handler**: it is put on the queue, or there
is nobody to be told. -/
theorem greets_notify (hops : s.handlers c = .trySend msg :: rest)
    (hmsg : saysInitialized msg.val = true) (hstep : Stepped cfg s (.handler c) s')
    (hb : s.Born) (hb' : s'.Born) (hs : s.Greets) {puts : List Value}
    (hto : s'.shared.toServer = s.shared.toServer ++ puts)
    (hputs : puts = [msg.val] ∨ s.serving = false)
    (hflag : s'.shared.st.serverInitialized = s.shared.st.serverInitialized)
    (hhandlers : s'.handlers = Function.update s.handlers c rest) : s'.Greets := by
  obtain ⟨htold, hserving, hwritten⟩ := hstep.told_append (by nofun) hto
  have hloud : s.silent c = false := by
    rw [System.silent, hops, List.all_cons, ClientOp.announces, hmsg]
    rfl
  have hset : s.shared.st.serverInitialized = true := by
    by_contra hunset
    have hsilent := hs.silent (by simpa using hunset) c
    rw [hloud] at hsilent
    cases hsilent
  have hnot : s.announced = false := by
    rw [Bool.eq_false_iff]
    intro ha
    have hsilent := ((announced_iff hb).1 ha).2 c
    rw [hloud] at hsilent
    cases hsilent
  obtain ⟨c₀, hc₀⟩ := (hs.announcing hset).resolve_left (by rw [hnot]; nofun)
  have hown : c = c₀ := by
    by_contra hne
    rw [hc₀.others c hne] at hloud
    cases hloud
  subst hown
  have hannounced : s'.announced = true := by
    refine (announced_iff hb').2 ⟨hflag ▸ hset, fun c' => ?_⟩
    rw [silent_iff, hhandlers]
    rcases eq_or_ne c' c with rfl | hne
    · obtain ⟨_, rest', heq, -, hrest⟩ := hc₀.head
      rw [hops] at heq
      cases heq
      rw [Function.update_self]
      exact hrest
    · rw [Function.update_of_ne hne]
      exact silent_iff.1 (hc₀.others c' hne)
  refine ⟨hs.written.same hwritten, ⟨fun hunset => ?_, fun _ _ hno => ?_, fun hserves _ => ?_⟩,
    fun hunset => ?_, fun _ => .inl hannounced, fun _ _ => hannounced,
    fun _ _ _ _ => .inl hannounced, fun _ _ _ => hannounced⟩
  · rw [hflag, hset] at hunset
    cases hunset
  · rw [hannounced] at hno
    cases hno
  · rw [hserving] at hserves
    rcases hputs with rfl | hidle
    · obtain ⟨hbegins, hone⟩ := hs.tells.asked hset hserves hnot
      rw [htold, List.length_append, hone]
      exact ⟨beginsHandshake_done hbegins hone hmsg, le_rfl⟩
    · rw [hserves] at hidle
      cases hidle
  · rw [hflag, hset] at hunset
    cases hunset

/-- What has passed a check runs only after the announcement. -/
theorem System.Greets.announced_of_passes (hs : s.Greets) (hops : s.handlers c = op :: rest)
    (hpasses : op.passes = true) : s.announced = true := by
  refine (hs.passing c op (by simp [hops]) hpasses).resolve_right fun hc => ?_
  obtain ⟨msg, rest', heq, -⟩ := hc.head
  rw [hops] at heq
  cases heq
  cases hpasses

/-- A client whose handshake counts as complete has completed it, or has none. -/
theorem announced_of_complete (hs : s.Greets) (hops : s.handlers c = .checkHandshake msg :: rest)
    (hok : s.keepsHandshake (.handler c) = true)
    (hcomplete : s.shared.st.isHandshakeComplete c = true) : s.announced = true := by
  rw [System.keepsHandshake, hops] at hok
  unfold MuxState.isHandshakeComplete at hcomplete
  cases hget : s.shared.st.clientHandshakes.get c with
  | none => simpa [hget] using hok
  | some h =>
    rw [hget] at hcomplete
    exact hs.completed c ⟨h, hget, hcomplete⟩

/-- **Any other operation of a handler**: what it puts on the queue fits. -/
theorem fits_of_feeds {sh : Shared} (hops : s.handlers c = op :: rest)
    (hfeeds : ClientOp.Feeds s.shared op sh) (hs : s.Greets) (hproper : op.Proper)
    (hok : s.keepsHandshake (.handler c) = true) (hquiet : op.announces = false)
    (hmark : ∀ msg, op = .markServerInitialized msg → s.shared.st.serverInitialized = true) :
    sh.st.serverInitialized = s.shared.st.serverInitialized ∧
      (sh.toServer = s.shared.toServer ∨
        ∃ m, sh.toServer = s.shared.toServer ++ [m] ∧ s.Fits m) := by
  rw [System.keepsHandshake, hops] at hok
  cases hfeeds with
  | nothing hunfed => exact ⟨hunfed.serverInitialized, .inl hunfed.toServer⟩
  | flag hunset =>
    rw [hmark _ rfl] at hunset
    cases hunset
  | @trySend msg hroom =>
    have hmsg : saysInitialized msg.val = false := hquiet
    simp only [hmsg, hroom, Bool.false_eq_true, if_false, Bool.not_true, Bool.false_or] at hok
    exact ⟨rfl, .inr ⟨msg.val, rfl, .inr ⟨hmsg, hok⟩⟩⟩
  | @send msg isInitialize _ hroom hunfed =>
    refine ⟨hunfed.serverInitialized, .inr ⟨msg.val, hunfed.toServer, ?_⟩⟩
    cases isInitialize with
    | true =>
      simp only [hroom, Bool.not_true, Bool.false_or, Bool.or_eq_true, List.isEmpty_iff] at hok
      exact hok.imp (fun hnil => ⟨hproper, hnil⟩) fun ha => ⟨saysInitialized_of_asks hproper, ha⟩
    | false => exact .inr ⟨hproper, hs.announced_of_passes hops rfl⟩

theorem greets_goesOn {sh : Shared} (hops : s.handlers c = op :: rest)
    (hrun : op.run cfg.encodedLen c s.shared = some (sh, ops)) (hsound : s.Sound) (hb : s.Born)
    (hproper : s.Proper) (hs : s.Greets) (hok : s.keepsHandshake (.handler c) = true)
    (hquiet : op.announces = false)
    (hmark : ∀ msg, op = .markServerInitialized msg → s.shared.st.serverInitialized = true)
    (hs' : s' = { s with shared := sh, handlers := Function.update s.handlers c (ops ++ rest) }) :
    s'.Greets := by
  have hstep : Stepped cfg s (.handler c) s' := hs' ▸ .handler hops hrun
  have hb' := hstep.born hsound hb
  have hmem : op ∈ s.handlers c := by simp [hops]
  obtain ⟨hflag, hto⟩ := fits_of_feeds hops (ClientOp.feeds_run hrun) hs
    (hproper.handlers c op hmem) hok hquiet hmark
  have hhushed : s.Hushed s' := by
    have hhandlers : s'.handlers = Function.update s.handlers c (ops ++ rest) := by rw [hs']
    refine .of_update hstep hsound hhandlers (by rw [hs']; exact hflag)
      (fun op' rest' heq => ?_) (fun hsilent op' hop' => ?_) (fun op' hop' hpasses => ?_)
      (fun c' rest' hl heq => ?_) (by rw [hs'])
    · rw [hops] at heq
      cases heq
      exact hquiet
    · rcases List.mem_append.1 hop' with hop' | hop'
      · exact ClientOp.announces_run hrun hmark op' hop'
      · exact silent_iff.1 hsilent op' (by simp [hops, hop'])
    · rcases List.mem_append.1 hop' with hop' | hop'
      · refine .inr ?_
        rcases ClientOp.passes_run hrun hop' hpasses with hpassed | ⟨msg, rfl, hcomplete⟩ |
          ⟨msg, rfl⟩
        · exact hs.announced_of_passes hops hpassed
        · exact announced_of_complete hs hops hok hcomplete
        · rw [System.keepsHandshake, hops] at hok
          simpa [hmark msg rfl] using hok
      · exact .inl (by simp [hops, hop'])
    · cases hl
      rw [hops] at heq
      cases heq
      exact hs.announced_of_passes hops rfl
  have ha := hhushed.announced_eq hb hb' hs
  have hflag' : s'.shared.st.serverInitialized = s.shared.st.serverInitialized := by
    rw [hs']
    exact hflag
  rcases hto with hto | ⟨m, hto, hfits⟩
  · obtain ⟨htold, hserving, hwritten⟩ := hstep.told_append (by nofun)
      (by rw [hs']; exact hto.trans (List.append_nil _).symm)
    rw [List.append_nil] at htold
    exact hhushed.greets hb hb' hs (hs.written.same hwritten)
      (hs.tells.same hflag' ha htold hserving)
  · obtain ⟨htold, hserving, hwritten⟩ := hstep.told_append (by nofun) (by rw [hs']; exact hto)
    exact hhushed.greets hb hb' hs (hs.written.same hwritten)
      (hs.tells.put hfits hflag' ha htold hserving)

end Handler

/-- A handler's step. -/
theorem greets_handler {op : ClientOp} {rest ops : List ClientOp} {sh : Shared}
    (hops : s.handlers c = op :: rest)
    (hrun : op.run cfg.encodedLen c s.shared = some (sh, ops)) (hsound : s.Sound) (hb : s.Born)
    (hproper : s.Proper) (hs : s.Greets) (hok : s.keepsHandshake (.handler c) = true) :
    ({ s with shared := sh, handlers := Function.update s.handlers c (ops ++ rest) } :
      System).Greets := by
  have hstep : Stepped cfg s (.handler c) _ := .handler hops hrun
  have hb' := hstep.born hsound hb
  cases op with
  | markServerInitialized msg =>
    cases hflag : s.shared.st.serverInitialized with
    | true => exact greets_goesOn hops hrun hsound hb hproper hs hok rfl (fun _ _ => hflag) rfl
    | false =>
      have htold : s.told ≠ [] := by
        rw [System.keepsHandshake, hops] at hok
        simpa [hflag] using hok
      simp only [ClientOp.run, hflag] at hrun
      cases hrun
      exact greets_announce hops hstep hsound hb' hproper hs hflag htold rfl rfl rfl rfl
  | trySend msg =>
    cases hmsg : saysInitialized msg.val with
    | false => exact greets_goesOn hops hrun hsound hb hproper hs hok hmsg (by simp) rfl
    | true =>
      rw [System.keepsHandshake, hops] at hok
      simp only [hmsg, if_true, Bool.or_eq_true, Bool.not_eq_true'] at hok
      simp only [ClientOp.run] at hrun
      split at hrun
      · cases hrun
        exact greets_notify hops hmsg hstep hb hb' hs rfl (.inl rfl) rfl rfl
      · rename_i hfull
        cases hrun
        exact greets_notify hops hmsg hstep hb hb' hs (List.append_nil _).symm
          (.inr (hok.resolve_left hfull)) rfl rfl
  | _ => exact greets_goesOn hops hrun hsound hb hproper hs hok rfl (by simp) rfl

/-- The inspector goes on to a probe only where the flag is set. -/
theorem HeartbeatOp.probes_run {hb hb' : HeartbeatState} {op : HeartbeatOp}
    {ops : List HeartbeatOp} {n t : ℕ} (h : op.run hb sh = some (hb', sh', ops))
    (hmem : .sendProbe n t ∈ ops) : op = .probe ∧ sh.st.serverInitialized = true := by
  cases op with
  | probe =>
    simp only [run] at h
    split at h
    · rename_i hguard
      simp only [Bool.and_eq_true] at hguard
      exact ⟨rfl, hguard.2⟩
    · cases h
      cases hmem
  | sendProbe m startedAt =>
    simp only [run] at h
    split at h
    · cases h; simp [conclude] at hmem
    · split at h <;> cases h
      simp at hmem
  | awaitResponse m startedAt deadline =>
    simp only [run] at h
    split at h
    · cases h; simp [conclude] at hmem
    · split at h <;> cases h
      simp [conclude] at hmem
  | checkRestart =>
    simp only [run] at h
    split at h <;> cases h <;> cases hmem
  | updateStateMetrics | publishStatus => cases h; cases hmem

theorem saysInitialized_pingMessage (n : ℕ) :
    saysInitialized (HeartbeatOp.pingMessage n) = false := by
  simp [saysInitialized, HeartbeatOp.pingMessage, method, Value.get, Value.member, Value.asStr]

/-- The inspector's step. -/
theorem greets_heartbeat (cfg : Config) {op : HeartbeatOp} {rest ops : List HeartbeatOp}
    {hb' : HeartbeatState} {sh : Shared} (hops : s.heartbeat = op :: rest)
    (hrun : op.run s.inspector s.shared = some (hb', sh, ops)) (hsound : s.Sound) (hb : s.Born)
    (hs : s.Greets) (hok : s.keepsHandshake .heartbeat = true) :
    ({ s with inspector := hb', shared := sh, heartbeat := ops ++ rest } : System).Greets := by
  have hstep : Stepped cfg s .heartbeat _ := .heartbeat hops hrun
  have hborn' := hstep.born hsound hb
  have hflag : sh.st.serverInitialized = s.shared.st.serverInitialized := by
    cases HeartbeatOp.feeds_run hrun with
    | nothing hunfed => exact hunfed.serverInitialized
    | probe => rfl
  have hhushed := System.Hushed.of_eq hstep hsound nofun rfl hflag fun n t hmem => by
    rcases List.mem_append.1 hmem with hmem | hmem
    · obtain ⟨rfl, hset⟩ := HeartbeatOp.probes_run hrun hmem
      rw [System.keepsHandshake, hops] at hok
      exact .inr (by simpa [hset] using hok)
    · exact .inl (by simp [hops, hmem])
  have ha := hhushed.announced_eq hb hborn' hs
  cases HeartbeatOp.feeds_run hrun with
  | nothing hunfed =>
    obtain ⟨htold, hserving, hwritten⟩ := hstep.told_append nofun
      (hunfed.toServer.trans (List.append_nil _).symm)
    rw [List.append_nil] at htold
    exact hhushed.greets hb hborn' hs (hs.written.same hwritten)
      (hs.tells.same hflag ha htold hserving)
  | @probe n t hroom =>
    obtain ⟨htold, hserving, hwritten⟩ := hstep.told_append nofun rfl
    have hfits : s.Fits (HeartbeatOp.pingMessage n) :=
      .inr ⟨saysInitialized_pingMessage n, hs.probing n t (by simp [hops])⟩
    exact hhushed.greets hb hborn' hs (hs.written.same hwritten)
      (hs.tells.put hfits hflag ha htold hserving)

/-- **Each step whose condition is met keeps the invariant.** -/
theorem Stepped.greets (h : Stepped cfg s l s') (hsound : s.Sound) (hb : s.Born)
    (hproper : s.Proper) (hshaped : s.Shaped) (ht : s.Tended) (hs : s.Greets)
    (hok : s.keepsHandshake l = true) (hstep : s.step cfg l = some s') : s'.Greets := by
  have hb' := h.born hsound hb
  have hkeeps : s.Hushed s' → (∀ choice, l ≠ .manager choice) →
      s'.shared.toServer = s.shared.toServer → s'.Greets := by
    intro hhushed hl hto
    obtain ⟨htold, hserving, hwritten⟩ := h.told_append hl (hto.trans (List.append_nil _).symm)
    rw [List.append_nil] at htold
    exact hhushed.greets hb hb' hs (hs.written.same hwritten)
      (hs.tells.same hhushed.flag (hhushed.announced_eq hb hb' hs) htold hserving)
  have hstill : s'.handlers = s.handlers → s'.heartbeat = s.heartbeat →
      (∀ c, l ≠ .handler c) → (∀ choice, l ≠ .manager choice) →
      s'.shared.st.serverInitialized = s.shared.st.serverInitialized →
      s'.shared.toServer = s.shared.toServer → s'.Greets := by
    intro hhandlers hheartbeat hl hl' hflag hto
    exact hkeeps (.of_eq h hsound hl hhandlers hflag fun _ _ hmem => .inl (hheartbeat ▸ hmem)) hl'
      hto
  have hidle : ∀ {c : ℕ} {ops : List ClientOp}, s.handlers c = [] →
      s'.handlers = Function.update s.handlers c ops →
      s'.shared.st.serverInitialized = s.shared.st.serverInitialized →
      (∀ op ∈ ops, op.announces = false ∧ op.passes = false) → (∀ c, l ≠ .handler c) →
      s'.heartbeat = s.heartbeat → s.Hushed s' := by
    intro c ops hnil hhandlers hflag hops hl hheartbeat
    refine .of_update h hsound hhandlers hflag (fun op rest heq => ?_)
      (fun _ op hop => (hops op hop).1) (fun op hop hpasses => ?_)
      (fun c _ he _ => absurd he (hl c)) hheartbeat
    · rw [hnil] at heq
      cases heq
    · rw [(hops op hop).2] at hpasses
      cases hpasses
  cases h with
  | handler hops hrun => exact greets_handler hops hrun hsound hb hproper hs hok
  | heartbeat hops hrun => exact greets_heartbeat cfg hops hrun hsound hb hs hok
  | @manager choice op rest ops loc sh hops hlock hrun =>
    have hfirst : ∀ msg rest e, s.manager = .writeFirst msg :: rest → choice ≠ .writeFailed e := by
      rintro msg rest' e heq rfl
      simp [System.keepsHandshake, heq] at hok
    have hserves := serves_of_step hshaped ht hfirst hstep
    have hmoves : Stepped cfg s (.manager choice) _ := .manager hops hlock hrun
    have hhushed := System.Hushed.of_eq hmoves hsound (by simp) rfl
      (ManagerOp.unput_run hrun).serverInitialized fun _ _ hmem => .inl hmem
    have htells := hs.tells.serves hserves hhushed.flag (hhushed.announced_eq hb hb' hs)
      fun hserving => (hserves.serving hserving).imp_right ?_
    · exact hhushed.greets hb hb' hs (hs.written.serves hserves htells) htells
    · rintro ⟨hne, firstMsg, pid, heq, rfl⟩
      simpa [System.keepsHandshake, heq, hne] using hok
  | connect =>
    have hnil : s.handlers s.shared.st.nextClientId = [] := by
      by_contra hne
      exact absurd (hb _ hne) (Nat.lt_irrefl _)
    exact hkeeps (hidle hnil rfl rfl (by simp [ClientOp.announces, ClientOp.passes]) (by simp) rfl)
      (by simp) rfl
  | @receive c msg hidle' =>
    exact hkeeps (hidle hidle'.2 rfl rfl
      (by simp [ClientOp.announces, ClientOp.passes]) (by simp) rfl) (by simp) rfl
  | disconnect hidle' | decodeError hidle' | handshakeTimeout hidle' =>
    exact hkeeps (hidle hidle'.2 rfl rfl
      (by simp [System.farewell, ClientOp.announces, ClientOp.passes]) (by simp) rfl) (by simp) rfl
  | heartbeatTick hnil hen =>
    have htick : Stepped cfg s .heartbeatTick _ := .heartbeatTick hnil hen
    refine hkeeps (.of_eq htick hsound (by simp) rfl rfl fun n t hmem => ?_) (by simp) rfl
    simp at hmem
  | @writer c op rest ops sh hops hrun =>
    rcases hsound.writers c op (by simp [hops]) with rfl | rfl <;>
    · cases hrun
      exact hstill rfl rfl (by simp) (by simp) rfl rfl
  | @routerTurn event rest hnil hevents =>
    have hunfed := unfed_dispatch event rest s.shared
    exact hstill rfl rfl (by simp) (by simp) hunfed.serverInitialized hunfed.toServer
  | router hops hrun =>
    have hunfed := RouterOp.unfed_run hrun
    exact hstill rfl rfl (by simp) (by simp) hunfed.serverInitialized hunfed.toServer
  | reaper hops hrun =>
    have hunfed := ReaperOp.unfed_run hrun
    exact hstill rfl rfl (by simp) (by simp) hunfed.serverInitialized hunfed.toServer
  | handshakeTick | writerFails | reaperTick | heartbeatEvent | childOutput | readerEnds
  | childExits | shutdown | elapse =>
    exact hstill rfl rfl (by simp) (by simp) rfl rfl

theorem greets_init (cfg : Config) : (System.init cfg).Greets := by
  have hsilent : ∀ c, (System.init cfg).silent c = true := fun _ => rfl
  have htold : (System.init cfg).told = [] := rfl
  refine ⟨fun k => rfl, ⟨fun _ => by rw [htold]; exact ⟨rfl, Nat.zero_le _⟩, nofun, ?_⟩,
    fun _ => hsilent, nofun, ?_, ?_, ?_⟩
  · intro _ ha
    cases flag_of_announced ha
  · rintro c ⟨h, hget, -⟩
    replace hget : HashMap.get (∅ : HashMap ℕ ClientHandshake) c = some h := hget
    rw [HashMap.get_empty] at hget
    cases hget
  · exact fun c op hop => absurd hop List.not_mem_nil
  · exact fun n t hmem => absurd hmem List.not_mem_nil

/-- **Every child is told a well-formed session**, in every run whose steps
all meet the condition. -/
theorem handshakes_begin_well (cfg : Config) (s : System)
    (h : Reachable cfg (fun s l => s.keepsHandshake l = true) s) : s.BeginsWell := by
  have hgreets : s.Greets := by
    induction h with
    | init => exact greets_init cfg
    | step hr hok hstep ih =>
      exact (stepped_of_step hstep).greets (Reachable.sound hr) (Reachable.born hr)
        (Reachable.proper hr) (Reachable.shaped hr) (Reachable.tended hr) ih hok hstep
  exact hgreets.written

/-- A client goes through its handshake, both halves of which reach the child. -/
def greetedRun : List Label :=
  startRun ++ [Label.connect, .handler 1,
    .receive 1 (.object [("id", .number (.posInt 0)), ("method", .string "initialize")])] ++
  List.replicate 5 (Label.handler 1) ++
  [Label.receive 1 (.object [("method", .string "notifications/initialized")])] ++
  List.replicate 7 (Label.handler 1) ++
  [Label.manager .received, .manager .go, .manager .written, .manager .go,
    .manager .received, .manager .go, .manager .written, .manager .go]

/-- It asks for the tools. -/
def toolsRun : List Label :=
  Label.receive 1 (.object [("id", .number (.posInt 1)), ("method", .string "tools/list")]) ::
  List.replicate 6 (Label.handler 1) ++ [Label.manager .received, .manager .go, .manager .written]

theorem handshakes_begin_well_greetedRun :
    ((Config.small.after (greetedRun ++ toolsRun)).writtenTo 0).map method =
      ["initialize", "notifications/initialized", "tools/list"] ∧
      (Config.small.after (greetedRun ++ toolsRun)).BeginsWell := by
  have hruns : Config.small.runs (greetedRun ++ toolsRun) = true := by decide +kernel
  exact ⟨by decide +kernel, handshakes_begin_well .small _
    (Config.small.reachable_of_meets System.keepsHandshake hruns (by decide +kernel))⟩

/-- The child exits, and another one is spawned. -/
def secondChildRun : List Label :=
  [Label.childExits 0, .manager .childExited] ++ List.replicate 6 (Label.manager .go) ++
  [Label.elapse 1000, .manager .go, .manager .go, .manager .go, .manager (.spawned 2)] ++
  List.replicate 4 (Label.manager .go)

/-- **The second child is asked for its tools before anything else.** -/
theorem not_beginsWell_secondChildRun : ¬ ∀ (cfg : Config) (s : System), Reachable cfg Run.Any s →
    s.BeginsWell := by
  intro hall
  have hruns : Config.small.runs (greetedRun ++ secondChildRun ++ toolsRun) = true := by
    decide +kernel
  have hbegins := hall .small _ (Config.small.reachable_after hruns) 1
  have hnot : beginsHandshake
      ((Config.small.after (greetedRun ++ secondChildRun ++ toolsRun)).writtenTo 1) = false := by
    decide +kernel
  rw [hnot] at hbegins
  cases hbegins

end Mux

end VcOperator
