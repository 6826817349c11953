import VcOperator.Session.Model
import VcOperator.Mux.Requests
import VcOperator.Mux.Helpers.Connections
/-!
# The half-closed session

The proxy shuts its write side down when stdin ends, and goes on reading.
For the mux the end of the stream is the end of the client: `handle_client`
leaves its reader loop, unregisters the client, with its entries in
`pending`, and aborts the writer task. So what the child answers after
that reaches nobody, and neither does what the writer task had still to
write. `half_close_delivers` says that the answers written by then do
arrive: each request gets one, under its own id.
-/

namespace VcOperator

namespace Session

open Mux

variable {cfg : Config} {s s' : State} {l : Label}

namespace State

/-- What the writer task has written to the socket. -/
def written (s : State) : List Delivery := s.channel.take s.taken

/-- **Every request read has been answered**, and the answer written. -/
def Settled (s : State) : Prop :=
  ∀ msg ∈ s.mux.shared.received, s.client = some msg.occ.client → IsRequest msg.val →
    msg.occ ∈ s.written.filterMap (·.answers)

instance (s : State) : Decidable s.Settled :=
  inferInstanceAs (Decidable (∀ msg ∈ _, _ → _ → _))

/-- The step ends the reader loop of the connection. -/
def endsReader (s : State) : Label → Bool
  | .readEof | .cancelled => true
  | .mux (.handshakeTick c) =>
    s.client == some c && s.mux.shared.st.isHandshakeTimedOut s.mux.shared.now c
  | _ => false

/-- **The condition on a step**: the reader loop is left only when every
request read has its answer on the socket. -/
def endsAnswered (s : State) (l : Label) : Bool := !s.endsReader l || decide s.Settled

/-- **What the host is owed**: one response to each request the mux has
read, under the id of the request. -/
def Delivers (s : State) : Prop :=
  ∀ msg ∈ s.mux.shared.received, s.client = some msg.occ.client → IsRequest msg.val →
    ∃ d, s.stdout.filter (fun d => d.answers = some msg.occ) = [d] ∧
      d.msg.get "id" = msg.val.get "id"

end State

/-! ## The steps -/

/-- **The steps of a session, by what they do to the answers.** -/
inductive Stepped (cfg : Config) (s : State) : Label → State → Prop
  | aside {l : Label} {s' : State} (hmux : s'.mux = s.mux) (hclient : s'.client = s.client)
      (hwriter : s'.writer = s.writer) (htaken : s'.taken = s.taken)
      (htoProxy : s'.toProxy = s.toProxy) (hstdout : s'.stdout = s.stdout)
      (hended : s'.ended = s.ended) : Stepped cfg s l s'
  | accepts (hclient : s.client = none) (hstep : s.mux.step cfg .connect = some s.mux.connect) :
      Stepped cfg s .accept
        { s.withMux s.mux.connect with client := some s.mux.shared.st.nextClientId }
  | muxSteps {l : Label} {label : Mux.Label} {m : System} {toMux outputs : List Value}
      (hstep : s.mux.step cfg label = some m)
      (hwriter : ∀ c, s.client = some c → label ≠ .writerFails c)
      (hends : ∀ c, s.client = some c → s.mux.EndsReader c label → s.endsReader l = true) :
      Stepped cfg s l { s.withMux m with toMux := toMux, outputs := outputs }
  | leaves {c : ℕ} {m : System} (hclient : s.client = some c) (hwriter : s.writer = .running)
      (hgone : c ∉ s.mux.shared.st.clients) (hstep : s.mux.step cfg (.writerFails c) = some m) :
      Stepped cfg s .channelClosed { s.withMux m with writer := .leaving }
  | stops {l : Label} (hstops : s.writer = .leaving ∨
        ∃ c, s.client = some c ∧ s.mux.readers c = false) :
      Stepped cfg s l { s with writer := .over }
  | writes {d : Delivery} (hnext : s.channel[s.taken]? = some d) (hwriter : s.writer = .running) :
      Stepped cfg s .write { s with taken := s.taken + 1, toProxy := s.toProxy ++ [d] }
  | copies {d : Delivery} {rest : List Delivery} (hnext : s.toProxy = d :: rest) :
      Stepped cfg s .copyOut { s with toProxy := rest, stdout := s.stdout ++ [d] }
  | finishes (hwriter : s.writer = .over) (hempty : s.toProxy = []) :
      Stepped cfg s .finish { s with ended := true }

/-- **Inversion.** -/
theorem stepped_of_step (h : s.step cfg l = some s') : Stepped cfg s l s' := by
  cases l with
  | hostWrites msg =>
    simp only [State.step] at h
    split at h <;> cases h
    exact .aside rfl rfl rfl rfl rfl rfl rfl
  | hostCloses => cases h; exact .aside rfl rfl rfl rfl rfl rfl rfl
  | copyIn =>
    simp only [State.step] at h
    split at h
    · cases h
    · split at h <;> cases h
      exact .aside rfl rfl rfl rfl rfl rfl rfl
  | shutdown =>
    simp only [State.step] at h
    split at h <;> cases h
    exact .aside rfl rfl rfl rfl rfl rfl rfl
  | accept =>
    simp only [State.step] at h
    split at h
    · cases h
    · rename_i hclient
      obtain ⟨m, hm, rfl⟩ := Option.map_eq_some_iff.1 h
      cases Mux.stepped_of_step hm
      exact .accepts hclient hm
  | read =>
    simp only [State.step] at h
    split at h
    · rename_i c msg rest hclient htoMux
      obtain ⟨m, hm, rfl⟩ := Option.map_eq_some_iff.1 h
      refine .muxSteps hm (fun _ _ heq => by cases heq) fun c' _ hends => ?_
      rcases hends with hends | hends | ⟨hends, -⟩ <;> cases hends
    · cases h
  | readEof | cancelled =>
    simp only [State.step] at h
    split at h
    · split at h
      · obtain ⟨m, hm, rfl⟩ := Option.map_eq_some_iff.1 h
        exact .muxSteps hm (fun _ _ heq => by cases heq) fun _ _ _ => rfl
      · cases h
    · cases h
  | mux label =>
    simp only [State.step] at h
    split at h
    · cases h
    · rename_i hfree
      obtain ⟨m, hm, rfl⟩ := Option.map_eq_some_iff.1 h
      refine .muxSteps hm (fun c hclient => ?_) fun c hclient hends => ?_
      · rintro rfl
        simp [State.decides, hclient] at hfree
      · rcases hends with rfl | rfl | ⟨rfl, hlate⟩
        · simp [State.decides, hclient] at hfree
        · simp [State.decides, hclient] at hfree
        · simp [State.endsReader, hclient, hlate]
  | write =>
    simp only [State.step] at h
    split at h
    · rename_i hnext
      split at h <;> cases h
      rename_i hwriter
      exact .writes hnext hwriter
    · cases h
  | channelClosed =>
    simp only [State.step] at h
    split at h
    · rename_i c hclient
      split at h
      · rename_i hclosed
        obtain ⟨hwriter, hopen, -⟩ := hclosed
        obtain ⟨m, hm, rfl⟩ := Option.map_eq_some_iff.1 h
        refine .leaves hclient hwriter ?_ hm
        simp only [State.channelOpen, Bool.or_eq_false_iff, decide_eq_false_iff_not] at hopen
        exact hopen.1
      · cases h
    · cases h
  | writerReturns =>
    simp only [State.step] at h
    split at h
    · split at h <;> cases h
      rename_i hleaving
      exact .stops (.inl hleaving.1)
    · cases h
  | abort =>
    simp only [State.step] at h
    split at h <;> cases h
    rename_i habort
    rw [Bool.and_eq_true] at habort
    have hat := habort.1
    unfold State.atAbort at hat
    split at hat
    · rename_i c hclient
      simp only [Bool.and_eq_true, Bool.not_eq_true'] at hat
      exact .stops (.inr ⟨c, hclient, hat.1⟩)
    · cases hat
  | copyOut =>
    simp only [State.step] at h
    split at h <;> cases h
    rename_i hnext
    exact .copies hnext
  | finish =>
    simp only [State.step] at h
    split at h <;> cases h
    rename_i hdone
    simp only [Bool.and_eq_true, beq_iff_eq, List.isEmpty_iff] at hdone
    exact .finishes hdone.1.2 hdone.2

/-! ## What is written stays written -/

theorem channel_prefix {t : State} (hclient : t.client = s.client)
    (hsent : s.mux.shared.sent <+: t.mux.shared.sent) : s.channel <+: t.channel := by
  unfold State.channel
  rw [hclient]
  cases s.client with
  | none => exact List.prefix_rfl
  | some c => exact hsent.filter _

/-- What comes onto the channel comes after what was taken from it. -/
theorem written_of_prefix {t : State} (hchannel : s.channel <+: t.channel)
    (htaken : t.taken = s.taken) (hle : s.taken ≤ s.channel.length) : t.written = s.written := by
  obtain ⟨more, hmore⟩ := hchannel
  rw [State.written, State.written, ← hmore, htaken, List.take_append_of_le_length hle]

/-- A settled session stays settled, as long as nothing new is read. -/
theorem State.Settled.mono {t : State} (h : s.Settled) (hclient : t.client = s.client)
    (hwritten : s.written ⊆ t.written)
    (hreceived : ∀ msg ∈ t.mux.shared.received, s.client = some msg.occ.client →
      msg ∈ s.mux.shared.received) : t.Settled := by
  intro msg hm hc hreq
  rw [hclient] at hc
  obtain ⟨d, hd, hans⟩ := List.mem_filterMap.1 (h msg (hreceived msg hm hc) hc hreq)
  exact List.mem_filterMap.2 ⟨d, hwritten hd, hans⟩

/-! ## The invariant -/

/-- **What holds along a session** whose reader loop is left with
everything answered. -/
structure State.Orderly (cfg : Config) (s : State) : Prop where
  reachable : Reachable cfg Run.Any s.mux
  issued : ∀ c, s.client = some c → c < s.mux.shared.st.nextClientId
  taken_le : s.taken ≤ s.channel.length
  /-- The socket and stdout hold what was written, in that order. -/
  copied : s.stdout ++ s.toProxy = s.written
  connected : s.writer = .running → ∀ c, s.client = some c → s.mux.Connected c
  /-- The writer task outlives the reader loop. -/
  readerOver : s.writer ≠ .running → ∃ c, s.client = some c ∧ s.mux.readers c = false
  settled : ∀ c, s.client = some c → s.mux.readers c = false → s.Settled
  drained : s.ended = true → s.writer = .over ∧ s.toProxy = []

theorem orderly_init (cfg : Config) : (State.init cfg).Orderly cfg where
  reachable := .init
  issued := nofun
  taken_le := Nat.le_refl _
  copied := rfl
  connected := fun _ => nofun
  readerOver := fun h => absurd rfl h
  settled := nofun
  drained := nofun

/-- The parts of the invariant that a state shares with another of the same
mux, connection and writing. -/
theorem State.Orderly.aside (h : s.Orderly cfg) (hmux : s'.mux = s.mux)
    (hclient : s'.client = s.client) (hwriter : s'.writer = s.writer)
    (htaken : s'.taken = s.taken) (htoProxy : s'.toProxy = s.toProxy)
    (hstdout : s'.stdout = s.stdout) (hended : s'.ended = s.ended) : s'.Orderly cfg := by
  have hchannel : s'.channel = s.channel := by
    unfold State.channel
    rw [hclient, hmux]
  have hwritten : s'.written = s.written := by rw [State.written, hchannel, htaken]; rfl
  refine ⟨hmux ▸ h.reachable, fun c hc => ?_, ?_, ?_, fun hrun c hc => ?_, fun hrun => ?_,
    fun c hc hover => ?_, fun he => ?_⟩
  · rw [hmux]
    exact h.issued c (hclient ▸ hc)
  · rw [hchannel, htaken]
    exact h.taken_le
  · rw [hstdout, htoProxy, hwritten]
    exact h.copied
  · rw [hmux]
    exact h.connected (hwriter ▸ hrun) c (hclient ▸ hc)
  · rw [hmux, hclient]
    exact h.readerOver (hwriter ▸ hrun)
  · refine (h.settled c (hclient ▸ hc) (hmux ▸ hover)).mono hclient ?_ fun msg hm _ => ?_
    · rw [hwritten]
      exact List.Subset.refl _
    · rwa [hmux] at hm
  · rw [hwriter, htoProxy]
    exact h.drained (hended ▸ he)

/-- A step of the mux keeps what was written, and keeps a settled session
settled. What it means for the writer task is left to the caller. -/
theorem State.Orderly.muxSteps {label : Mux.Label} {m : System} (h : s.Orderly cfg)
    (hstep : s.mux.step cfg label = some m)
    (hends : ∀ c, s.client = some c → s.mux.EndsReader c label → s.Settled)
    (hmux : s'.mux = m) (hclient : s'.client = s.client) (htaken : s'.taken = s.taken)
    (htoProxy : s'.toProxy = s.toProxy) (hstdout : s'.stdout = s.stdout)
    (hconnected : s'.writer = .running → ∀ c, s.client = some c → m.Connected c)
    (hover : s'.writer ≠ .running → ∃ c, s.client = some c ∧ m.readers c = false)
    (hdrained : s'.ended = true → s'.writer = .over ∧ s'.toProxy = []) : s'.Orderly cfg := by
  have hs := Reachable.sound h.reachable
  have hstepped := Mux.stepped_of_step hstep
  have hrouted := routed_of_step hstep
  have hchannel : s.channel <+: s'.channel :=
    channel_prefix hclient (hmux ▸ hrouted.sent_prefix hs)
  have hwritten : s'.written = s.written := written_of_prefix hchannel htaken h.taken_le
  refine ⟨hmux ▸ .step h.reachable trivial hstep, fun c hc => ?_, ?_, ?_, fun hrun c hc => ?_,
    fun hrun => ?_, fun c hc hread => ?_, hdrained⟩
  · rw [hmux]
    exact Nat.lt_of_lt_of_le (h.issued c (hclient ▸ hc)) (hrouted.nextClientId_le hs)
  · rw [htaken]
    exact h.taken_le.trans hchannel.length_le
  · rw [htoProxy, hstdout, hwritten]
    exact h.copied
  · rw [hmux]
    exact hconnected hrun c (hclient ▸ hc)
  · rw [hmux, hclient]
    exact hover hrun
  · rw [hclient] at hc
    rw [hmux] at hread
    have hsub : s.written ⊆ s'.written := by rw [hwritten]; exact List.Subset.refl _
    by_cases hbefore : s.mux.readers c = false
    · -- the loop was left before, so that nothing more is read
      refine (h.settled c hc hbefore).mono hclient hsub fun msg hm howner => ?_
      rw [hc, Option.some.injEq] at howner
      exact hrouted.received_of_ended hs hbefore (hmux ▸ hm) howner.symm
    · -- it is left in this step, and the condition is what we need
      rw [Bool.not_eq_false] at hbefore
      obtain ⟨hlabel, hshared⟩ := hstepped.reader_ends hbefore hread
      refine (hends c hc hlabel).mono hclient hsub fun msg hm _ => ?_
      rwa [hmux, hshared] at hm

/-- **Each step whose condition is met keeps the session orderly.** -/
theorem Stepped.orderly (h : Stepped cfg s l s') (hs : s.Orderly cfg)
    (hok : s.endsAnswered l = true) : s'.Orderly cfg := by
  have hsettled : s.endsReader l = true → s.Settled := by
    intro hends
    rw [State.endsAnswered, hends] at hok
    simpa using hok
  cases h with
  | aside hmux hclient hwriter htaken htoProxy hstdout hended =>
    exact hs.aside hmux hclient hwriter htaken htoProxy hstdout hended
  | accepts hclient hstep =>
    have hnone : s.channel = [] := by rw [State.channel, hclient]
    have htaken : s.taken = 0 := by
      have hle := hs.taken_le
      rw [hnone] at hle
      exact Nat.le_zero.1 hle
    refine ⟨.step hs.reachable trivial hstep, fun c hc => ?_, ?_, ?_, fun _ c hc => ?_,
      fun hwriter => ?_, fun c hc hread => ?_, hs.drained⟩
    · cases hc
      exact Nat.lt_succ_self _
    · exact htaken ▸ Nat.zero_le _
    · have hempty := hs.copied
      rw [State.written, hnone, List.take_nil] at hempty
      rw [State.written]
      change s.stdout ++ s.toProxy = List.take s.taken _
      rw [hempty, htaken, List.take_zero]
    · cases hc
      exact connected_connect hs.reachable
    · obtain ⟨c, hc, -⟩ := hs.readerOver hwriter
      rw [hclient] at hc
      cases hc
    · cases hc
      rw [State.withMux, System.connect_readers, Function.update_self] at hread
      cases hread
  | @muxSteps l label m toMux outputs hstep hwriter hends =>
    have hstepped := Mux.stepped_of_step hstep
    refine hs.muxSteps hstep (fun c hc he => hsettled (hends c hc he)) rfl rfl rfl rfl rfl
      (fun hrun c hc => ?_) (fun hrun => ?_) hs.drained
    · exact hstepped.connected (hwriter c hc) (hs.issued c hc) (hs.connected hrun c hc)
    · obtain ⟨c, hc, hread⟩ := hs.readerOver hrun
      exact ⟨c, hc, hstepped.reader_ended (hs.issued c hc) hread⟩
  | @leaves c m hclient hwriter hgone hstep =>
    have hread : s.mux.readers c = false := by
      by_contra hreads
      rw [Bool.not_eq_false] at hreads
      exact hgone ((hs.connected hwriter c hclient).registered hreads)
    refine hs.muxSteps hstep (fun c' _ hends => ?_) rfl rfl rfl rfl rfl nofun
      (fun _ => ⟨c, hclient, ?_⟩) fun he => ?_
    · rcases hends with hends | hends | ⟨hends, -⟩ <;> cases hends
    · exact (Mux.stepped_of_step hstep).reader_ended (hs.issued c hclient) hread
    · rw [(hs.drained he).1] at hwriter
      cases hwriter
  | stops hstops =>
    have hread : ∃ c, s.client = some c ∧ s.mux.readers c = false := by
      rcases hstops with hleaving | hread
      · exact hs.readerOver (by rw [hleaving]; nofun)
      · exact hread
    exact ⟨hs.reachable, hs.issued, hs.taken_le, hs.copied, nofun, fun _ => hread, hs.settled,
      fun he => ⟨rfl, (hs.drained he).2⟩⟩
  | @writes d hnext hwriter =>
    obtain ⟨hlt, hd⟩ := List.getElem?_eq_some_iff.1 hnext
    have hwritten : s.channel.take (s.taken + 1) = s.written ++ [d] := by
      rw [List.take_add_one, hnext]
      rfl
    refine ⟨hs.reachable, hs.issued, hlt, ?_, hs.connected, hs.readerOver, fun c hc hread => ?_,
      fun he => ?_⟩
    · change s.stdout ++ (s.toProxy ++ [d]) = s.channel.take (s.taken + 1)
      rw [hwritten, ← List.append_assoc, hs.copied]
    · refine (hs.settled c hc hread).mono rfl ?_ fun msg hm _ => hm
      change s.written ⊆ s.channel.take (s.taken + 1)
      rw [hwritten]
      exact List.subset_append_left _ _
    · rw [(hs.drained he).1] at hwriter
      cases hwriter
  | @copies d rest hnext =>
    refine ⟨hs.reachable, hs.issued, hs.taken_le, ?_, hs.connected, hs.readerOver, hs.settled,
      fun he => ?_⟩
    · change s.stdout ++ [d] ++ rest = s.written
      rw [← hs.copied, hnext, List.append_assoc, List.singleton_append]
    · rw [(hs.drained he).2] at hnext
      cases hnext
  | finishes hwriter hempty =>
    exact ⟨hs.reachable, hs.issued, hs.taken_le, hs.copied, hs.connected, hs.readerOver,
      hs.settled, fun _ => ⟨hwriter, hempty⟩⟩

theorem orderly_of_reach
    (h : Run.Reach (State.step cfg) (fun s l => s.endsAnswered l = true) (State.init cfg) s) :
    s.Orderly cfg :=
  h.invariant (I := State.Orderly cfg) (orderly_init cfg)
    fun _ _ _ hok hs hstep => (stepped_of_step hstep).orderly hs hok

/-! ## The answers -/

/-- What is written to the socket was sent to the client. -/
theorem written_sublist (s : State) : s.written.Sublist s.mux.shared.sent := by
  refine (List.take_sublist _ _).trans ?_
  unfold State.channel
  cases s.client with
  | none => exact List.nil_sublist _
  | some c => exact List.filter_sublist

/-- Of what is written to the socket, at most one message answers a request. -/
theorem State.Orderly.answers_le_one (h : s.Orderly cfg) (o : Occ) :
    (s.written.filter fun d => d.answers = some o).length ≤ 1 := by
  have hone := (Reachable.accounted h.reachable).answered_le_one o
  rw [Shared.answered, List.count_filterMap, List.countP_eq_length_filter] at hone
  have hle := ((written_sublist s).filter fun d => decide (d.answers = some o)).length_le
  have hsame : (s.mux.shared.sent.filter fun d => d.answers = some o) =
      s.mux.shared.sent.filter fun d => d.answers == some o :=
    List.filter_congr fun d _ => by rw [beq_eq_decide]
  rw [hsame] at hle
  exact hle.trans hone

/-- **The half-close delivers what was answered before it**: in every session
whose reader loop is left with everything answered, the proxy has written
one response to each request the mux has read by the time it returns. -/
theorem half_close_delivers
    (h : Run.Reach (State.step cfg) (fun s l => s.endsAnswered l = true) (State.init cfg) s)
    (hended : s.ended = true) : s.Delivers := by
  have hs := orderly_of_reach h
  intro msg hm hc hreq
  obtain ⟨hover, hempty⟩ := hs.drained hended
  obtain ⟨c, hclient, hread⟩ := hs.readerOver (by rw [hover]; nofun)
  have hstdout : s.stdout = s.written := by rw [← hs.copied, hempty, List.append_nil]
  -- there is an answer, and there are not two
  obtain ⟨d, hd, hans⟩ := List.mem_filterMap.1 (hs.settled c hclient hread msg hm hc hreq)
  have hmem : d ∈ s.written.filter fun d => d.answers = some msg.occ :=
    List.mem_filter.2 ⟨hd, by simpa using hans⟩
  have hone : (s.written.filter fun d => d.answers = some msg.occ) = [d] := by
    obtain ⟨e, he⟩ := List.length_eq_one_iff.1
      (Nat.le_antisymm (hs.answers_le_one msg.occ) (List.length_pos_of_mem hmem))
    rw [he, List.mem_singleton] at hmem
    rw [he, hmem]
  have hcarries := (Reachable.sound hs.reachable).carriesId hm hreq.1
  exact ⟨d, hstdout ▸ hone, (hcarries.replied d ((written_sublist s).subset hd) hans).2⟩

/-- The child is started, and the connection is accepted. The host says it is
initialized and asks for the tools; both reach the child. -/
def askedRun : List Label :=
  startRun.map Label.mux ++ [Label.accept, .mux (.handler 1),
    .hostWrites (.object [("method", .string "notifications/initialized")]),
    .hostWrites (.object [("id", .number (.posInt 7)), ("method", .string "tools/list")]),
    .copyIn, .copyIn, .read] ++ List.replicate 7 (Label.mux (.handler 1)) ++
  [Label.read] ++ List.replicate 6 (Label.mux (.handler 1)) ++
  [Label.mux (.manager .received), .mux (.manager .go), .mux (.manager .written),
    .mux (.manager .go), .mux (.manager .received), .mux (.manager .go), .mux (.manager .written)]

/-- The child answers. -/
def answerRun : List Label :=
  [.mux (.childOutput 0 (.object [("id", .string "c1:1"), ("result", .object [])])),
    .mux .routerTurn]

/-- Stdin ends, and the mux takes leave of the client. -/
def closeRun : List Label :=
  [.hostCloses, .shutdown, .readEof, .mux (.handler 1), .mux (.handler 1), .abort,
    .mux (.handler 1)]

/-- The answer is on the socket when stdin ends. -/
def answeredRun : List Label :=
  askedRun ++ answerRun ++ List.replicate 4 (Label.mux (.router [])) ++ [Label.write] ++ closeRun ++
    [Label.copyOut, .finish]

theorem half_close_delivers_answeredRun : ∃ s : State,
    Run.exec (State.step .small) (State.init .small) answeredRun = some s ∧
      s.stdout.length = 1 ∧ s.Delivers := by
  have hlast : (Run.exec (State.step .small) (State.init .small) answeredRun).any fun s =>
      s.ended && s.stdout.length == 1 := by decide +kernel
  rw [Option.any_eq_true] at hlast
  obtain ⟨s, hexec, hs⟩ := hlast
  rw [Bool.and_eq_true, beq_iff_eq] at hs
  have hmeets : Run.meets (State.step .small) State.endsAnswered (State.init .small)
      answeredRun = true := by decide +kernel
  have hreach := Run.reach_of_meets hmeets .init hexec
  exact ⟨s, hexec, hs.2, half_close_delivers hreach hs.1⟩

/-- The host has a right to its answers: the daemon was not shut down, the
cached handshake not reset, no request can have timed out, and the child
has answered each request the mux has read. -/
def State.Provided (cfg : Config) (s : State) : Prop :=
  s.mux.shared.shutdown = false ∧ .reset ∉ s.mux.shared.initEvents ∧
    s.mux.shared.now ≤ cfg.state.requestTimeout ∧
    ∀ msg ∈ s.mux.shared.received, s.client = some msg.occ.client → IsRequest msg.val →
      ∃ issue ∈ s.mux.shared.issued, issue.occ = msg.occ ∧
        ∃ answer ∈ s.outputs,
          answer.get "id" = some (.string (globalId issue.clientId issue.n))

instance (cfg : Config) (s : State) : Decidable (s.Provided cfg) :=
  inferInstanceAs (Decidable (_ ∧ _ ∧ _ ∧ ∀ msg ∈ _, _ → _ → ∃ issue ∈ _, _ ∧ ∃ answer ∈ _, _))

/-- Stdin ends as soon as the request is with the child. -/
def halfClosedRun : List Label :=
  askedRun ++ closeRun ++ answerRun ++ [Label.mux (.router []), .finish]

/-- **The child answers, and the host gets nothing.** -/
theorem not_delivers_halfClosedRun : ¬ ∀ (cfg : Config) (s : State),
    Run.Reach (State.step cfg) Run.Any (State.init cfg) s → s.Provided cfg → s.ended = true →
      s.Delivers := by
  intro hall
  have hlast : (Run.exec (State.step .small) (State.init .small) halfClosedRun).any fun s =>
      decide (s.Provided .small) && s.ended && s.stdout.isEmpty &&
        decide (∃ msg ∈ s.mux.shared.received,
          s.client = some msg.occ.client ∧ IsRequest msg.val) := by decide +kernel
  rw [Option.any_eq_true] at hlast
  obtain ⟨s, hexec, hs⟩ := hlast
  simp only [Bool.and_eq_true, decide_eq_true_eq, List.isEmpty_iff] at hs
  obtain ⟨⟨⟨hprovided, hended⟩, hnil⟩, msg, hm, hclient, hreq⟩ := hs
  obtain ⟨d, hd, -⟩ := hall .small s (Run.reach_of_exec hexec .init) hprovided hended msg hm
    hclient hreq
  rw [hnil] at hd
  cases hd

end Session

end VcOperator
