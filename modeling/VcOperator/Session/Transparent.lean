import VcOperator.Session.HalfClose
/-!
# What the host sees of the mux

The whole way of a session's messages, in both directions, and whatever
the mux does in between. `Transparent.inbound` is the way in: what the host
has written is what the mux has read from it, what is in the socket and
what is still in stdin, in this order. `Transparent.copied` is the way out:
what was copied to stdout is where the client's channel begins. Between the two stands
what the mux guarantees of every reply, so that
`session_transparent` can be read off stdin and stdout alone.

The history is what the host has written.
-/

namespace VcOperator

namespace Mux

variable {cfg : Config} {s s' : System} {l : Label}

/-- The frame that is received with a label. -/
def Label.frames (rec : List (Tagged Value)) : Label → List (Tagged Value)
  | .receive c msg => [⟨msg, ⟨c, rec.length⟩⟩]
  | _ => []

/-- **Frames are received with their own label**, and no other step
receives one. -/
theorem Stepped.received_eq (h : Stepped cfg s l s') (hs : s.Sound) :
    s'.shared.received = s.shared.received ++ l.frames s.shared.received := by
  have hsame : ∀ {rec : List (Tagged Value)}, rec = s.shared.received →
      rec = s.shared.received ++ [] := fun hrec => hrec.trans (List.append_nil _).symm
  cases h with
  | receive hidle => rfl
  | @handler c op rest ops sh hops hrun =>
    exact hsame (ClientOp.keeps_run hrun hs.shared (hs.handlers c op (by simp [hops]))).received
  | @writer c op rest ops sh hops hrun =>
    rcases hs.writers c op (by simp [hops]) with rfl | rfl <;> cases hrun <;> exact hsame rfl
  | @routerTurn event rest hidle hevents =>
    exact hsame (still_dispatch event rest s.shared).received
  | router hops hrun =>
    exact hsame (RouterOp.keeps_run hrun hs.shared (hs.router _ (by simp [hops]))).received
  | reaper hops hrun =>
    exact hsame (ReaperOp.keeps_run hrun hs.shared (hs.reaper _ (by simp [hops]))).received
  | heartbeat hops hrun => exact hsame (HeartbeatOp.still_run hrun).received
  | manager hops hlock hrun => exact hsame (ManagerOp.still_run hrun).received
  | connect | disconnect | decodeError | handshakeTimeout | handshakeTick | writerFails | reaperTick
  | heartbeatTick | heartbeatEvent | childOutput | readerEnds | childExits | shutdown | elapse =>
    exact hsame rfl

end Mux

namespace Session

open Mux

variable {cfg : Config} {s s' : State} {l : Label}

/-! ## The way in -/

namespace State

/-- What the mux has read from the connection. -/
def readByMux (s : State) : List Value :=
  match s.client with
  | some c => (s.mux.shared.received.filter (·.occ.client = c)).map (·.val)
  | none => []

/-- What is on its way from the host, the oldest first. -/
def inbound (s : State) : List Value := s.readByMux ++ s.toMux ++ s.stdin

end State

/-- What the host has written after a step. -/
def noteWrite (wrote : List Value) (_ : State) : Label → List Value
  | .hostWrites msg => wrote ++ [msg]
  | _ => wrote

/-- A step of the mux that receives nothing from the connection. -/
theorem readByMux_of_step {label : Mux.Label} {t : State} (hs : s.mux.Sound)
    (hstep : s.mux.step cfg label = some t.mux) (hclient : t.client = s.client)
    (hother : ∀ c msg, label = .receive c msg → s.client ≠ some c) :
    t.readByMux = s.readByMux := by
  have hreceived := (Mux.stepped_of_step hstep).received_eq hs
  unfold State.readByMux
  rw [hclient]
  cases hc : s.client with
  | none => rfl
  | some c =>
    have hnone : (label.frames s.mux.shared.received).filter (·.occ.client = c) = [] := by
      unfold Mux.Label.frames
      cases label with
      | receive c' msg =>
        have hne : c' ≠ c := by
          rintro rfl
          exact hother c' msg rfl hc
        simp [hne]
      | _ => rfl
    dsimp only
    rw [hreceived, List.filter_append, hnone, List.append_nil]

theorem State.inbound_of {read toMux stdin : List Value} (hread : s.readByMux = read)
    (htoMux : s.toMux = toMux) (hstdin : s.stdin = stdin) :
    s.inbound = read ++ toMux ++ stdin := by
  rw [State.inbound, hread, htoMux, hstdin]

/-- **What is on its way from the host grows by what the host writes**, at
the one end, and by nothing else. -/
theorem inbound_of_step (hs : s.mux.Sound) (h : s.step cfg l = some s') :
    s'.inbound = noteWrite s.inbound s l := by
  cases l with
  | hostWrites msg =>
    simp only [State.step] at h
    split at h <;> cases h
    exact (List.append_assoc ..).symm
  | copyIn =>
    simp only [State.step] at h
    split at h
    · cases h
    · rename_i msg rest hstdin
      split at h <;> cases h
      refine (State.inbound_of rfl rfl rfl).trans ?_
      rw [noteWrite, State.inbound, hstdin]
      simp only [List.append_assoc, List.singleton_append]
      rfl
      · intro msg heq
        cases heq
  | accept =>
    simp only [State.step] at h
    split at h
    · cases h
    · rename_i hclient
      obtain ⟨m, hm, rfl⟩ := Option.map_eq_some_iff.1 h
      -- nothing was ever read under an id that is not issued yet
      have hnew : (m.shared.received.filter
          (·.occ.client = s.mux.shared.st.nextClientId)) = [] := by
        rw [(Mux.stepped_of_step hm).received_eq hs]
        refine List.filter_eq_nil_iff.2 fun msg hmsg heq => ?_
        have hlt := hs.shared.known msg (by simpa [Mux.Label.frames] using hmsg)
        rw [decide_eq_true_eq] at heq
        omega
      have hnone : s.readByMux = [] := by rw [State.readByMux, hclient]
      refine (State.inbound_of (Eq.trans ?_ hnone.symm) rfl rfl).trans rfl
      simp only [State.readByMux, State.withMux, hnew, List.map_nil]
  | read =>
    simp only [State.step] at h
    split at h
    · rename_i c msg rest hclient htoMux
      obtain ⟨m, hm, rfl⟩ := Option.map_eq_some_iff.1 h
      have hreceived := (Mux.stepped_of_step hm).received_eq hs
      refine (State.inbound_of (show _ = s.readByMux ++ [msg] from ?_) rfl rfl).trans ?_
      · simp only [State.readByMux, State.withMux, hclient, hreceived, Mux.Label.frames]
        simp
      · refine Eq.trans ?_ (State.inbound_of rfl htoMux rfl).symm
        simp only [List.append_assoc, List.singleton_append]
        rfl
    · cases h
  | readEof | cancelled =>
    simp only [State.step] at h
    split at h
    · split at h
      · obtain ⟨m, hm, rfl⟩ := Option.map_eq_some_iff.1 h
        refine State.inbound_of (readByMux_of_step hs hm rfl fun c msg heq => ?_) rfl rfl
        cases heq
      · cases h
    · cases h
  | mux label =>
    simp only [State.step] at h
    split at h
    · cases h
    · rename_i hfree
      obtain ⟨m, hm, rfl⟩ := Option.map_eq_some_iff.1 h
      refine State.inbound_of (readByMux_of_step hs hm rfl ?_) rfl rfl
      rintro c msg rfl hclient
      simp [State.decides, hclient] at hfree
  | channelClosed =>
    simp only [State.step] at h
    split at h
    · split at h
      · obtain ⟨m, hm, rfl⟩ := Option.map_eq_some_iff.1 h
        refine State.inbound_of (readByMux_of_step hs hm rfl fun c msg heq => ?_) rfl rfl
        cases heq
      · cases h
    · cases h
  | hostCloses => cases h; rfl
  | shutdown | abort | finish =>
    simp only [State.step] at h
    split at h <;> cases h
    rfl
  | copyOut =>
    simp only [State.step] at h
    split at h <;> cases h
    rfl
  | write | writerReturns =>
    simp only [State.step] at h
    split at h
    · split at h <;> cases h
      rfl
    · cases h

/-! ## The way out -/

/-- **What holds along every session.** -/
structure State.Transparent (cfg : Config) (s : State) (wrote : List Value) : Prop where
  reachable : Reachable cfg Run.Any s.mux
  inbound : s.inbound = wrote
  taken_le : s.taken ≤ s.channel.length
  copied : s.stdout ++ s.toProxy = s.written

theorem transparent_init (cfg : Config) : (State.init cfg).Transparent cfg [] where
  reachable := .init
  inbound := rfl
  taken_le := Nat.le_refl _
  copied := rfl

/-- The way out, where a step moves neither the writer task nor the copy of
its output. -/
theorem State.Transparent.of_channel {wrote : List Value} {t : State}
    (hs : s.Transparent cfg wrote) (hchannel : s.channel <+: t.channel)
    (htaken : t.taken = s.taken) (htoProxy : t.toProxy = s.toProxy)
    (hstdout : t.stdout = s.stdout) :
    t.taken ≤ t.channel.length ∧ t.stdout ++ t.toProxy = t.written := by
  refine ⟨htaken ▸ hs.taken_le.trans hchannel.length_le, ?_⟩
  rw [hstdout, htoProxy, hs.copied, written_of_prefix hchannel htaken hs.taken_le]

/-- **Each step keeps the way out in order.** -/
theorem Stepped.outbound {wrote : List Value} (h : Stepped cfg s l s')
    (hs : s.Transparent cfg wrote) :
    s'.taken ≤ s'.channel.length ∧ s'.stdout ++ s'.toProxy = s'.written := by
  have hsound := Reachable.sound hs.reachable
  cases h with
  | aside hmux hclient hwriter htaken htoProxy hstdout hended =>
    have hchannel := channel_prefix hclient (hmux ▸ List.prefix_rfl)
    exact hs.of_channel hchannel htaken htoProxy hstdout
  | accepts hclient hstep =>
    have hnone : s.channel = [] := by rw [State.channel, hclient]
    exact hs.of_channel (hnone ▸ List.nil_prefix) rfl rfl rfl
  | muxSteps hstep hwriter hends =>
    have hrouted := routed_of_step hstep
    have hsent := hrouted.sent_prefix hsound
    refine hs.of_channel ?_ rfl rfl rfl
    exact channel_prefix rfl hsent
  | leaves hclient hwriter hgone hstep =>
    have hrouted := routed_of_step hstep
    have hsent := hrouted.sent_prefix hsound
    refine hs.of_channel ?_ rfl rfl rfl
    exact channel_prefix rfl hsent
  | stops hstops => exact ⟨hs.taken_le, hs.copied⟩
  | @writes d hnext hwriter =>
    obtain ⟨hlt, hd⟩ := List.getElem?_eq_some_iff.1 hnext
    have hwritten : s.channel.take (s.taken + 1) = s.written ++ [d] := by
      rw [List.take_add_one, hnext]
      rfl
    refine ⟨hlt, ?_⟩
    change s.stdout ++ (s.toProxy ++ [d]) = s.channel.take (s.taken + 1)
    rw [hwritten, ← List.append_assoc, hs.copied]
  | @copies d rest hnext =>
    refine ⟨hs.taken_le, ?_⟩
    change s.stdout ++ [d] ++ rest = s.written
    rw [← hs.copied, hnext, List.append_assoc, List.singleton_append]
  | finishes hwriter hempty => exact ⟨hs.taken_le, hs.copied⟩

/-- A step of a session leaves the mux as it is, or is a step of the mux. -/
theorem Stepped.reachable (h : Stepped cfg s l s') (hs : Reachable cfg Run.Any s.mux) :
    Reachable cfg Run.Any s'.mux := by
  cases h with
  | aside hmux => exact hmux ▸ hs
  | accepts _ hstep | muxSteps hstep | leaves _ _ _ hstep => exact .step hs trivial hstep
  | stops | writes | copies | finishes => exact hs

theorem transparent_of_reach {ok : State × List Value → Label → Prop} {wrote : List Value}
    (h : Run.Reach (Run.track (State.step cfg) noteWrite) ok (State.init cfg, []) (s, wrote)) :
    s.Transparent cfg wrote := by
  refine h.invariant (I := fun q => q.1.Transparent cfg q.2) (transparent_init cfg) ?_
  intro q l q' _ hq hstep
  obtain ⟨hstep', hnote⟩ := Run.track_eq_some.1 hstep
  have hinbound := inbound_of_step (Reachable.sound hq.reachable) hstep'
  have hstepped := stepped_of_step hstep'
  obtain ⟨htaken, hcopied⟩ := hstepped.outbound hq
  refine ⟨hstepped.reachable hq.reachable, ?_, htaken, hcopied⟩
  rw [hinbound, hq.inbound, hnote]

/-! ## What the host can tell -/

/-- The messages of a list that carry an id. -/
def withId (id : Value) (msgs : List Value) : List Value :=
  msgs.filter fun msg => msg.get "id" = some id

theorem withId_prefix {id : Value} {msgs more : List Value} (h : msgs <+: more) :
    (withId id msgs).length ≤ (withId id more).length :=
  (h.filter _).length_le

theorem State.Transparent.stdout_prefix {wrote : List Value} (hs : s.Transparent cfg wrote) :
    s.stdout <+: s.channel := by
  have hstdout : s.stdout <+: s.written := hs.copied ▸ List.prefix_append _ _
  exact hstdout.trans (List.take_prefix _ _)

/-- No two messages on stdout answer one request. -/
theorem State.Transparent.answers_nodup {wrote : List Value} (hs : s.Transparent cfg wrote) :
    (s.stdout.filterMap (·.answers)).Nodup := by
  have hsent : s.stdout.Sublist s.mux.shared.sent := by
    refine List.Sublist.trans ?_ (written_sublist s)
    exact hs.copied ▸ List.sublist_append_left _ _
  refine List.Nodup.sublist (hsent.filterMap _) (List.nodup_iff_count_le_one.2 fun o => ?_)
  exact (Reachable.accounted hs.reachable).answered_le_one o

/-- Deliveries that answer distinct requests of a list are no more than these. -/
theorem length_le_of_answers {ds : List Delivery} {requests : List (Tagged Value)}
    (hnodup : (ds.filterMap (·.answers)).Nodup)
    (hanswers : ∀ d ∈ ds, ∃ msg ∈ requests, d.answers = some msg.occ) :
    ds.length ≤ requests.length := by
  have hall : (ds.filterMap (·.answers)).length = ds.length := by
    refine List.filterMap_length_eq_length.2 fun d hd => ?_
    obtain ⟨msg, -, hans⟩ := hanswers d hd
    rw [hans]
    rfl
  have hsub : ds.filterMap (·.answers) ⊆ requests.map (·.occ) := by
    intro o ho
    obtain ⟨d, hd, hdo⟩ := List.mem_filterMap.1 ho
    obtain ⟨msg, hmsg, hans⟩ := hanswers d hd
    rw [hans, Option.some.injEq] at hdo
    exact hdo ▸ List.mem_map_of_mem hmsg
  have hle := (List.subperm_of_subset hnodup hsub).length_le
  rwa [hall, List.length_map] at hle

/-- **Under no id does the host get more than it asked for.** The answers on
stdout are of distinct requests, and each of these was read from the host. -/
theorem State.Transparent.withId_le {wrote : List Value} (hs : s.Transparent cfg wrote)
    {id : Value} (hnull : id ≠ .null) :
    (withId id (s.stdout.map (·.msg))).length ≤ (withId id s.readByMux).length := by
  have hsound := Reachable.sound hs.reachable
  have hstdout := hs.stdout_prefix
  unfold State.channel at hstdout
  unfold State.readByMux
  cases hclient : s.client with
  | none =>
    rw [hclient] at hstdout
    rw [List.prefix_nil.1 hstdout]
    exact Nat.le_refl 0
  | some c =>
    rw [hclient] at hstdout
    dsimp only at hstdout ⊢
    -- the deliveries under the id, and the requests under it
    have hdeliveries : withId id (s.stdout.map (·.msg)) =
        (s.stdout.filter fun d => d.msg.get "id" = some id).map (·.msg) := List.filter_map ..
    have hrequests : withId id ((s.mux.shared.received.filter (·.occ.client = c)).map (·.val)) =
        ((s.mux.shared.received.filter (·.occ.client = c)).filter
          fun msg => msg.val.get "id" = some id).map (·.val) := List.filter_map ..
    rw [hdeliveries, hrequests, List.length_map, List.length_map]
    refine length_le_of_answers (hs.answers_nodup.sublist (List.filter_sublist.filterMap _)) ?_
    intro d hd
    obtain ⟨hd, hid⟩ := List.mem_filter.1 hd
    obtain ⟨hsent, hc⟩ := List.mem_filter.1 (hstdout.subset hd)
    obtain ⟨msg, hmsg, hown, hget, hans⟩ :=
      (hsound.shared.sent d hsent).exists_request (of_decide_eq_true hid) hnull
    have hclient' := decide_eq_true (hown.trans (of_decide_eq_true hc))
    exact ⟨msg, List.mem_filter.2 ⟨List.mem_filter.2 ⟨hmsg, hclient'⟩, decide_eq_true hget⟩, hans⟩

/-- **A session through the mux, as the host sees it**, in every run and at
every moment of it. What the host has written is, in its order, what the mux
has read from it, what is in the socket and what is in stdin; what it reads
is the beginning of what the mux has put on its channel; and under no id but
`null` does it read more messages than it has written. -/
theorem session_transparent {ok : State × List Value → Label → Prop} {wrote : List Value}
    (h : Run.Reach (Run.track (State.step cfg) noteWrite) ok (State.init cfg, []) (s, wrote)) :
    s.readByMux ++ s.toMux ++ s.stdin = wrote ∧ s.stdout <+: s.channel ∧
      ∀ id, id ≠ .null →
        (withId id (s.stdout.map (·.msg))).length ≤ (withId id wrote).length := by
  have hs := transparent_of_reach h
  refine ⟨hs.inbound, hs.stdout_prefix, fun id hnull => (hs.withId_le hnull).trans ?_⟩
  refine withId_prefix ?_
  rw [← hs.inbound, State.inbound, List.append_assoc]
  exact List.prefix_append _ _

/-- The host asks once under the id 7, and is answered. -/
theorem session_transparent_answeredRun : ∃ (s : State) (wrote : List Value),
    Run.exec (Run.track (State.step .small) noteWrite) (State.init .small, []) answeredRun =
      some (s, wrote) ∧
    (withId (.number (.posInt 7)) wrote).length = 1 ∧
    (withId (.number (.posInt 7)) (s.stdout.map (·.msg))).length = 1 ∧
    s.readByMux ++ s.toMux ++ s.stdin = wrote := by
  have hlast : (Run.exec (Run.track (State.step .small) noteWrite) (State.init .small, [])
      answeredRun).any fun q =>
        (withId (.number (.posInt 7)) q.2).length == 1 &&
          (withId (.number (.posInt 7)) (q.1.stdout.map (·.msg))).length == 1 := by
    decide +kernel
  rw [Option.any_eq_true] at hlast
  obtain ⟨⟨s, wrote⟩, hexec, hs⟩ := hlast
  rw [Bool.and_eq_true, beq_iff_eq, beq_iff_eq] at hs
  exact ⟨s, wrote, hexec, hs.1, hs.2, (session_transparent (Run.reach_of_exec hexec .init)).1⟩

end Session

end VcOperator
