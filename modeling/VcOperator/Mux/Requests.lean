import VcOperator.Mux.Helpers.Accounts
/-!
# What becomes of a request

Two guarantees of a mux, over every run: a reply reaches the client that
asked, under the id it asked with, and at most once; and no request of a
registered client is lost.
-/

namespace VcOperator

namespace Mux

variable {cfg : Config} {s s' : System} {l : Label} {o : Occ}

/-! ## Replies -/

/-- What is sent in one step comes after what was sent before. -/
theorem Routed.sent_prefix (h : Routed cfg s s') (hs : s.Sound) :
    s.shared.sent <+: s'.shared.sent := by
  rcases h.record hs with rfl | ⟨_, _, -, rfl⟩ | hrecord
  · exact List.prefix_rfl
  · exact List.prefix_rfl
  · exact hrecord.sent

/-- No request is answered twice. -/
theorem System.Accounted.answered_le_one (ha : s.Accounted) (o : Occ) :
    s.shared.answered.count o ≤ 1 := by
  have hle := ha.le_one o
  simp only [System.places, Shared.held] at hle
  omega

/-- A message under a non-null id is a reply to a request with that id. -/
theorem Delivery.Sound.exists_request {rec : List (Tagged Value)} {d : Delivery}
    (hd : d.Sound rec) {id : Value} (hid : d.msg.get "id" = some id) (hnull : id ≠ .null) :
    ∃ msg ∈ rec, msg.occ.client = d.client ∧ msg.val.get "id" = some id ∧
      d.answers = some msg.occ := by
  unfold Delivery.Sound at hd
  split at hd
  · rename_i o hans
    obtain ⟨msg, hmsg, hocc, hget⟩ := hd
    rw [hid, Option.some.injEq] at hget
    refine ⟨msg, hmsg.1, hmsg.2, ?_, by rw [hans, hocc]⟩
    cases hmid : msg.val.get "id" with
    | none =>
      rw [hmid, Option.getD_none] at hget
      exact absurd hget hnull
    | some id' =>
      rw [hmid, Option.getD_some] at hget
      rw [hget]
  · exact absurd (hd id hid) hnull

/-- Whatever is put on a client's channel under a non-null id between two
states answers a request that this client had sent with that id, and that
was not answered yet. -/
def System.AnswersRequests (s s' : System) : Prop :=
  ∃ ds, s'.shared.sent = s.shared.sent ++ ds ∧
    ∀ d ∈ ds, ∀ id, d.msg.get "id" = some id → id ≠ .null →
      ∃ msg ∈ s.shared.received, msg.occ.client = d.client ∧ msg.val.get "id" = some id ∧
        d.answers = some msg.occ ∧ msg.occ ∉ s.shared.answered

/-- **A reply never crosses clients, and comes once.** This holds of the
steps of every task, the routing of an arbitrary child message among
them; and over the whole run no request is answered twice. -/
theorem replies_never_cross (h : Reachable cfg Run.Any s) (hstep : s.step cfg l = some s') :
    s.AnswersRequests s' ∧ ∀ o, s'.shared.answered.count o ≤ 1 := by
  have hs := Reachable.sound h
  have hr := routed_of_step hstep
  have hs' : s'.Sound := hr.sound hs
  have ha' : s'.Accounted := hr.accounted hs (Reachable.keyed h) (Reachable.accounted h)
  refine ⟨?_, ha'.answered_le_one⟩
  obtain ⟨ds, hds⟩ := hr.sent_prefix hs
  refine ⟨ds, hds.symm, fun d hd id hid hnull => ?_⟩
  obtain ⟨msg, hm, hclient, hget, hans⟩ :=
    (hs'.shared.sent d (hds ▸ List.mem_append_right _ hd)).exists_request hid hnull
  have hm' : msg ∈ s.shared.received := by
    rcases hr.received hs with hrec | ⟨c, frame, -, rfl⟩
    · rwa [hrec] at hm
    · -- a step that receives a frame sends nothing
      have hnil : ds = [] := List.append_cancel_left (hds.trans (List.append_nil _).symm)
      rw [hnil] at hd
      cases hd
  refine ⟨msg, hm', hclient, hget, hans, fun hmem => ?_⟩
  -- the earlier reply and this one would be two
  have hle := ha'.answered_le_one msg.occ
  have hnew : msg.occ ∈ ds.filterMap (·.answers) := List.mem_filterMap.2 ⟨d, hd, hans⟩
  rw [Shared.answered, ← hds, List.filterMap_append, List.count_append] at hle
  have h₁ : 0 < (s.shared.sent.filterMap (·.answers)).count msg.occ := List.count_pos_iff.2 hmem
  have h₂ := List.count_pos_iff.2 hnew
  omega

/-- The child is spawned, a client asks for `initialize`, and the child answers. -/
def answeredRun : List Label :=
  [.manager .go, .manager .go, .manager (.spawned 100), .manager .go, .manager .go, .manager .go,
    .manager .go, .connect, .handler 1,
    .receive 1 (.object [("id", .number (.posInt 7)), ("method", .string "initialize")]),
    .handler 1, .handler 1, .handler 1, .handler 1, .handler 1,
    .manager .received, .manager .go, .manager .written,
    .childOutput 0 (.object [("id", .string "c1:1"), ("result", .object [])]),
    .routerTurn, .router [], .router [], .router []]

/-- The reply of that run, at the step that sends it. -/
theorem replies_never_cross_answeredRun :
    (Config.small.after (answeredRun ++ [.router []])).shared.answered = [⟨1, 0⟩] ∧
      (Config.small.after answeredRun).AnswersRequests
        (Config.small.after (answeredRun ++ [.router []])) := by
  have hruns : Config.small.runs answeredRun = true := by decide +kernel
  have hruns' : Config.small.runs (answeredRun ++ [.router []]) = true := by decide +kernel
  exact ⟨by decide +kernel, (replies_never_cross (Config.small.reachable_after hruns)
    (Config.small.step_after hruns hruns')).1⟩

/-! ## Nothing is lost -/

theorem count_tags (ops : List ClientOp) (o : Occ) :
    (ops.flatMap ClientOp.tags).count o =
      (ops.flatMap ClientOp.ownCall).count o + (ops.flatMap ClientOp.flushing).count o := by
  induction ops with
  | nil => rfl
  | cons op ops ih =>
    simp only [List.flatMap_cons, List.count_append, ClientOp.tags, ih]
    omega

/-- The places of a request that is no longer being handled. -/
theorem System.places_of_handled (hcur : s.Current) (hdone : s.Handled o) :
    s.places o = s.countAt o .replied + s.countAt o .pending + s.countAt o .waiting +
      s.countAt o .buffered + s.countAt o .routed + s.countAt o .reaped +
      s.countAt o .flushed := by
  have hown : ((s.handlers o.client).flatMap ClientOp.ownCall).count o = 0 := by
    refine List.count_eq_zero.2 fun hmem => ?_
    obtain ⟨op, hop, ho⟩ := List.mem_flatMap.1 hmem
    rcases hdone with hne | hnil
    · exact hne (hcur o.client op hop o ho)
    · rw [hnil] at hop
      cases hop
  simp only [System.places, Shared.held, count_tags, hown, System.countAt, System.placeOccs]
  omega

/-- Seven counts that add up to one single out a place. -/
theorem System.inOnePlace_of_sum
    (h : s.countAt o .replied + s.countAt o .pending + s.countAt o .waiting +
      s.countAt o .buffered + s.countAt o .routed + s.countAt o .reaped +
      s.countAt o .flushed = 1) : s.InOnePlace o := by
  have hsome : ∃ place, s.countAt o place ≠ 0 := by
    by_contra hall
    push Not at hall
    simp only [hall] at h
    cases h
  obtain ⟨place, hplace⟩ := hsome
  refine ⟨place, ?_, fun place' hne => ?_⟩
  · cases place <;> omega
  · cases place <;> cases place' <;> first | exact absurd rfl hne | omega

theorem System.Sound.carriesId (hs : s.Sound) {msg : Tagged Value}
    (hm : msg ∈ s.shared.received) (hid : (msg.val.get "id").isSome) : s.CarriesId msg where
  replied := by
    intro d hd hans
    have hsound := hs.shared.sent d hd
    unfold Delivery.Sound at hsound
    rw [hans] at hsound
    obtain ⟨m, hmsg, hocc, hget⟩ := hsound
    have hself : m = msg := hs.shared.eq_of_occ_eq hmsg.1 hm hocc
    obtain ⟨id, hid⟩ := Option.isSome_iff_exists.1 hid
    rw [hself, hid, Option.getD_some] at hget
    exact ⟨hself ▸ hmsg.2.symm, by rw [hget, hid]⟩
  pending := by
    intro p hp hocc
    obtain ⟨m, hmsg, hmocc, hget⟩ := hs.shared.pending p hp
    have hself : m = msg := hs.shared.eq_of_occ_eq hmsg.1 hm (hmocc.trans hocc)
    exact ⟨hself ▸ hmsg.2.symm, hself ▸ hget⟩
  waiting := by
    intro w hw hocc
    obtain ⟨m, hmsg, hmocc, hget⟩ := hs.shared.initWaiting w hw
    have hself : m = msg := hs.shared.eq_of_occ_eq hmsg.1 hm (hmocc.trans hocc)
    exact ⟨hself ▸ hmsg.2.symm, hself ▸ hget⟩
  buffered := by
    intro c m hmem hocc
    have hmsg := (hs.shared.buffered c m hmem).1
    have hself : m = msg := hs.shared.eq_of_occ_eq hmsg.1 hm hocc
    exact ⟨hself ▸ hmsg.2.symm, hself⟩

/-- **Each step is a step of one task**: it changes the hands of that task alone. -/
theorem Routed.oneTask (h : Routed cfg s s') (o : Occ) : ∃ task : Place,
    ∀ place, place.inStep → place ≠ task → s'.countAt o place = s.countAt o place := by
  have hflushed : s'.router = s.router → s'.reaper = s.reaper → ∃ task : Place,
      ∀ place, place.inStep → place ≠ task → s'.countAt o place = s.countAt o place := by
    intro hrouter hreaper
    refine ⟨.flushed, fun place hin hne => ?_⟩
    cases place with
    | routed => simp only [System.countAt, System.placeOccs, hrouter]
    | reaped => simp only [System.countAt, System.placeOccs, hreaper]
    | flushed => exact absurd rfl hne
    | replied | pending | waiting | buffered => cases hin
  cases h with
  | connect | receive _ _ | endReader _ _ | writerFails | handler _ _ | writer _ _ =>
    exact hflushed rfl rfl
  | still hstill hreaders hhandlers hcurrent hwriters hrouter hreaper =>
    exact hflushed hrouter hreaper
  | routerTurn _ _ _ | router _ _ =>
    refine ⟨.routed, fun place hin hne => ?_⟩
    cases place with
    | routed => exact absurd rfl hne
    | reaped | flushed => rfl
    | replied | pending | waiting | buffered => cases hin
  | reaperTick _ | reaper _ _ =>
    refine ⟨.reaped, fun place hin hne => ?_⟩
    cases place with
    | reaped => exact absurd rfl hne
    | routed | flushed => rfl
    | replied | pending | waiting | buffered => cases hin

/-- A frame whose handling has ended stays handled. -/
theorem Routed.handled (h : Routed cfg s s') (hs : s.Sound) {msg : Tagged Value}
    (hm : msg ∈ s.shared.received) (hdone : s.Handled msg.occ) : s'.Handled msg.occ := by
  cases h with
  | connect =>
    have hne := Nat.ne_of_lt (hs.shared.known msg hm)
    simp only [System.Handled, System.connect_handlers, Function.update_of_ne hne]
    exact hdone
  | @receive c frame hreads hidle =>
    rcases eq_or_ne msg.occ.client c with hc | hc
    · refine .inl ?_
      simp only [System.receive, hc, Function.update_self, ne_eq, Option.some.injEq]
      intro hocc
      have hlt := hs.shared.seq_lt hm
      rw [← hocc] at hlt
      exact Nat.lt_irrefl _ hlt
    · simp only [System.Handled, System.receive, Function.update_of_ne hc]
      exact hdone
  | @endReader c ops hidle hops =>
    rcases eq_or_ne msg.occ.client c with hc | hc
    · refine .inl ?_
      simp [System.endReader, hc]
    · simp only [System.Handled, System.endReader, Function.update_of_ne hc]
      exact hdone
  | @handler c op rest ops sh hops hrun =>
    rcases eq_or_ne msg.occ.client c with hc | hc
    · rcases hdone with hne | hnil
      · exact .inl hne
      · rw [hc, hops] at hnil
        cases hnil
    · simp only [System.Handled, Function.update_of_ne hc]
      exact hdone
  | writerFails | writer _ _ | routerTurn _ _ _ | router _ _ | reaperTick _ | reaper _ _ =>
    exact hdone
  | still hstill hreaders hhandlers hcurrent =>
    simp only [System.Handled, hhandlers, hcurrent]
    exact hdone

theorem System.Accounted.inOnePlace (ha : s.Accounted) (hcur : s.Current) {msg : Tagged Value}
    (hm : msg ∈ s.shared.received) (hreq : IsRequest msg.val)
    (hreg : msg.occ.client ∈ s.shared.st.clients) (hdone : s.Handled msg.occ) :
    s.InOnePlace msg.occ :=
  System.inOnePlace_of_sum (System.places_of_handled hcur hdone ▸ ha.kept msg hm hreq hreg)

/-- What the hands of a step hold goes, while its client stays registered,
nowhere but to a place that is not another step's hands. -/
def System.LandsWell (cfg : Config) (s : System) (o : Occ) : Prop :=
  ∀ l s', s.step cfg l = some s' → o.client ∈ s'.shared.st.clients →
    ∀ place, place.inStep → s.countAt o place = 1 →
      ∃ place', (place' = place ∨ place'.inStep = false) ∧ s'.countAt o place' = 1 ∧
        ∀ other, other ≠ place' → s'.countAt o other = 0

/-- **No request is silently lost.** A request that
`handle_client_message` has finished with, of a client that is still
registered, is in exactly one place, under its client and with its own
id; and a step that holds it puts it in one of the other places. -/
theorem no_request_is_lost (h : Reachable cfg Run.Any s) {msg : Tagged Value}
    (hm : msg ∈ s.shared.received) (hreq : IsRequest msg.val)
    (hreg : msg.occ.client ∈ s.shared.st.clients) (hdone : s.Handled msg.occ) :
    s.InOnePlace msg.occ ∧ s.CarriesId msg ∧ s.LandsWell cfg msg.occ := by
  have hs := Reachable.sound h
  have hone := (Reachable.accounted h).inOnePlace (Reachable.current h) hm hreq hreg hdone
  refine ⟨hone, hs.carriesId hm hreq.1, fun l s' hstep hreg' place hin hat => ?_⟩
  have hr := routed_of_step hstep
  have h' : Reachable cfg Run.Any s' := .step h trivial hstep
  have hm' : msg ∈ s'.shared.received := by
    rcases hr.received hs with hrec | ⟨c, frame, -, rfl⟩
    · exact hrec ▸ hm
    · exact List.mem_append_left _ hm
  obtain ⟨place', hat', hother'⟩ := (Reachable.accounted h').inOnePlace (Reachable.current h')
    hm' hreq hreg' (hr.handled hs hm hdone)
  refine ⟨place', ?_, hat', hother'⟩
  by_contra hnot
  push Not at hnot
  obtain ⟨hne, hin'⟩ := hnot
  rw [Bool.ne_false_iff] at hin'
  -- one of the two pairs of hands is not the acting task's, and keeps its count
  obtain ⟨task, hkeep⟩ := hr.oneTask msg.occ
  by_cases htask : place = task
  · have hsame := hkeep place' hin' (htask ▸ hne)
    obtain ⟨only, honly, hzero⟩ := hone
    have hplace : place = only := by
      by_contra hp
      rw [hzero place hp] at hat
      cases hat
    rw [hat', hzero place' (hplace ▸ hne)] at hsame
    cases hsame
  · have hsame := hkeep place hin htask
    rw [hat, hother' place (Ne.symm hne)] at hsame
    cases hsame

/-- The request of `answeredRun` while its answer is being routed. -/
theorem no_request_is_lost_answeredRun :
    (Config.small.after answeredRun).countAt ⟨1, 0⟩ .routed = 1 ∧
      (Config.small.after answeredRun).InOnePlace ⟨1, 0⟩ ∧
      (Config.small.after answeredRun).LandsWell .small ⟨1, 0⟩ := by
  have hruns : Config.small.runs answeredRun = true := by decide +kernel
  have hm : ∃ msg ∈ (Config.small.after answeredRun).shared.received,
      (msg.val.get "id").isSome ∧ method msg.val ≠ "notifications/initialized" ∧
      msg.occ = ⟨1, 0⟩ := by decide +kernel
  obtain ⟨msg, hm, hid, hmethod, hocc⟩ := hm
  have hreg : msg.occ.client ∈ (Config.small.after answeredRun).shared.st.clients := by
    rw [hocc]
    decide +kernel
  have hdone : (Config.small.after answeredRun).Handled msg.occ := by
    rw [hocc]
    exact .inr (List.isEmpty_iff.1 (by decide +kernel))
  have hlost := no_request_is_lost (Config.small.reachable_after hruns) hm ⟨hid, hmethod⟩ hreg
    hdone
  rw [hocc] at hlost
  exact ⟨by decide +kernel, hlost.1, hlost.2.2⟩

end Mux

end VcOperator
