import VcOperator.Proxy.Model
/-!
# What the proxy counts

`run_proxy` counts what it forwards and what it gets back by the shape of
a message: it looks for an `id` and a `method`, and at neither of them.
So a message that has an id and no method takes one off the count, also
where it answers nobody: a broadcast under the null id, or a response to
a request that was answered before. And a batch has no `id` member, so
the requests in it are not counted.

`waits_for_every_answer` says exactly which runs keep the count, and
`busy_until_done` exactly which runs leave the loop when they are done:
the test for it stands in the branch of the socket alone.
-/

namespace VcOperator

namespace Proxy

variable {p p' : State} {l : Label} {msg : Value}

/-! ## The branches -/

theorem idsOf_of_get {kind : Value → Bool} {id : Value} (hid : msg.get "id" = some id)
    (hkind : kind msg = true) : idsOf kind msg = [id] := by
  obtain ⟨ms, rfl⟩ := Value.exists_members_of_get hid
  simp [idsOf, hkind, hid]

/-- A counted request is the one request its message brings. -/
theorem length_requestIds (h : isRequest msg = true) : (requestIds msg).length = 1 := by
  have hid : (msg.get "id").isSome = true := by
    rw [isRequest, Bool.and_eq_true] at h
    exact h.1
  obtain ⟨id, hid⟩ := Option.isSome_iff_exists.1 hid
  rw [requestIds, idsOf_of_get hid h, List.length_singleton]

/-- A counted response is the one response its message brings. -/
theorem exists_responseIds (h : isResponse msg = true) : ∃ id, responseIds msg = [id] := by
  have hid : (msg.get "id").isSome = true := by
    rw [isResponse, Bool.and_eq_true] at h
    exact h.1
  obtain ⟨id, hid⟩ := Option.isSome_iff_exists.1 hid
  exact ⟨id, idsOf_of_get hid h⟩

/-- **The branch of stdin**, on a message that is passed on. -/
theorem forward_sent (msg : Value) (p : State) : forward msg true p =
    { p with
      pendingRequests := p.pendingRequests + (isRequest msg).toNat
      unanswered := p.unanswered ++ requestIds msg } := by
  unfold forward
  cases isRequest msg <;> rfl

/-- **The branch of the socket**, on a message that is passed on. -/
theorem receive_written (msg : Value) (p : State) : receive msg true p =
    { p with
      pendingRequests := p.pendingRequests - (isResponse msg).toNat
      unanswered := p.unanswered.diff (responseIds msg)
      exit := if p.stdinClosed = true ∧ p.pendingRequests ≤ (isResponse msg).toNat then
        some .allReceived else p.exit } := by
  unfold receive
  cases isResponse msg with
  | true =>
    by_cases hdone : p.stdinClosed = true ∧ p.pendingRequests ≤ 1
    · simp [hdone, Nat.sub_eq_zero_of_le hdone.2]
    · have hnot : ¬(p.stdinClosed = true ∧ p.pendingRequests - 1 = 0) := by
        rintro ⟨hclosed, hzero⟩
        exact hdone ⟨hclosed, by omega⟩
      simp [hdone, hnot]
  | false =>
    by_cases hdone : p.stdinClosed = true ∧ p.pendingRequests = 0
    · simp [hdone]
    · simp [hdone]

/-- **The turns of the loop.** A message that cannot be passed on ends it,
for another reason than that all is received. -/
inductive Stepped (p : State) : Label → State → Prop
  | forwards {msg : Value} (hopen : p.stdinClosed = false) :
      Stepped p (.stdin msg true) (forward msg true p)
  | closes {l : Label} (hl : l = .stdinError ∨ l = .stdinEof) (hopen : p.stdinClosed = false) :
      Stepped p l { p with stdinClosed := true }
  | receives {msg : Value} : Stepped p (.socket msg true) (receive msg true p)
  | breaks {l : Label} {p' : State} (hexit : ∃ e, p'.exit = some e ∧ e ≠ .allReceived)
      (hl : (∀ msg, l ≠ .stdin msg true) ∧ (∀ msg, l ≠ .socket msg true) ∧ l ≠ .stdinError ∧
        l ≠ .stdinEof) : Stepped p l p'

theorem stepped_of_step (h : step p l = some p') : p.exit = none ∧ Stepped p l p' := by
  simp only [step] at h
  split at h
  · cases h
  · rename_i hexit
    refine ⟨by simpa using hexit, ?_⟩
    cases l with
    | stdin msg sent =>
      simp only at h
      split at h <;> cases h
      rename_i hopen
      cases sent with
      | true => exact .forwards (by simpa using hopen)
      | false => exact .breaks ⟨.socketWriteError, rfl, nofun⟩ (by simp)
    | stdinError =>
      simp only at h
      split at h <;> cases h
      exact .closes (.inl rfl) (by simp_all)
    | stdinEof =>
      simp only at h
      split at h <;> cases h
      exact .closes (.inr rfl) (by simp_all)
    | socket msg written =>
      cases h
      cases written with
      | true => exact .receives
      | false => exact .breaks ⟨.stdoutWriteError, rfl, nofun⟩ (by simp)
    | socketError => cases h; exact .breaks ⟨.socketDecodeError, rfl, nofun⟩ (by simp)
    | socketEof => cases h; exact .breaks ⟨.socketClosed, rfl, nofun⟩ (by simp)

/-! ## It waits for every answer -/

/-- **The proxy waits for every answer**: at a loop head the count is at
least the number of forwarded requests that are unanswered, and when the
loop was left because all is received, none is. -/
structure State.Waits (p : State) : Prop where
  head : p.exit = none → p.unanswered.length ≤ p.pendingRequests
  left : p.exit = some .allReceived → p.unanswered = []

/-- **The condition on a turn.** A batch of requests is read only when the
count has room for them. A message that is counted as a response answers
a forwarded request, or comes when none is unanswered, or when the count
is above the number of those. -/
def countsAnswers (p : State) : Label → Bool
  | .stdin msg true =>
    isRequest msg || (requestIds msg).isEmpty ||
      decide (p.unanswered.length + (requestIds msg).length ≤ p.pendingRequests)
  | .socket msg true =>
    !isResponse msg || (responseIds msg).any (· ∈ p.unanswered) || p.unanswered.isEmpty ||
      decide (p.unanswered.length < p.pendingRequests)
  | _ => true

/-- What the branch of the socket leaves unanswered, against the count. -/
theorem length_diff_le_iff (hle : p.unanswered.length ≤ p.pendingRequests) :
    (p.unanswered.diff (responseIds msg)).length ≤
        p.pendingRequests - (isResponse msg).toNat ↔
      countsAnswers p (.socket msg true) = true := by
  rw [countsAnswers]
  cases hresponse : isResponse msg with
  | false =>
    have hsub := (List.diff_sublist p.unanswered (responseIds msg)).length_le
    simp only [Bool.toNat_false, Nat.sub_zero, Bool.not_false, Bool.true_or, iff_true]
    exact Nat.le_trans hsub hle
  | true =>
    obtain ⟨id, hids⟩ := exists_responseIds hresponse
    rw [hids, List.diff_cons, List.diff_nil]
    by_cases hmem : id ∈ p.unanswered
    · have hlength := List.length_erase_of_mem hmem
      simp only [Bool.toNat_true, Bool.not_true, Bool.false_or, List.any_cons, hmem, decide_true,
        Bool.true_or, iff_true]
      omega
    · rw [List.erase_of_not_mem hmem]
      simp only [Bool.toNat_true, Bool.not_true, Bool.false_or, List.any_cons, hmem,
        decide_false, List.any_nil, Bool.or_eq_true, List.isEmpty_iff, decide_eq_true_eq]
      rw [← List.length_eq_zero_iff]
      omega

/-- **A turn keeps the count exactly when it meets the condition.** -/
theorem Stepped.waits_iff (h : Stepped p l p') (hexit : p.exit = none) (hp : p.Waits) :
    p'.Waits ↔ countsAnswers p l = true := by
  have hle := hp.head hexit
  cases h with
  | @forwards msg hopen =>
    have hiff : (forward msg true p).Waits ↔
        p.unanswered.length + (requestIds msg).length ≤
          p.pendingRequests + (isRequest msg).toNat := by
      rw [forward_sent]
      constructor
      · intro h
        simpa using h.head hexit
      · intro h
        refine ⟨fun _ => by simpa using h, fun hleft => ?_⟩
        rw [hexit] at hleft
        cases hleft
    rw [hiff, countsAnswers]
    cases hrequest : isRequest msg with
    | true =>
      have hone := length_requestIds hrequest
      simp only [Bool.toNat_true, Bool.true_or, iff_true]
      omega
    | false =>
      simp only [Bool.toNat_false, Nat.add_zero, Bool.false_or, Bool.or_eq_true,
        List.isEmpty_iff, decide_eq_true_eq]
      rw [← List.length_eq_zero_iff]
      omega
  | closes hl hopen =>
    have hcond : countsAnswers p l = true := by rcases hl with rfl | rfl <;> rfl
    rw [hcond]
    exact iff_of_true ⟨fun _ => hle, fun hleft => hp.left hleft⟩ rfl
  | @receives msg =>
    rw [← length_diff_le_iff hle, receive_written]
    by_cases hdone : p.stdinClosed = true ∧ p.pendingRequests ≤ (isResponse msg).toNat
    · rw [if_pos hdone]
      have hzero : p.pendingRequests - (isResponse msg).toNat = 0 := Nat.sub_eq_zero_of_le hdone.2
      rw [hzero, Nat.le_zero, List.length_eq_zero_iff]
      exact ⟨fun h => h.left rfl, fun h => ⟨nofun, fun _ => h⟩⟩
    · rw [if_neg hdone]
      refine ⟨fun h => h.head hexit, fun h => ⟨fun _ => h, fun hleft => ?_⟩⟩
      rw [hexit] at hleft
      cases hleft
  | breaks hbreak hl =>
    obtain ⟨e, he, hne⟩ := hbreak
    have hcond : countsAnswers p l = true := by
      cases l with
      | stdin msg sent =>
        cases sent with
        | true => exact absurd rfl (hl.1 msg)
        | false => rfl
      | socket msg written =>
        cases written with
        | true => exact absurd rfl (hl.2.1 msg)
        | false => rfl
      | stdinError | stdinEof | socketError | socketEof => rfl
    refine iff_of_true ⟨fun hnone => ?_, fun hleft => ?_⟩ hcond
    · rw [he] at hnone
      cases hnone
    · rw [he, Option.some.injEq] at hleft
      exact absurd hleft hne

theorem waits_init : init.Waits := ⟨fun _ => Nat.le_refl 0, nofun⟩

/-- **The runs that wait for every answer** are those whose turns all meet
the condition. -/
theorem waits_for_every_answer (ls : List Label) (p : State)
    (h : Run.exec step init ls = some p) :
    Run.Always step State.Waits init ls ↔ Run.meets step countsAnswers init ls = true :=
  Run.always_iff_meets (fun _ _ _ hp hstep =>
    (stepped_of_step hstep).2.waits_iff (stepped_of_step hstep).1 hp) waits_init h

/-- A request, under the id 1. -/
def askMessage : Value :=
  .object [("id", .number (.posInt 1)), ("method", .string "tools/list")]

/-- Its response. -/
def replyMessage : Value := .object [("id", .number (.posInt 1)), ("result", .object [])]

/-- The request is answered after stdin was closed. -/
def answeredRun : List Label :=
  [.stdin askMessage true, .stdinEof, .socket replyMessage true]

theorem waits_for_every_answer_answeredRun :
    (Run.exec step init answeredRun).bind (·.exit) = some .allReceived ∧
      Run.Always step State.Waits init answeredRun := by
  have henabled : (Run.exec step init answeredRun).isSome = true := by decide +kernel
  obtain ⟨p, hexec⟩ := Option.isSome_iff_exists.1 henabled
  exact ⟨by decide +kernel, (waits_for_every_answer answeredRun p hexec).2 (by decide +kernel)⟩

/-- An error under the null id, for everybody. -/
def nullErrorMessage : Value :=
  .object [("error", .object [("code", .number (.negInt (-32700)))]), ("id", .null)]

/-- A request is forwarded, stdin is closed, and the broadcast comes. -/
def broadcastRun : List Label :=
  [.stdin askMessage true, .stdinEof, .socket nullErrorMessage true]

/-- **A broadcast ends the proxy before the answer has come.** -/
theorem not_waits_broadcastRun : ¬ ∀ (ls : List Label) (p : State),
    Run.exec step init ls = some p → Run.Always step State.Waits init ls := by
  intro hall
  have henabled : (Run.exec step init broadcastRun).isSome = true := by decide +kernel
  obtain ⟨p, hexec⟩ := Option.isSome_iff_exists.1 henabled
  have hwaits := hall broadcastRun p hexec 3 p hexec
  have hleft : (Run.exec step init broadcastRun).bind (·.exit) = some .allReceived := by
    decide +kernel
  have hopen : (Run.exec step init broadcastRun).map (·.unanswered.length) = some 1 := by
    decide +kernel
  rw [hexec] at hleft hopen
  have hnil := hwaits.left hleft
  simp [hnil] at hopen

/-! ## It stops when it is done -/

/-- **The proxy is not done**: at a loop head with stdin closed, a forwarded
request is unanswered. -/
def State.Busy (p : State) : Prop :=
  p.exit = none → p.stdinClosed = true → p.unanswered ≠ []

/-- **The condition on a turn.** Stdin closes only while a forwarded request
is unanswered. What answers the last of them, once it is closed, is the
last the count has. -/
def closesInTime (p : State) : Label → Bool
  | .stdinError | .stdinEof => !p.unanswered.isEmpty
  | .socket msg true =>
    !p.stdinClosed || !(p.unanswered.diff (responseIds msg)).isEmpty ||
      decide (p.pendingRequests ≤ (isResponse msg).toNat)
  | _ => true

/-- **A turn leaves the proxy busy, or at its end, exactly when it meets the
condition.** -/
theorem Stepped.busy_iff (h : Stepped p l p') (hexit : p.exit = none) :
    p'.Busy ↔ closesInTime p l = true := by
  cases h with
  | @forwards msg hopen =>
    refine iff_of_true (fun _ hclosed => ?_) rfl
    rw [forward_sent] at hclosed
    rw [hopen] at hclosed
    cases hclosed
  | closes hl hopen =>
    have hcond : closesInTime p l = !p.unanswered.isEmpty := by rcases hl with rfl | rfl <;> rfl
    rw [hcond, Bool.not_eq_true', List.isEmpty_eq_false_iff]
    exact ⟨fun h => h hexit rfl, fun h _ _ => h⟩
  | @receives msg =>
    rw [closesInTime]
    simp only [Bool.or_eq_true, Bool.not_eq_true', List.isEmpty_eq_false_iff, decide_eq_true_eq]
    rw [receive_written]
    by_cases hdone : p.stdinClosed = true ∧ p.pendingRequests ≤ (isResponse msg).toNat
    · rw [if_pos hdone]
      exact iff_of_true nofun (.inr hdone.2)
    · rw [if_neg hdone]
      constructor
      · intro h
        by_cases hclosed : p.stdinClosed = true
        · exact .inl (.inr (h hexit hclosed))
        · exact .inl (.inl (by simpa using hclosed))
      · rintro ((hopen | hleft) | hle) _ hclosed
        · rw [hopen] at hclosed
          cases hclosed
        · exact hleft
        · exact absurd ⟨hclosed, hle⟩ hdone
  | breaks hbreak hl =>
    obtain ⟨e, he, -⟩ := hbreak
    have hcond : closesInTime p l = true := by
      cases l with
      | stdin msg sent => rfl
      | socket msg written =>
        cases written with
        | true => exact absurd rfl (hl.2.1 msg)
        | false => rfl
      | stdinError => exact absurd rfl hl.2.2.1
      | stdinEof => exact absurd rfl hl.2.2.2
      | socketError | socketEof => rfl
    refine iff_of_true (fun hnone => ?_) hcond
    rw [he] at hnone
    cases hnone

/-- **The runs that stop when they are done** are those whose turns all meet
the condition. -/
theorem busy_until_done (ls : List Label) (p : State) (h : Run.exec step init ls = some p) :
    Run.Always step State.Busy init ls ↔ Run.meets step closesInTime init ls = true :=
  Run.always_iff_meets (I := State.Busy) (fun _ _ _ _ hstep =>
    (stepped_of_step hstep).2.busy_iff (stepped_of_step hstep).1) (fun _ => nofun) h

theorem busy_until_done_answeredRun :
    (Run.exec step init answeredRun).bind (·.exit) = some .allReceived ∧
      Run.Always step State.Busy init answeredRun := by
  have henabled : (Run.exec step init answeredRun).isSome = true := by decide +kernel
  obtain ⟨p, hexec⟩ := Option.isSome_iff_exists.1 henabled
  exact ⟨by decide +kernel, (busy_until_done answeredRun p hexec).2 (by decide +kernel)⟩

/-- The request is answered before stdin is closed. -/
def answeredFirstRun : List Label :=
  [.stdin askMessage true, .socket replyMessage true, .stdinEof]

/-- **The proxy waits on, with nothing to wait for.** -/
theorem not_busy_answeredFirstRun : ¬ ∀ (ls : List Label) (p : State),
    Run.exec step init ls = some p → Run.Always step State.Busy init ls := by
  intro hall
  have hhead : (Run.exec step init answeredFirstRun).any fun p =>
      p.exit.isNone && p.stdinClosed && p.unanswered.isEmpty := by decide +kernel
  rw [Option.any_eq_true] at hhead
  obtain ⟨p, hexec, hp⟩ := hhead
  simp only [Bool.and_eq_true, Option.isNone_iff_eq_none, List.isEmpty_iff] at hp
  obtain ⟨⟨hexit, hclosed⟩, hnil⟩ := hp
  exact hall answeredFirstRun p hexec 3 p hexec hexit hclosed hnil

/-! ## Batches alone leave the count too high -/

/-- The message is no batch with a response to a forwarded request in it. -/
def answersSingly (p : State) : Label → Bool
  | .socket msg _ =>
    isResponse msg || (responseIds msg).all fun id => !decide (id ∈ p.unanswered)
  | _ => true

theorem diff_of_disjoint {as bs : List Value} (h : ∀ b ∈ bs, b ∉ as) : as.diff bs = as := by
  induction bs with
  | nil => rw [List.diff_nil]
  | cons b bs ih =>
    rw [List.diff_cons, List.erase_of_not_mem (h b (List.mem_cons_self ..))]
    exact ih fun b' hb' => h b' (List.mem_cons_of_mem _ hb')

/-- A message that is no response to be counted answers nothing, where no
batch does. -/
theorem diff_of_answersSingly {written : Bool}
    (h : answersSingly p (.socket msg written) = true) (hresponse : isResponse msg = false) :
    p.unanswered.diff (responseIds msg) = p.unanswered :=
  diff_of_disjoint (by simpa [answersSingly, hresponse] using h)

/-- **Where no batch answers a request, the count is at most the number of
unanswered ones.** -/
theorem pending_le_unanswered (h : Run.Reach step (fun p l => answersSingly p l = true) init p) :
    p.exit = none → p.pendingRequests ≤ p.unanswered.length := by
  refine h.invariant (I := fun p => p.exit = none → p.pendingRequests ≤ p.unanswered.length)
    (fun _ => Nat.le_refl 0) ?_
  intro p l p' hok hp hstep hexit'
  obtain ⟨hexit, hstepped⟩ := stepped_of_step hstep
  have hle := hp hexit
  cases hstepped with
  | @forwards msg hopen =>
    rw [forward_sent, List.length_append]
    cases hrequest : isRequest msg with
    | true =>
      have hone := length_requestIds hrequest
      simp only [Bool.toNat_true]
      omega
    | false =>
      simp only [Bool.toNat_false]
      omega
  | closes hl hopen => exact hle
  | @receives msg =>
    rw [receive_written]
    cases hresponse : isResponse msg with
    | true =>
      obtain ⟨id, hids⟩ := exists_responseIds hresponse
      have herase : p.unanswered.length - 1 ≤ (p.unanswered.erase id).length := by
        rw [List.length_erase]
        split <;> omega
      simp only [hids, List.diff_cons, List.diff_nil, Bool.toNat_true]
      omega
    | false =>
      rw [diff_of_answersSingly hok hresponse]
      exact hle
  | breaks hbreak hl =>
    obtain ⟨e, he, -⟩ := hbreak
    rw [he] at hexit'
    cases hexit'

/-- So what answers the last of them is the last it has: only the time at
which stdin closes is left of the condition. -/
theorem closesInTime_socket (h : Run.Reach step (fun p l => answersSingly p l = true) init p)
    (hexit : p.exit = none) (hok : answersSingly p (.socket msg true) = true) :
    closesInTime p (.socket msg true) = true := by
  have hle := pending_le_unanswered h hexit
  rw [closesInTime]
  simp only [Bool.or_eq_true, Bool.not_eq_true', List.isEmpty_eq_false_iff, decide_eq_true_eq]
  by_cases hleft : p.unanswered.diff (responseIds msg) = []
  · refine .inr (Nat.le_trans hle ?_)
    cases hresponse : isResponse msg with
    | true =>
      obtain ⟨id, hids⟩ := exists_responseIds hresponse
      rw [hids, List.diff_cons, List.diff_nil] at hleft
      have hlength := congrArg List.length hleft
      rw [List.length_erase, List.length_nil] at hlength
      simp only [Bool.toNat_true]
      split at hlength <;> omega
    | false =>
      rw [diff_of_answersSingly hok hresponse] at hleft
      rw [hleft]
      exact Nat.le_refl 0
  · exact .inl (.inr hleft)

end Proxy

end VcOperator
