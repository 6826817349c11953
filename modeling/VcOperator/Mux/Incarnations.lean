import VcOperator.Mux.Helpers.ResetCount
import VcOperator.Mux.Resets
/-!
# Which incarnation a reset belongs to

The manager queues one `Reset` for each incarnation it ends, and goes on;
the router processes them in that order, when it gets to run. So the
`k`-th reset that is processed is that of the `k`-th incarnation. It
clears what the state holds *then*, and if the next incarnation is
running by then, that is the next incarnation's.

`reset_keeps_to_its_child` says that it does not, where an incarnation is
only marked as running when no reset is outstanding.
-/

namespace VcOperator

namespace Mux

variable {cfg : Config} {ok : System → Label → Prop} {s s' : System} {l : Label}
variable {sh sh' : Shared}

/-! ## One reset at a time -/

namespace System

/-- **The condition on a step**: an incarnation is marked as running only
when no reset is outstanding. -/
def marksAfterReset (s : System) : Label → Bool
  | .manager _ =>
    match s.manager with
    | .markRunning _ :: _ => decide (s.resetsOutstanding = 0)
    | _ => true
  | _ => true

/-- **The manager and the resets, after `k` of them.** An incarnation that
has ended is owed one reset, and the one that is running has its pid in
the state and its messages only when none is outstanding. -/
structure OneReset (s : System) (k : ℕ) : Prop extends s.Counted k where
  returned : s.manager = [] →
    s.shared.children.length = k + s.resetsOutstanding ∨ s.resetsOutstanding = 0
  single : s.resetsOutstanding ≤ 1
  settled : (∃ op ∈ s.manager, op.tends = true) → (∀ pid, .markRunning pid ∉ s.manager) →
    s.resetsOutstanding = 0
  marking : ∀ pid, .markRunning pid ∈ s.manager →
    ∃ firstMsg, s.manager = [.markRunning pid, .publishStatus, .takePipes firstMsg]
  unmarked : ∀ pid, .markRunning pid ∈ s.manager →
    s.writtenTo (s.shared.children.length - 1) = [] ∧
      (0 < k + s.resetsOutstanding → s.shared.st.childPid = none)
  cleared : s.manager ≠ [] → (∀ op ∈ s.manager, op.tends = false) →
    (∀ b, .resetFields b ∉ s.manager) → 0 < k + s.resetsOutstanding → s.shared.st.childPid = none

end System

/-- A step of another task keeps it. -/
theorem System.OneReset.frame {k k' : ℕ} (hs : s.OneReset k) (hc : s'.Counted k')
    (hmanager : s'.manager = s.manager)
    (hlength : s'.shared.children.length = s.shared.children.length)
    (hwritten : ∀ j, s'.writtenTo j = s.writtenTo j)
    (hpid : s'.shared.st.childPid = s.shared.st.childPid ∨ s'.shared.st.childPid = none)
    (hsum : k' + s'.resetsOutstanding = k + s.resetsOutstanding)
    (hle : s'.resetsOutstanding ≤ s.resetsOutstanding) : s'.OneReset k' := by
  have hnone : s.shared.st.childPid = none → s'.shared.st.childPid = none := by
    intro h
    rcases hpid with hpid | hpid
    · rw [hpid, h]
    · exact hpid
  refine ⟨hc, ?_, Nat.le_trans hle hs.single, ?_, ?_, ?_, ?_⟩
  · rw [hmanager, hlength, hsum]
    intro hnil
    exact (hs.returned hnil).imp_right fun h => by omega
  · rw [hmanager]
    intro htends hmark
    have hzero := hs.settled htends hmark
    omega
  · rw [hmanager]
    exact hs.marking
  · rw [hmanager, hlength, hwritten, hsum]
    exact fun pid hmem => ⟨(hs.unmarked pid hmem).1, fun h => hnone ((hs.unmarked pid hmem).2 h)⟩
  · rw [hmanager, hsum]
    exact fun hne hidle hreset hpos => hnone (hs.cleared hne hidle hreset hpos)

section Manager

variable {k : ℕ} {choice : Choice} {op : ManagerOp} {rest ops : List ManagerOp}

/-- The manager goes from one point with a child to another. -/
theorem System.OneReset.keepsTending (hs : s.OneReset k) (hc : s'.Counted k)
    (hops : s.manager = [op]) (hop : op.tends = true) (hops' : ∃ op ∈ s'.manager, op.tends = true)
    (hmark : ∀ pid, .markRunning pid ∉ s'.manager)
    (hout : s'.resetsOutstanding = s.resetsOutstanding) : s'.OneReset k := by
  have htends : ∃ op ∈ s.manager, op.tends = true := ⟨op, by simp [hops], hop⟩
  have hzero : s.resetsOutstanding = 0 := by
    refine hs.settled htends fun pid hmem => ?_
    rw [hops, List.mem_singleton] at hmem
    rw [← hmem] at hop
    cases hop
  have hnone : ¬ ∀ op ∈ s'.manager, op.tends = false := by
    intro hall
    obtain ⟨op', hop', htends'⟩ := hops'
    rw [hall op' hop'] at htends'
    cases htends'
  refine ⟨hc, fun hnil => ?_, ?_, fun _ _ => ?_, fun pid hmem => absurd hmem (hmark pid),
    fun pid hmem => absurd hmem (hmark pid), fun _ hall => absurd hall hnone⟩
  · obtain ⟨op', hop', -⟩ := hops'
    rw [hnil] at hop'
    cases hop'
  · rw [hout]
    exact hs.single
  · rw [hout, hzero]

/-- It goes from one point without a child to another, or returns there. -/
theorem System.OneReset.staysIdle (hs : s.OneReset k) (hc : s'.Counted k) (hops : s.manager = [op])
    (hop : op.tends = false) (hdetail : op.detail = false)
    (hops' : ∀ op ∈ s'.manager, op.tends = false) (hmark : ∀ pid, .markRunning pid ∉ s'.manager)
    (hlength : s'.shared.children.length = s.shared.children.length)
    (hpid : s'.shared.st.childPid = s.shared.st.childPid ∨ s'.shared.st.childPid = none)
    (hout : s'.resetsOutstanding = s.resetsOutstanding) : s'.OneReset k := by
  have hne : s.manager ≠ [] := by simp [hops]
  have hidle : ∀ op ∈ s.manager, op.tends = false := by
    intro op' hop'
    rw [hops, List.mem_singleton] at hop'
    rwa [hop']
  have hlen : s'.shared.children.length = k + s'.resetsOutstanding := by
    rw [hlength, hout]
    exact hs.idle hne hidle
  have hnone : ¬ ∃ op ∈ s'.manager, op.tends = true := by
    rintro ⟨op', hop', htends⟩
    rw [hops' op' hop'] at htends
    cases htends
  refine ⟨hc, fun _ => .inl hlen, ?_, fun htends => absurd htends hnone,
    fun pid hmem => absurd hmem (hmark pid), fun pid hmem => absurd hmem (hmark pid),
    fun _ _ _ hpos => ?_⟩
  · rw [hout]
    exact hs.single
  · rw [hout] at hpos
    rcases hpid with hpid | hpid
    · rw [hpid]
      refine hs.cleared hne hidle (fun b hmem => ?_) hpos
      rw [hops, List.mem_singleton] at hmem
      rw [← hmem] at hdetail
      cases hdetail
    · exact hpid

/-- It does something on the way to its next point. -/
theorem System.OneReset.detail (hs : s.OneReset k) (hc : s'.Counted k)
    (hops : s.manager = op :: rest) (hdetail : op.detail = true) (hrest : rest ≠ [])
    (hops' : s'.manager = rest)
    (htells : op.Tells s.shared s'.shared)
    (hout : s'.resetsOutstanding = s.resetsOutstanding)
    (hok : ∀ pid, op = .markRunning pid → s.resetsOutstanding = 0) : s'.OneReset k := by
  have htends : op.tends = false := by
    by_contra hcon
    rw [ManagerOp.detail_of_tends (by simpa using hcon)] at hdetail
    cases hdetail
  -- a child that is being marked is marked by the operation at the head
  have hmark : ∀ pid, .markRunning pid ∉ s'.manager := by
    intro pid hmem
    rw [hops'] at hmem
    obtain ⟨firstMsg, heq⟩ := hs.marking pid (by rw [hops]; exact List.mem_cons_of_mem _ hmem)
    rw [hops] at heq
    rw [(List.cons.inj heq).2] at hmem
    simp at hmem
  have htail : (∃ op ∈ s'.manager, op.tends = true) → ∃ op ∈ s.manager, op.tends = true := by
    rw [hops', hops]
    rintro ⟨op', hop', htends'⟩
    exact ⟨op', List.mem_cons_of_mem _ hop', htends'⟩
  have hidle : (∀ op ∈ s'.manager, op.tends = false) → ∀ op ∈ s.manager, op.tends = false := by
    rw [hops', hops]
    intro hall op' hop'
    rcases List.mem_cons.1 hop' with rfl | hop'
    · exact htends
    · exact hall op' hop'
  have hne : s.manager ≠ [] := by simp [hops]
  refine ⟨hc, fun hnil => ?_, ?_, fun h _ => ?_, fun pid hmem => absurd hmem (hmark pid),
    fun pid hmem => absurd hmem (hmark pid), fun _ hall hreset hpos => ?_⟩
  · rw [hops'] at hnil
    exact absurd hnil hrest
  · rw [hout]
    exact hs.single
  · rw [hout]
    by_cases hmarks : ∃ pid, op = .markRunning pid
    · obtain ⟨pid, heq⟩ := hmarks
      exact hok pid heq
    · refine hs.settled (htail h) fun pid hmem => ?_
      rw [hops] at hmem
      rcases List.mem_cons.1 hmem with heq | hmem
      · exact hmarks ⟨pid, heq.symm⟩
      · exact hmark pid (by rwa [hops'])
  · rw [hout] at hpos
    rw [hops'] at hreset
    cases htells with
    | nothing hop htold =>
      rw [htold.childPid]
      refine hs.cleared hne (hidle hall) (fun b hmem => ?_) hpos
      rw [hops] at hmem
      rcases List.mem_cons.1 hmem with heq | hmem
      · exact (hop b).2 heq.symm
      · exact hreset b hmem
    | @running pid =>
      obtain ⟨firstMsg, heq⟩ := hs.marking pid (by simp [hops])
      rw [hops] at heq
      have htakes := hall (.takePipes firstMsg) (by rw [hops', (List.cons.inj heq).2]; simp)
      cases htakes
    | reset => cases hdetail
    | gone hop hpid => exact hpid

/-- A child is spawned: it is the newest, and is to be marked. -/
theorem System.OneReset.spawned {pid : ℕ} {firstMsg : Option Value} (hs : s.OneReset k)
    (hc : s'.Counted k) (hops : s.manager = [.spawn firstMsg])
    (hops' : s'.manager = [.markRunning pid, .publishStatus, .takePipes firstMsg])
    (hshared : s'.shared =
      { s.shared with children := s.shared.children ++ [⟨pid, true, [], false⟩] })
    (hout : s'.resetsOutstanding = s.resetsOutstanding) : s'.OneReset k := by
  have hne : s.manager ≠ [] := by simp [hops]
  have hidle : ∀ op ∈ s.manager, op.tends = false := by simp [hops, ManagerOp.tends]
  have hlength : s'.shared.children.length = s.shared.children.length + 1 := by
    rw [hshared]
    exact List.length_append
  refine ⟨hc, fun hnil => ?_, ?_, fun _ hmark => ?_, fun pid' hmem => ⟨firstMsg, ?_⟩,
    fun _ _ => ⟨?_, fun hpos => ?_⟩, fun _ hall => ?_⟩
  · rw [hops'] at hnil
    cases hnil
  · rw [hout]
    exact hs.single
  · exact absurd (by simp [hops']) (hmark pid)
  · rw [hops'] at hmem ⊢
    simp only [List.mem_cons, ManagerOp.markRunning.injEq, reduceCtorEq, List.not_mem_nil,
      or_false] at hmem
    rw [hmem]
  · rw [hlength, System.writtenTo, hshared, Nat.add_sub_cancel, writtenIn]
    simp
  · rw [hout] at hpos
    rw [hshared]
    exact hs.cleared hne hidle (by simp [hops]) hpos
  · have htakes := hall (.takePipes firstMsg) (by simp [hops'])
    cases htakes

/-- A child has no pipe: the manager returns, and no reset is ever queued. -/
theorem System.OneReset.pipeMissing {firstMsg : Option Value} (hs : s.OneReset k)
    (hc : s'.Counted k) (hops : s.manager = [.takePipes firstMsg]) (hops' : s'.manager = [])
    (hout : s'.resetsOutstanding = s.resetsOutstanding) : s'.OneReset k := by
  have hzero : s'.resetsOutstanding = 0 := by
    rw [hout]
    exact hs.settled ⟨.takePipes firstMsg, by simp [hops], rfl⟩ (by simp [hops])
  refine ⟨hc, fun _ => .inr hzero, by omega, ?_, ?_, ?_, fun hne => absurd hops' hne⟩
  · simp [hops']
  · simp [hops']
  · simp [hops']

/-- The incarnation ends: one reset is outstanding, its own. -/
theorem System.OneReset.cleanup {b : Bool} (hs : s.OneReset k) (hc : s'.Counted k)
    (hops : s.manager = [.cleanup b])
    (hops' : s'.manager = [.resetFields b, .updateQueueDepth, .publishStatus, .afterReset b])
    (hout : s'.resetsOutstanding = s.resetsOutstanding + 1) : s'.OneReset k := by
  have htends : ∃ op ∈ s.manager, op.tends = true := ⟨.cleanup b, by simp [hops], rfl⟩
  have hzero := hs.settled htends (by simp [hops])
  have hnone : ¬ ∃ op ∈ s'.manager, op.tends = true := by simp [hops', ManagerOp.tends]
  refine ⟨hc, fun hnil => ?_, by omega, fun h => absurd h hnone, ?_, ?_, fun _ _ hreset => ?_⟩
  · rw [hops'] at hnil
    cases hnil
  · simp [hops']
  · simp [hops']
  · exact absurd (by simp [hops']) (hreset b)

/-- **A step of the manager keeps to one reset at a time**, where it marks
a child as running only when none is outstanding. -/
theorem System.OneReset.manager (hs : s.OneReset k) (hc : s'.Counted k) (hshaped : s.Shaped)
    (hops : s.manager = op :: rest) (hops' : s'.manager = ops ++ rest)
    (hmoved : op.Moved cfg.manager s.locals s.shared choice s'.shared ops)
    (htells : op.Tells s.shared s'.shared)
    (hout : s'.resetsOutstanding = s.resetsOutstanding + op.isCleanup.toNat)
    (hok : ∀ pid, op = .markRunning pid → s.resetsOutstanding = 0) : s'.OneReset k := by
  rcases hshaped.head_rest hops with ⟨hdetail, hrest⟩ | ⟨hdetail, rfl⟩
  · have hnone : op.isCleanup = false := by
      cases op <;> first | rfl | cases hdetail
    rw [hmoved.eq_nil hdetail] at hops'
    rw [hnone] at hout
    refine hs.detail hc hops hdetail (fun hnil => ?_) hops' htells hout hok
    rw [hnil] at hrest
    obtain ⟨details, op', heq, -⟩ := hrest
    simp at heq
  · have hpid : s'.shared.st.childPid = s.shared.st.childPid ∨ s'.shared.st.childPid = none := by
      cases htells with
      | nothing hop htold => exact .inl htold.childPid
      | running => cases hdetail
      | reset hpid => exact .inl hpid
      | gone hop hpid => exact .inr hpid
    rw [List.append_nil] at hops'
    -- the three kinds of points: one with a child, one without, and the return
    have htending : op.tends = true → op.isCleanup = false →
        (∃ op ∈ ops, op.tends = true) → (∀ pid, .markRunning pid ∉ ops) → s'.OneReset k := by
      intro hop hclean htends hmark
      rw [hclean] at hout
      exact hs.keepsTending hc hops hop (by rwa [hops']) (by rwa [hops']) hout
    have hidle : op.tends = false → op.isCleanup = false → (∀ op ∈ ops, op.tends = false) →
        (∀ pid, .markRunning pid ∉ ops) →
        s'.shared.children.length = s.shared.children.length → s'.OneReset k := by
      intro hop hclean htends hmark hlength
      rw [hclean] at hout
      exact hs.staysIdle hc hops hop hdetail (by rwa [hops']) (by rwa [hops']) hlength hpid hout
    generalize hsh : s'.shared = sh at hmoved hidle
    cases hmoved with
    | detail hop haside =>
      rw [hdetail] at hop
      cases hop
    | wroteFirst | lostFirst => cases hdetail
    | returned hop =>
      refine hidle ?_ ?_ (by simp) (by simp) rfl <;>
        rcases hop with rfl | rfl | ⟨b, rfl⟩ <;> rfl
    | dropped | published | spawnFailed => exact hidle rfl rfl (by simp) (by simp) rfl
    | head hop =>
      refine hidle rfl rfl (fun op' hop' => ?_) (fun pid hmem => ?_) rfl
      · rw [List.mem_singleton.1 hop']
        rcases hop with rfl | rfl <;> rfl
      · rcases hop with rfl | rfl <;> cases List.mem_singleton.1 hmem
    | first | underLimit | backoff | woke =>
      exact hidle rfl rfl (by simp [ManagerOp.tends]) (by simp) rfl
    | atLimit hlimit haside =>
      exact hidle rfl rfl (by simp [ManagerOp.tends]) (by simp) (by rw [haside.children])
    | spawned => exact hs.spawned hc hops hops' hsh hout
    | @piped firstMsg =>
      refine htending rfl rfl ⟨.writeLoop, by simp, rfl⟩ fun pid => ?_
      cases firstMsg <;> simp
    | pipeMissing => exact hs.pipeMissing hc hops hops' hout
    | loop | halted | received | lost | wrote =>
      exact htending rfl rfl (by simp [ManagerOp.tends]) (by simp)
    | @left _ b _ details hdetails haside =>
      refine htending rfl rfl ⟨.cleanup b, by simp, rfl⟩ fun pid hmem => ?_
      rcases List.mem_append.1 hmem with hmem | hmem
      · cases hdetails _ hmem
      · cases List.mem_singleton.1 hmem
    | cleanup => exact hs.cleanup hc hops hops' hout

end Manager

/-- The other tasks name no pid. -/
theorem Stepped.childPid (h : Stepped cfg s l s') (hl : ∀ choice, l ≠ .manager choice) :
    s'.shared.st.childPid = s.shared.st.childPid ∨ s'.shared.st.childPid = none := by
  cases h with
  | manager => exact absurd rfl (hl _)
  | handler hops hrun | writer hops hrun => exact .inl (ClientOp.sameTold_run hrun).childPid
  | @routerTurn event rest =>
    exact .inl (congrArg (·.st.childPid) (RouterOp.dispatch_frame event rest s.shared))
  | router hops hrun => exact (RouterOp.told_run hrun).2.1
  | reaper hops hrun => exact .inl (ReaperOp.sameTold_run hrun).childPid
  | heartbeat hops hrun => exact .inl (HeartbeatOp.sameTold_run hrun).childPid
  | connect | receive | disconnect | decodeError | handshakeTimeout | handshakeTick
  | writerFails | reaperTick | heartbeatTick | heartbeatEvent | childOutput | readerEnds
  | childExits | shutdown | elapse => exact .inl rfl

/-- **Every step keeps to one reset at a time.** -/
theorem Stepped.oneReset {k : ℕ} (h : Stepped cfg s l s') (hshaped : s.Shaped)
    (hok : s.marksAfterReset l = true) (hs : s.OneReset k) : s'.OneReset (s.noteReset k l) := by
  have hsum := h.resetsOutstanding
  have hc := h.counted hshaped hs.toCounted
  by_cases hl : ∃ choice, l = .manager choice
  · obtain ⟨choice, rfl⟩ := hl
    cases h with
    | @manager _ op rest ops loc sh hops hlock hrun =>
      rw [System.endsChild_manager hops] at hsum
      refine hs.manager hc hshaped hops rfl (ManagerOp.moved_run hrun) (ManagerOp.tells_run hrun)
        hsum fun pid hop => ?_
      rw [System.marksAfterReset, hops, hop] at hok
      exact of_decide_eq_true hok
  · have hl' : ∀ choice, l ≠ .manager choice := fun choice heq => hl ⟨choice, heq⟩
    rw [System.endsChild_of_not_manager s hl', Bool.toNat_false, Nat.add_zero] at hsum
    have hmanager := h.manager_eq hl'
    exact hs.frame hc hmanager (h.written hl').1 (h.written hl').2 (h.childPid hl')
      (by rw [System.noteReset]; omega) (by omega)

theorem oneReset_init (cfg : Config) : (System.init cfg).OneReset 0 where
  toCounted := counted_init cfg
  returned := fun _ => .inl rfl
  single := Nat.zero_le _
  settled := fun _ _ => rfl
  marking := by simp [System.init]
  unmarked := by simp [System.init]
  cleared := fun _ _ _ hpos => absurd hpos (Nat.lt_irrefl 0)

/-! ## Whose request, whose pid -/

/-- The request was written to the incarnation, and to no other. -/
def System.WrittenOnlyTo (s : System) (key : String) (j : ℕ) : Prop :=
  s.writesOf key j ≠ [] ∧ ∀ i, i ≠ j → s.writesOf key i = []

/-- **What the reset of incarnation `k` may find in the state**: no request
it answers was written to a later incarnation only, and the pid it clears
is that of no later one. -/
structure System.FindsOwn (s : System) (k : ℕ) : Prop where
  pending : ∀ key p, s.shared.st.pending.get key = some p → ∀ j, k < j → ¬ s.WrittenOnlyTo key j
  childPid : ∀ j ch, k < j → s.shared.children[j]? = some ch →
    s.shared.st.childPid ≠ some ch.pid

/-- A state with one reset at a time: when it is processed, a later
incarnation, if there is one, is yet to be marked as running. -/
theorem System.OneReset.findsOwn {k : ℕ} (hs : s.OneReset k)
    (hreset : s.resetting.isSome = true) : s.FindsOwn k := by
  have hpos : 0 < s.resetsOutstanding := by
    rw [System.resetting] at hreset
    rw [System.resetsOutstanding]
    split at hreset
    · rename_i reason rest hops
      rw [hops, List.countP_cons]
      simp only [RouterOp.isReset, if_true]
      omega
    · cases hreset
  have hone := hs.single
  -- the one reset is this one, so there is a later child only while it is marked
  have hlater : ∀ j, k < j → j < s.shared.children.length →
      j = s.shared.children.length - 1 ∧ ∃ pid, .markRunning pid ∈ s.manager := by
    intro j hj hlt
    by_cases htends : ∃ op ∈ s.manager, op.tends = true
    · have hlen := hs.tending htends
      refine ⟨by omega, ?_⟩
      by_contra hmark
      have hzero := hs.settled htends fun pid hmem => hmark ⟨pid, hmem⟩
      omega
    · have hidle : ∀ op ∈ s.manager, op.tends = false := by
        intro op hop
        by_contra hcon
        exact htends ⟨op, hop, by simpa using hcon⟩
      have hlen : s.shared.children.length = k + s.resetsOutstanding := by
        by_cases hnil : s.manager = []
        · exact (hs.returned hnil).resolve_right (by omega)
        · exact hs.idle hnil hidle
      omega
  refine ⟨fun key p hp j hj hwritten => ?_, fun j ch hj hch hpid => ?_⟩
  · by_cases hlt : j < s.shared.children.length
    · obtain ⟨rfl, pid, hmem⟩ := hlater j hj hlt
      refine hwritten.1 ?_
      rw [System.writesOf, (hs.unmarked pid hmem).1, List.filter_nil]
    · refine hwritten.1 ?_
      rw [System.writesOf, System.writtenTo, writtenIn, List.getElem?_eq_none (by omega)]
      rfl
  · have hlt := (List.getElem?_eq_some_iff.1 hch).1
    obtain ⟨-, pid, hmem⟩ := hlater j hj hlt
    rw [(hs.unmarked pid hmem).2 (by omega)] at hpid
    cases hpid

/-- The runs of a mux, with the number of resets processed so far. -/
abbrev ResetRun (cfg : Config) (ok : System → Label → Prop) (s : System) (k : ℕ) : Prop :=
  Run.Reach (Run.track (System.step cfg) fun k s l => s.noteReset k l) (fun p l => ok p.1 l)
    (System.init cfg, 0) (s, k)

/-- **A reset touches only the incarnation it belongs to**, in the runs
where an incarnation is marked as running only when no reset is
outstanding. The reset that is processed after `k` others is that of
incarnation `k`: the one queued at the end of incarnation `j` has `j`
others before it. -/
theorem reset_keeps_to_its_child (cfg : Config) (s : System) (k : ℕ)
    (h : ResetRun cfg (fun s l => s.marksAfterReset l = true) s k) :
    (s.resetting.isSome = true → s.FindsOwn k) ∧
    ∀ choice, s.endsChild (.manager choice) = true →
      s.shared.children.length = k + s.resetsOutstanding + 1 := by
  have hone : s.OneReset k := by
    refine h.invariant_of (I := fun p => p.1.OneReset p.2)
      (J := fun p => p.1.Shaped) (fun p hr => ?_) (oneReset_init cfg) ?_
    · exact Reachable.shaped hr.untrack
    · rintro ⟨s, k⟩ l ⟨s', k'⟩ hok hshaped hs hstep
      obtain ⟨hstep, rfl⟩ := Run.track_eq_some.1 hstep
      exact (stepped_of_step hstep).oneReset hshaped hok hs
  refine ⟨fun hreset => ?_, fun choice hends => ?_⟩
  · exact hone.findsOwn hreset
  · refine hone.tending ?_
    rw [System.endsChild] at hends
    cases hops : s.manager with
    | nil =>
      rw [hops] at hends
      cases hends
    | cons op rest =>
      rw [hops] at hends
      cases op with
      | cleanup b => exact ⟨_, List.mem_cons_self .., rfl⟩
      | _ => cases hends

/-- The reset is processed before the next child is spawned. -/
theorem reset_keeps_to_its_child_writtenRun :
    (Config.small.tracked System.noteReset 0 writtenRun).1.shared.st.pending.keys = ["c1:1"] ∧
      (Config.small.tracked System.noteReset 0 writtenRun).1.FindsOwn
        (Config.small.tracked System.noteReset 0 writtenRun).2 := by
  have htracks : Config.small.tracks System.noteReset 0 writtenRun = true := by decide +kernel
  exact ⟨by decide +kernel, (reset_keeps_to_its_child .small _ _
    (Config.small.reachable_tracked (fun p l => p.1.marksAfterReset l) htracks
      (by decide +kernel))).1 (by decide +kernel)⟩

/-- The child exits, and the next one is running, and has been written a
request, when the router takes the reset. -/
def lateResetRun : List Label :=
  startRun ++ handshakeRun ++
    [Label.manager .received, .manager .go, .manager .written, .manager .go,
      .childExits 0, .manager .childExited, .manager .go, .manager .go] ++ respawnRun ++
    [Label.receive 1 (.object [("id", .number (.posInt 7)), ("method", .string "tools/call")]),
      .handler 1, .handler 1, .handler 1, .handler 1, .handler 1, .handler 1,
      .manager .received, .manager .go, .manager .written, .manager .go, .routerTurn]

/-- **The reset of one incarnation hits the next**: it answers a request
that was written to that one only, and clears its pid while it runs. -/
theorem not_findsOwn_lateResetRun :
    (¬ ∀ (cfg : Config) (s : System) (k : ℕ), ResetRun cfg Run.Any s k →
      s.resetting.isSome = true → ∀ key p, s.shared.st.pending.get key = some p →
        p.clientId ∈ s.shared.st.clients → ¬ s.WrittenOnlyTo key (k + 1)) ∧
    ¬ ∀ (cfg : Config) (s : System) (k : ℕ), ResetRun cfg Run.Any s k →
      s.resetting.isSome = true → ∀ ch, s.shared.children[k + 1]? = some ch →
        ch.alive = true → s.shared.st.childPid ≠ some ch.pid := by
  have htracks : Config.small.tracks System.noteReset 0 lateResetRun = true := by decide +kernel
  have hrun := (Config.small.reachable_tracked (fun _ _ => true) htracks
    (by decide +kernel)).forget
  have hreset : (Config.small.tracked System.noteReset 0 lateResetRun).1.resetting.isSome =
      true := by decide +kernel
  have hk : (Config.small.tracked System.noteReset 0 lateResetRun).2 = 0 := by decide +kernel
  constructor
  · intro hall
    have hpending : ((Config.small.tracked System.noteReset 0
        lateResetRun).1.shared.st.pending.get "c1:1").any (fun p => decide (p.clientId ∈
          (Config.small.tracked System.noteReset 0 lateResetRun).1.shared.st.clients)) =
        true := by decide +kernel
    obtain ⟨p, hp, hclient⟩ := (Option.any_eq_true ..).1 hpending
    refine hall .small _ _ hrun hreset "c1:1" p hp (of_decide_eq_true hclient) ?_
    rw [hk]
    refine ⟨List.isEmpty_eq_false_iff.1 (by decide +kernel), fun i hi => ?_⟩
    match i with
    | 0 => exact List.isEmpty_iff.1 (by decide +kernel)
    | 1 => exact absurd rfl hi
    | i + 2 =>
      have hlength : (Config.small.tracked System.noteReset 0
          lateResetRun).1.shared.children.length = 2 := by decide +kernel
      rw [System.writesOf, System.writtenTo, writtenIn, List.getElem?_eq_none (by omega)]
      rfl
  · intro hall
    have hchild : ((Config.small.tracked System.noteReset 0
        lateResetRun).1.shared.children[1]?).any (fun ch => ch.alive && decide
          ((Config.small.tracked System.noteReset 0 lateResetRun).1.shared.st.childPid =
            some ch.pid)) = true := by decide +kernel
    obtain ⟨ch, hch, hruns⟩ := (Option.any_eq_true ..).1 hchild
    rw [Bool.and_eq_true, decide_eq_true_eq] at hruns
    exact hall .small _ _ hrun hreset ch (by rw [hk]; exact hch) hruns.1 hruns.2

end Mux

end VcOperator
