import VcOperator.Common.Names
import VcOperator.Mux.Helpers.Moves
/-!
# The ids the mux issues

`c<client>:<n>` reads back: the client's number holds no colon, and a
decimal numeral determines its number. Since the counter behind `n` only
grows, no two issued ids are equal, and the entries of `pending` stand
under the ids that were issued for them.
-/

namespace VcOperator

namespace Mux

/-! ## The texts -/

theorem colon_notMem_toString (n : ℕ) : ':' ∉ (toString n).toList :=
  notMem_toString (by decide) n

/-- **An issued id determines its client and its number.** -/
theorem globalId_injective {c c' n n' : ℕ} (h : globalId c n = globalId c' n') :
    c = c' ∧ n = n' := by
  have hl : (toString c).toList ++ ':' :: (toString n).toList =
      (toString c').toList ++ ':' :: (toString n').toList := by
    have := congrArg String.toList h
    simpa [globalId, String.toList_append] using this
  obtain ⟨hc, -, hn⟩ := (List.append_cons_inj_of_notMem (colon_notMem_toString c)
    (colon_notMem_toString n)).1 hl
  exact ⟨toString_injective (String.toList_injective hc),
    toString_injective (String.toList_injective hn)⟩

/-- A probe's id is no request's id. -/
theorem globalId_ne_heartbeatId (c n n' : ℕ) : globalId c n ≠ heartbeatId n' := by
  intro h
  have hl := congrArg (fun s => s.toList.head?) h
  simp [globalId, heartbeatId, String.toList_append] at hl

/-! ## The entries of `pending` -/

/-- **The ids are issued in increasing order, and each entry of `pending`
stands under the one issued for it.** -/
structure Shared.Keyed (sh : Shared) : Prop where
  below : ∀ i ∈ sh.issued, i.n < sh.st.nextGlobalId
  increasing : sh.issued.Pairwise fun i j => i.n < j.n
  pending : ∀ k p, sh.st.pending.get k = some p → ∃ i ∈ sh.issued,
    k = globalId i.clientId i.n ∧ i.clientId = p.clientId ∧ i.occ = p.localId.occ ∧
      i.isInitialize = p.isInitialize

/-- Nothing is issued, and `pending` gains nothing. -/
structure Shrinks (sh sh' : Shared) : Prop where
  nextGlobalId : sh'.st.nextGlobalId = sh.st.nextGlobalId
  issued : sh'.issued = sh.issued
  pending : ∀ k p, sh'.st.pending.get k = some p → sh.st.pending.get k = some p

variable {sh sh' : Shared}

theorem Quiet.shrinks (h : Quiet sh sh') : Shrinks sh sh' :=
  ⟨h.nextGlobalId, h.issued, fun _ _ hk => h.pending ▸ hk⟩

/-- Replies leave `pending` alone. -/
theorem shrinks_replyAll (sh : Shared) (ds : List Delivery) : Shrinks sh (sh.replyAll ds) :=
  ⟨rfl, rfl, fun _ _ hk => hk⟩

theorem shrinks_unregister (sh : Shared) (c : ℕ) : Shrinks sh (sh.unregister c) :=
  ⟨rfl, rfl, fun _ _ hk => HashMap.get_of_get_retain hk⟩

theorem Shared.Keyed.shrinks (hk : sh.Keyed) (h : Shrinks sh sh') : sh'.Keyed where
  below := by rw [h.issued, h.nextGlobalId]; exact hk.below
  increasing := by rw [h.issued]; exact hk.increasing
  pending := by
    intro k p hp
    rw [h.issued]
    exact hk.pending k p (h.pending k p hp)

/-- An issued number is issued once. -/
theorem Shared.Keyed.eq_of_n_eq (hk : sh.Keyed) {i j : Issue} (hi : i ∈ sh.issued)
    (hj : j ∈ sh.issued) (hn : i.n = j.n) : i = j := by
  by_contra hne
  rcases List.Pairwise.forall_of_forall_of_flip (R := fun i j => i = j ∨ i.n < j.n ∨ j.n < i.n)
    (fun i _ => .inl rfl) (hk.increasing.imp fun h => .inr (.inl h))
    (hk.increasing.imp fun h => .inr (.inr h)) hi hj with h | h | h
  · exact hne h
  · omega
  · omega

/-- **A newly issued id is fresh.** -/
theorem Shared.Keyed.fresh (hk : sh.Keyed) (c : ℕ) :
    sh.st.pending.get (globalId c sh.st.nextGlobalId) = none := by
  cases hget : sh.st.pending.get (globalId c sh.st.nextGlobalId) with
  | none => rfl
  | some p =>
    obtain ⟨i, hi, hid, -⟩ := hk.pending _ p hget
    have hlt := hk.below i hi
    have hn := (globalId_injective hid).2
    omega

theorem Shared.Keyed.insertPending (hk : sh.Keyed) (c : ℕ) (lid : Tagged Value)
    (isInitialize : Bool) : (ClientOp.insertPending sh c lid isInitialize).Keyed where
  below := by
    intro i hi
    rcases List.mem_append.1 hi with hi | hi
    · exact Nat.lt_succ_of_lt (hk.below i hi)
    · rw [List.mem_singleton.1 hi]
      exact Nat.lt_succ_self _
  increasing := by
    refine List.pairwise_append.2 ⟨hk.increasing, List.pairwise_singleton _ _, ?_⟩
    intro i hi j hj
    rw [List.mem_singleton.1 hj]
    exact hk.below i hi
  pending := by
    intro k p hp
    rcases eq_or_ne k (globalId c sh.st.nextGlobalId) with rfl | hne
    · replace hp : (sh.st.pending.insert (globalId c sh.st.nextGlobalId)
          ⟨c, lid, isInitialize, sh.now⟩).get (globalId c sh.st.nextGlobalId) = some p := hp
      rw [HashMap.get_insert, Option.some.injEq] at hp
      subst hp
      exact ⟨_, List.mem_append_right _ (List.mem_singleton.2 rfl), rfl, rfl, rfl, rfl⟩
    · replace hp : (sh.st.pending.insert (globalId c sh.st.nextGlobalId)
          ⟨c, lid, isInitialize, sh.now⟩).get k = some p := hp
      rw [HashMap.get_insert_ne hne] at hp
      obtain ⟨i, hi, hi'⟩ := hk.pending k p hp
      exact ⟨i, List.mem_append_left _ hi, hi'⟩

/-! ## What each task does to them -/

/-- **What a handler's operation issues**: nothing, or one id. -/
inductive Issues (c : ℕ) (sh sh' : Shared) : Prop
  | nothing (h : Shrinks sh sh')
  | one {sh₀ : Shared} {lid : Tagged Value} {isInitialize : Bool} (h : Shrinks sh sh₀)
      (hroom : sh₀.st.pending.len < maxPending)
      (h' : sh' = ClientOp.insertPending sh₀ c lid isInitialize)

theorem Shared.Keyed.issues {c : ℕ} (hk : sh.Keyed) (h : Issues c sh sh') : sh'.Keyed := by
  rcases h with h | ⟨h, -, rfl⟩
  · exact hk.shrinks h
  · exact (hk.shrinks h).insertPending _ _ _

theorem Issues.issued_subset {c : ℕ} (h : Issues c sh sh') : sh.issued ⊆ sh'.issued := by
  rcases h with h | ⟨h, -, rfl⟩
  · rw [h.issued]
    exact .refl _
  · rw [← h.issued]
    exact List.subset_append_left _ _

/-- The counter of the ids never goes back. -/
theorem Issues.nextGlobalId_le {c : ℕ} (h : Issues c sh sh') :
    sh.st.nextGlobalId ≤ sh'.st.nextGlobalId := by
  rcases h with h | ⟨h, -, rfl⟩
  · exact Nat.le_of_eq h.nextGlobalId.symm
  · rw [← h.nextGlobalId]
    exact Nat.le_succ _

/-- **An entry of `pending` is an old one, or stands under the id issued.** -/
theorem Issues.pending_cases {c : ℕ} (h : Issues c sh sh') {key : String} {p : Pending}
    (hp : sh'.st.pending.get key = some p) :
    sh.st.pending.get key = some p ∨ key = globalId c sh.st.nextGlobalId := by
  rcases h with h | @⟨sh₀, lid, isInitialize, h, -, rfl⟩
  · exact .inl (h.pending key p hp)
  · by_cases hkey : key = globalId c sh₀.st.nextGlobalId
    · rw [h.nextGlobalId] at hkey
      exact .inr hkey
    · rw [ClientOp.insertPending, HashMap.get_insert_ne hkey] at hp
      exact .inl (h.pending key p hp)

theorem ClientOp.Forwarded.issues {c : ℕ} {msg : Tagged Value} {ops : List ClientOp}
    (h : Forwarded c msg sh sh' ops) : Issues c sh sh' := by
  cases h with
  | noId hid => exact .nothing (Quiet.refl sh).shrinks
  | refused hid => exact .nothing (shrinks_replyAll sh _)
  | forwarded hid hroom => exact .one (Quiet.refl sh).shrinks hroom rfl

theorem ClientOp.Initialized.issues {c : ℕ} {val : Value} {lid : Tagged Value}
    {ops : List ClientOp} (h : Initialized c val lid (initializePending sh c) sh' ops) :
    Issues c sh sh' := by
  have hq := (quiet_initializePending sh c).shrinks
  cases h with
  | cached hcached => exact .nothing ⟨hq.nextGlobalId, hq.issued, hq.pending⟩
  | parked hcached hinit => exact .nothing ⟨hq.nextGlobalId, hq.issued, hq.pending⟩
  | refused hcached hinit => exact .nothing ⟨hq.nextGlobalId, hq.issued, hq.pending⟩
  | forwarded hcached hinit hroom => exact .one hq hroom rfl

theorem ClientOp.issues_run {enc : Value → ℕ} {c : ℕ} {op : ClientOp} {ops : List ClientOp}
    (h : op.run enc c sh = some (sh', ops)) : Issues c sh sh' := by
  cases op with
  | forwardRequest msg =>
    rw [run, Option.some.injEq] at h
    exact (forwarded_of_run h).issues
  | flushBuffered buffered =>
    cases buffered with
    | nil => cases h; exact .nothing (Quiet.refl sh).shrinks
    | cons msg buffered =>
      cases hr : runForwardRequest c msg sh with
      | mk sh₁ ops₁ =>
        rw [run, hr] at h
        cases h
        exact (forwarded_of_run hr).issues
  | handleInitialize val lid =>
    rw [run, Option.some.injEq] at h
    exact (initialized_of_run h).issues
  | trySend msg => exact .nothing (quiet_trySend h).1.shrinks
  | send msg isInitialize => exact .nothing (quiet_send h).1.shrinks
  | markServerInitialized msg => exact .nothing (quiet_markServerInitialized h).1.shrinks
  | checkHandshake msg =>
    simp only [run] at h
    split at h <;> cases h <;> exact .nothing (Quiet.refl sh).shrinks
  | rejectTooLarge msg | rejectHandshakeTimeout =>
    cases h; exact .nothing (shrinks_replyAll sh _)
  | unregisterClient => cases h; exact .nothing (shrinks_unregister sh c)
  | completeHandshake =>
    cases h
    simp only [MuxState.markHandshakeComplete]
    split <;> exact .nothing ⟨rfl, rfl, fun _ _ hk => hk⟩
  | bufferMessage msg =>
    cases h
    simp only [MuxState.bufferMessage]
    split <;> exact .nothing ⟨rfl, rfl, fun _ _ hk => hk⟩
  | handleClientMessage _ | updateQueueDepth | publishStatus | releasePermit =>
    cases h; exact .nothing ⟨rfl, rfl, fun _ _ hk => hk⟩

/-- The router issues nothing. -/
theorem RouterOp.shrinks_run {order : List String} {op : RouterOp} {ops : List RouterOp}
    (h : op.run order sh = some (sh', ops)) : Shrinks sh sh' := by
  cases op with
  | broadcast msg => cases h; exact shrinks_replyAll sh _
  | takePending msg id =>
    simp only [run] at h
    split at h <;> cases h
    · exact (Quiet.refl sh).shrinks
    · exact ⟨rfl, rfl, fun _ _ hk => HashMap.get_of_get_remove hk⟩
  | cacheInitialize msg p => cases h; exact ⟨rfl, rfl, fun _ _ hk => hk⟩
  | findTarget msg p =>
    simp only [run] at h
    split at h <;> cases h <;> exact (Quiet.refl sh).shrinks
  | sendTarget msg p => cases h; exact ⟨rfl, rfl, fun _ _ hk => hk⟩
  | resetState reason =>
    simp only [run] at h
    split at h <;> cases h
    refine ⟨rfl, rfl, fun k p hk => ?_⟩
    replace hk : HashMap.get (∅ : HashMap String Pending) k = some p := hk
    rw [HashMap.get_empty] at hk
    cases hk
  | publishStatus => cases h; exact (still_publishStatus sh).shrinks

/-- Nor does the reaper. -/
theorem ReaperOp.shrinks_run {order : List String} {op : ReaperOp} {ops : List ReaperOp}
    (h : op.run order sh = some (sh', ops)) : Shrinks sh sh' := by
  cases op with
  | readTimeout => cases h; exact (Quiet.refl sh).shrinks
  | reap timeout =>
    simp only [run] at h
    split at h <;> cases h
    exact ⟨rfl, rfl, fun _ _ hk => HashMap.get_of_get_retain hk⟩
  | replyExpired expired => cases h; exact shrinks_replyAll sh _
  | publishStatus => cases h; exact (still_publishStatus sh).shrinks

variable {cfg : Config} {ok : System → Label → Prop} {s s' : System}

/-- A step issues one id at most. -/
theorem Routed.issues (h : Routed cfg s s') : ∃ c, Issues c s.shared s'.shared := by
  cases h with
  | @handler c op rest ops sh hops hrun => exact ⟨c, ClientOp.issues_run hrun⟩
  | @writer c op rest ops sh hops hrun => exact ⟨c, ClientOp.issues_run hrun⟩
  | routerTurn hidle hstill hops => exact ⟨0, .nothing hstill.shrinks⟩
  | router hops hrun => exact ⟨0, .nothing (RouterOp.shrinks_run hrun)⟩
  | reaper hops hrun => exact ⟨0, .nothing (ReaperOp.shrinks_run hrun)⟩
  | still hstill => exact ⟨0, .nothing hstill.shrinks⟩
  | connect | receive | endReader | writerFails | reaperTick =>
    exact ⟨0, .nothing ⟨rfl, rfl, fun _ _ h => h⟩⟩

theorem Routed.keyed (h : Routed cfg s s') (hk : s.shared.Keyed) : s'.shared.Keyed := by
  obtain ⟨c, hissues⟩ := h.issues
  exact hk.issues hissues

theorem keyed_init (cfg : Config) : (System.init cfg).shared.Keyed where
  below := fun i hi => by cases hi
  increasing := .nil
  pending := by
    intro k p hp
    replace hp : HashMap.get (∅ : HashMap String Pending) k = some p := hp
    rw [HashMap.get_empty] at hp
    cases hp

/-- **In every reachable state the ids are issued in order and used as keys.** -/
theorem Reachable.keyed (h : Reachable cfg ok s) : s.shared.Keyed :=
  Run.Reach.invariant (I := fun s => s.shared.Keyed) (keyed_init cfg)
    (fun _ _ _ _ hk hs => (routed_of_step hs).keyed hk) h

end Mux

end VcOperator
