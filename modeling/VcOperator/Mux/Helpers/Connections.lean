import VcOperator.Mux.Helpers.Accounts
import VcOperator.Mux.Bounds
import VcOperator.Mux.Departed
/-!
# A connection of the mux

What the steps of a mux do to one client's connection: who ends its reader
loop, that nothing is read after that, and that the client stays
registered while it reads, unless its writer task has failed.
-/

namespace VcOperator

namespace Mux

variable {cfg : Config} {ok : System → Label → Prop} {s s' : System} {sh sh' : Shared}
  {l : Label} {c : ℕ}

/-! ## Who unregisters a client -/

namespace ClientOp

variable {op : ClientOp} {ops : List ClientOp}

/-- Only the operation of that name unregisters, and no operation of a
message goes on with it. -/
theorem unregisters_run {enc : Value → ℕ} (h : op.run enc c sh = some (sh', ops)) :
    ((op = .unregisterClient ∧ sh' = sh.unregister c) ∨ sh.st.clients ⊆ sh'.st.clients) ∧
      .unregisterClient ∉ ops := by
  have hforwards : ∀ {msg : Tagged Value} {sh₁ : Shared} {ops₁ : List ClientOp},
      Forwarded c msg sh sh₁ ops₁ → sh.st.clients ⊆ sh₁.st.clients := by
    rintro _ _ _ (_ | _ | _) <;> exact List.Subset.refl _
  refine ⟨?_, fun hmem => by cases goesOn_of_run h hmem⟩
  cases op with
  | unregisterClient => cases h; exact .inl ⟨rfl, rfl⟩
  | forwardRequest msg =>
    rw [run, Option.some.injEq] at h
    exact .inr (hforwards (forwarded_of_run h))
  | flushBuffered buffered =>
    cases buffered with
    | nil => cases h; exact .inr (List.Subset.refl _)
    | cons msg buffered =>
      cases hr : runForwardRequest c msg sh with
      | mk sh₁ ops₁ =>
        rw [run, hr] at h
        cases h
        exact .inr (hforwards (forwarded_of_run hr))
  | handleInitialize val lid =>
    rw [run, Option.some.injEq] at h
    have hq := (quiet_initializePending sh c).clients
    cases initialized_of_run h <;> exact .inr (hq ▸ List.Subset.refl _)
  | trySend msg => exact .inr (quiet_trySend h).1.keepsWork.clients
  | send msg isInitialize => exact .inr (quiet_send h).1.keepsWork.clients
  | markServerInitialized msg => exact .inr (quiet_markServerInitialized h).1.keepsWork.clients
  | checkHandshake msg =>
    simp only [run] at h
    split at h <;> cases h <;> exact .inr (List.Subset.refl _)
  | completeHandshake =>
    cases h
    obtain ⟨hs, hst, -⟩ := sh.st.markHandshakeComplete_spec c
    exact .inr (by rw [hst]; exact List.Subset.refl _)
  | bufferMessage msg =>
    cases h
    obtain ⟨hs, hst, -⟩ := sh.st.bufferMessage_spec c msg
    exact .inr (by rw [hst]; exact List.Subset.refl _)
  | handleClientMessage _ | rejectTooLarge _ | rejectHandshakeTimeout | updateQueueDepth
  | publishStatus | releasePermit => cases h; exact .inr (List.Subset.refl _)

/-- So a client stays registered, unless the operation is its own `unregister_client`. -/
theorem registered_run {enc : Value → ℕ} {c' : ℕ} (h : op.run enc c sh = some (sh', ops))
    (hne : c' = c → op ≠ .unregisterClient) (hc' : c' ∈ sh.st.clients) :
    c' ∈ sh'.st.clients := by
  rcases (unregisters_run h).1 with ⟨hop, rfl⟩ | hsub
  · have hother : c' ≠ c := fun he => hne he hop
    exact List.mem_filter.2 ⟨hc', by simpa using hother⟩
  · exact hsub hc'

end ClientOp

/-! ## The reader loop -/

/-- The labels that end a client's reader loop. -/
def System.EndsReader (s : System) (c : ℕ) (l : Label) : Prop :=
  l = .disconnect c ∨ l = .decodeError c ∨
    l = .handshakeTick c ∧ s.shared.st.isHandshakeTimedOut s.shared.now c = true

/-- **Who ends a reader loop**, and that this is all that step does. -/
theorem Stepped.reader_ends (h : Stepped cfg s l s') (hreads : s.readers c = true)
    (hends : s'.readers c = false) : s.EndsReader c l ∧ s'.shared = s.shared := by
  cases h with
  | @connect hpermit =>
    rw [System.connect_readers] at hends
    rcases eq_or_ne c s.shared.st.nextClientId with rfl | hne
    · rw [Function.update_self] at hends
      cases hends
    · rw [Function.update_of_ne hne, hreads] at hends
      cases hends
  | @disconnect c₀ hidle | @decodeError c₀ hidle | @handshakeTimeout c₀ hidle hlate =>
    have hc : c = c₀ := by
      by_contra hne
      rw [System.endReader_readers, Function.update_of_ne hne, hreads] at hends
      cases hends
    subst hc
    refine ⟨?_, rfl⟩
    first
    | exact .inl rfl
    | exact .inr (.inl rfl)
    | exact .inr (.inr ⟨rfl, hlate⟩)
  | receive | handshakeTick | writerFails | handler | writer | routerTurn | router | reaperTick
  | reaper | heartbeatTick | heartbeatEvent | heartbeat | manager | childOutput | readerEnds
  | childExits | shutdown | elapse =>
    have hsame : s.readers c = false := hends
    rw [hreads] at hsame
    cases hsame

/-- A loop that has ended does not begin again. -/
theorem Stepped.reader_ended (h : Stepped cfg s l s') (hc : c < s.shared.st.nextClientId)
    (hended : s.readers c = false) : s'.readers c = false := by
  cases h with
  | @connect hpermit =>
    rw [System.connect_readers, Function.update_of_ne (by omega)]
    exact hended
  | @disconnect c₀ hidle | @decodeError c₀ hidle | @handshakeTimeout c₀ hidle hlate =>
    rw [System.endReader_readers]
    rcases eq_or_ne c c₀ with rfl | hne
    · exact Function.update_self ..
    · rwa [Function.update_of_ne hne]
  | receive | handshakeTick | writerFails | handler | writer | routerTurn | router | reaperTick
  | reaper | heartbeatTick | heartbeatEvent | heartbeat | manager | childOutput | readerEnds
  | childExits | shutdown | elapse => exact hended

/-- Nothing is read from a client after its loop has ended. -/
theorem Routed.received_of_ended (h : Routed cfg s s') (hs : s.Sound)
    (hended : s.readers c = false) {msg : Tagged Value} (hm : msg ∈ s'.shared.received)
    (hclient : msg.occ.client = c) : msg ∈ s.shared.received := by
  rcases h.received hs with hrec | ⟨c₀, frame, ⟨hreads, -⟩, rfl⟩
  · rwa [hrec] at hm
  · rcases List.mem_append.1 (show msg ∈ s.shared.received ++ [_] from hm) with hold | hnew
    · exact hold
    · have hc : c₀ = c := by rw [← hclient, List.mem_singleton.1 hnew]
      rw [hc, hended] at hreads
      cases hreads

/-! ## The registration -/

/-- **A connection in order**: its writer task has not failed, and while
its reader loop runs the client is registered and stays so. -/
structure System.Connected (s : System) (c : ℕ) : Prop where
  writers : s.writers c = []
  registered : s.readers c = true → c ∈ s.shared.st.clients
  handlers : s.readers c = true → .unregisterClient ∉ s.handlers c

/-- No operation of the other tasks takes a client off the list. -/
theorem System.Connected.of_shared {t : System} (h : s.Connected c)
    (hclients : s.shared.st.clients ⊆ t.shared.st.clients) (hreaders : t.readers c = s.readers c)
    (hhandlers : t.handlers c = s.handlers c) (hwriters : t.writers c = s.writers c) :
    t.Connected c where
  writers := hwriters.trans h.writers
  registered := fun hreads => hclients (h.registered (hreaders ▸ hreads))
  handlers := fun hreads => hhandlers ▸ h.handlers (hreaders ▸ hreads)

/-- A connection whose loop has ended has only its writer task to be in order. -/
theorem System.Connected.of_ended {t : System} (h : s.Connected c)
    (hended : t.readers c = false) (hwriters : t.writers c = s.writers c) : t.Connected c where
  writers := hwriters.trans h.writers
  registered := fun hreads => by rw [hended] at hreads; cases hreads
  handlers := fun hreads => by rw [hended] at hreads; cases hreads

/-- **A connection stays in order** until its writer task fails. -/
theorem Stepped.connected (h : Stepped cfg s l s') (hl : l ≠ .writerFails c)
    (hlt : c < s.shared.st.nextClientId) (hc : s.Connected c) : s'.Connected c := by
  cases h with
  | connect =>
    have hne : c ≠ s.shared.st.nextClientId := by omega
    refine hc.of_shared (fun _ hm => List.mem_insert_of_mem hm) ?_ ?_ rfl
    · rw [System.connect_readers, Function.update_of_ne hne]
    · rw [System.connect_handlers, Function.update_of_ne hne]
  | @receive c₀ msg hidle =>
    refine ⟨hc.writers, hc.registered, fun hreads => ?_⟩
    change .unregisterClient ∉ Function.update s.handlers c₀ _ c
    rcases eq_or_ne c c₀ with rfl | hne
    · rw [Function.update_self]
      simp
    · rw [Function.update_of_ne hne]
      exact hc.handlers hreads
  | @disconnect c₀ hidle | @decodeError c₀ hidle | @handshakeTimeout c₀ hidle hlate =>
    rcases eq_or_ne c c₀ with rfl | hne
    · exact hc.of_ended (Function.update_self ..) rfl
    · refine hc.of_shared (List.Subset.refl _) ?_ ?_ rfl
      · rw [System.endReader_readers, Function.update_of_ne hne]
      · rw [System.endReader_handlers, Function.update_of_ne hne]
  | @writerFails c₀ =>
    have hne : c ≠ c₀ := fun he => hl (he ▸ rfl)
    exact hc.of_shared (List.Subset.refl _) rfl rfl (Function.update_of_ne hne ..)
  | @handler c₀ op rest ops sh hops hrun =>
    have hnot := (ClientOp.unregisters_run hrun).2
    have hown : c = c₀ → s.readers c = true → .unregisterClient ∉ op :: rest := by
      rintro rfl hreads
      exact hops ▸ hc.handlers hreads
    refine ⟨hc.writers, fun hreads => ?_, fun hreads => ?_⟩
    · refine ClientOp.registered_run hrun (fun he hop => ?_) (hc.registered hreads)
      exact hown he hreads (hop ▸ List.mem_cons_self ..)
    · change .unregisterClient ∉ Function.update s.handlers c₀ (ops ++ rest) c
      rcases eq_or_ne c c₀ with he | hne
      · rw [he, Function.update_self]
        have hrest := (not_or.1 (List.mem_cons.not.1 (hown he hreads))).2
        exact fun hmem => (List.mem_append.1 hmem).elim hnot hrest
      · rw [Function.update_of_ne hne]
        exact hc.handlers hreads
  | @writer c₀ op rest ops sh hops hrun =>
    have hne : c ≠ c₀ := by
      rintro rfl
      rw [hc.writers] at hops
      cases hops
    refine ⟨?_, fun hreads => ?_, hc.handlers⟩
    · exact (Function.update_of_ne hne ..).trans hc.writers
    · exact ClientOp.registered_run hrun (fun he => absurd he hne) (hc.registered hreads)
  | @routerTurn event rest hidle hevents =>
    exact hc.of_shared (still_dispatch event rest s.shared).keepsWork.clients rfl rfl rfl
  | router hops hrun => exact hc.of_shared (RouterOp.keepsWork_run hrun).clients rfl rfl rfl
  | reaper hops hrun => exact hc.of_shared (ReaperOp.keepsWork_run hrun).clients rfl rfl rfl
  | heartbeat hops hrun =>
    exact hc.of_shared (HeartbeatOp.still_run hrun).keepsWork.clients rfl rfl rfl
  | manager hops hlock hrun =>
    exact hc.of_shared (ManagerOp.still_run hrun).keepsWork.clients rfl rfl rfl
  | handshakeTick | reaperTick | heartbeatTick | heartbeatEvent | childOutput | readerEnds
  | childExits | shutdown | elapse => exact hc.of_shared (List.Subset.refl _) rfl rfl rfl

/-- Nobody has a writer task under an id that is not issued. -/
theorem Reachable.writers_unissued (h : Reachable cfg ok s) (hc : s.shared.st.nextClientId ≤ c) :
    s.writers c = [] := by
  suffices hall : ∀ c, s.shared.st.nextClientId ≤ c → s.writers c = [] from hall c hc
  refine h.invariant_of (I := fun s => ∀ c, s.shared.st.nextClientId ≤ c → s.writers c = [])
    (fun _ hr => Reachable.sound hr) (fun _ _ => rfl) ?_
  intro s l s' _ hs hidle hstep c hc
  have hold : s.writers c = [] := hidle c (((routed_of_step hstep).nextClientId_le hs).trans hc)
  cases stepped_of_step hstep with
  | @writerFails c₀ hlt =>
    have hne : c ≠ c₀ := by
      rintro rfl
      exact absurd hc (Nat.not_le.2 hlt)
    exact (Function.update_of_ne hne ..).trans hold
  | @writer c₀ op rest ops sh hops hrun =>
    have hne : c ≠ c₀ := by
      rintro rfl
      rw [hold] at hops
      cases hops
    exact (Function.update_of_ne hne ..).trans hold
  | connect | receive | disconnect | decodeError | handshakeTimeout | handshakeTick | handler
  | routerTurn | router | reaperTick | reaper | heartbeatTick | heartbeatEvent | heartbeat
  | manager | childOutput | readerEnds | childExits | shutdown | elapse => exact hold

/-- A client that has just connected is connected. -/
theorem connected_connect (h : Reachable cfg ok s) :
    s.connect.Connected s.shared.st.nextClientId where
  writers := h.writers_unissued le_rfl
  registered := fun _ => List.mem_insert_self
  handlers := fun _ => by
    rw [System.connect_handlers, Function.update_self]
    simp

end Mux

end VcOperator
