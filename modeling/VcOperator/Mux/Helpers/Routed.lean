import VcOperator.Mux.Helpers.Frames
import VcOperator.Mux.Helpers.Steps
/-!
# The steps that move requests

A request lives in `pending`, in `init_waiting`, in a handshake buffer,
on its client's channel, or in the hands of a handler, the router or the
reaper. `Quiet` says of two shared states that none of these containers
differ, apart from emptying the cached handshake; `Still` adds that
nothing has happened to an `initialize` request, and the heartbeat
inspector and the manager only ever make still steps. `Routed` is a step
in those terms, coarser than `Stepped`.
-/

namespace VcOperator

namespace Mux

/-- **Nothing a request can be in has changed.** The cached handshake may
have been emptied. -/
structure Quiet (sh sh' : Shared) : Prop where
  nextClientId : sh'.st.nextClientId = sh.st.nextClientId
  nextGlobalId : sh'.st.nextGlobalId = sh.st.nextGlobalId
  clients : sh'.st.clients = sh.st.clients
  pending : sh'.st.pending = sh.st.pending
  initWaiting : sh'.st.initWaiting = sh.st.initWaiting
  buffered : ∀ c, sh'.st.bufferedMessages c = sh.st.bufferedMessages c
  handshake : ∀ c, (sh'.st.clientHandshakes.get c).isSome = (sh.st.clientHandshakes.get c).isSome
  received : sh'.received = sh.received
  sent : sh'.sent = sh.sent
  issued : sh'.issued = sh.issued
  cache : (sh'.st.cachedInitialize = sh.st.cachedInitialize ∧
      sh'.st.initializing = sh.st.initializing) ∨
    (sh'.st.cachedInitialize = none ∧ sh'.st.initializing = false)

/-- Where the state itself is the same, so is all of it. -/
theorem Quiet.of_st_eq {sh sh' : Shared} (hst : sh'.st = sh.st)
    (hreceived : sh'.received = sh.received) (hsent : sh'.sent = sh.sent)
    (hissued : sh'.issued = sh.issued) : Quiet sh sh' where
  nextClientId := by rw [hst]
  nextGlobalId := by rw [hst]
  clients := by rw [hst]
  pending := by rw [hst]
  initWaiting := by rw [hst]
  buffered := fun _ => by rw [hst]
  handshake := fun _ => by rw [hst]
  received := hreceived
  sent := hsent
  issued := hissued
  cache := .inl ⟨by rw [hst], by rw [hst]⟩

namespace Quiet

variable {sh sh' sh'' : Shared}

@[refl] theorem refl (sh : Shared) : Quiet sh sh :=
  .of_st_eq rfl rfl rfl rfl

/-- What is cached after a quiet step was cached before. -/
theorem cached_of_some (h : Quiet sh sh') {v : Value}
    (hv : sh'.st.cachedInitialize = some v) : sh.st.cachedInitialize = some v := by
  rcases h.cache with ⟨hc, -⟩ | ⟨hc, -⟩
  · rw [← hc, hv]
  · rw [hc] at hv; cases hv

/-- And a handshake that is running was running. -/
theorem initializing_of_true (h : Quiet sh sh') (hi : sh'.st.initializing = true) :
    sh.st.initializing = true := by
  rcases h.cache with ⟨-, hc⟩ | ⟨-, hc⟩
  · rw [← hc, hi]
  · rw [hc] at hi; cases hi

end Quiet

/-- **Nor has anything happened to an `initialize` request**, unless it is
the reset that emptied the cache. -/
structure Still (sh sh' : Shared) : Prop extends Quiet sh sh' where
  events : (sh'.initEvents = sh.initEvents ∧
      sh'.st.cachedInitialize = sh.st.cachedInitialize) ∨
    (sh'.initEvents = sh.initEvents ++ [.reset] ∧ sh'.st.cachedInitialize = none)

namespace Still

variable {sh sh' : Shared}

theorem of_st_eq (hst : sh'.st = sh.st) (hreceived : sh'.received = sh.received)
    (hsent : sh'.sent = sh.sent) (hissued : sh'.issued = sh.issued)
    (hevents : sh'.initEvents = sh.initEvents) : Still sh sh' :=
  ⟨.of_st_eq hst hreceived hsent hissued, .inl ⟨hevents, by rw [hst]⟩⟩

@[refl] theorem refl (sh : Shared) : Still sh sh := .of_st_eq rfl rfl rfl rfl rfl

/-- A field of the state that no request is in has changed. -/
theorem of_fields (h₁ : sh'.st.nextClientId = sh.st.nextClientId)
    (h₂ : sh'.st.nextGlobalId = sh.st.nextGlobalId) (h₃ : sh'.st.clients = sh.st.clients)
    (h₄ : sh'.st.pending = sh.st.pending) (h₅ : sh'.st.initWaiting = sh.st.initWaiting)
    (h₆ : sh'.st.clientHandshakes = sh.st.clientHandshakes)
    (h₇ : sh'.st.cachedInitialize = sh.st.cachedInitialize)
    (h₈ : sh'.st.initializing = sh.st.initializing) (h₉ : sh'.received = sh.received)
    (h₁₀ : sh'.sent = sh.sent) (h₁₁ : sh'.issued = sh.issued)
    (h₁₂ : sh'.initEvents = sh.initEvents) : Still sh sh' where
  nextClientId := h₁
  nextGlobalId := h₂
  clients := h₃
  pending := h₄
  initWaiting := h₅
  buffered := fun c => by simp only [MuxState.bufferedMessages, h₆]
  handshake := fun c => by rw [h₆]
  received := h₉
  sent := h₁₀
  issued := h₁₁
  cache := .inl ⟨h₇, h₈⟩
  events := .inl ⟨h₁₂, h₇⟩

end Still

theorem still_updateQueueDepth (sh : Shared) : Still sh sh.updateQueueDepth :=
  .of_fields rfl rfl rfl rfl rfl rfl rfl rfl rfl rfl rfl rfl

theorem still_publishStatus (sh : Shared) : Still sh sh.publishStatus :=
  .of_st_eq rfl rfl rfl rfl rfl

theorem still_enqueue (sh : Shared) (p : Put) : Still sh (sh.enqueue p) :=
  .of_st_eq rfl rfl rfl rfl rfl

/-- **The inspector moves no request.** -/
theorem HeartbeatOp.still_run {hb hb' : HeartbeatState} {sh sh' : Shared} {op : HeartbeatOp}
    {ops : List HeartbeatOp} (h : op.run hb sh = some (hb', sh', ops)) : Still sh sh' := by
  rw [run_frame h]
  exact .of_fields rfl rfl rfl rfl rfl rfl rfl rfl rfl rfl rfl rfl

/-- The manager's `select!` moves no request. -/
theorem ManagerOp.still_runSelect {choice : Choice} {sh sh' : Shared} {ops : List ManagerOp}
    (h : runSelect choice sh = some (sh', ops)) : Still sh sh' := by
  rw [runSelect_frame h]
  exact .of_st_eq rfl rfl rfl rfl rfl

/-- **Nor does the manager.** Its cleanup empties the cached handshake,
which is the second case of `Still.events`. -/
theorem ManagerOp.still_run {cfg : ManagerConfig} {choice : Choice} {loc loc' : ManagerLocals}
    {sh sh' : Shared} {op : ManagerOp} {ops : List ManagerOp}
    (h : op.run cfg choice loc sh = some (loc', sh', ops)) : Still sh sh' := by
  cases op with
  | loopHead =>
    simp only [run] at h
    split at h
    · cases h; exact .of_st_eq rfl rfl rfl rfl rfl
    · split at h <;> cases h <;> rfl
  | awaitFirst =>
    simp only [run] at h
    split at h
    · split at h <;> cases h <;> exact .of_st_eq rfl rfl rfl rfl rfl
    · cases h; exact .of_st_eq rfl rfl rfl rfl rfl
    · split at h <;> cases h
      exact .of_st_eq rfl rfl rfl rfl rfl
    · cases h
  | checkLimit firstMsg =>
    simp only [run] at h
    split at h <;> cases h
    · exact .of_fields rfl rfl rfl rfl rfl rfl rfl rfl rfl rfl rfl rfl
    · rfl
  | spawn firstMsg =>
    simp only [run] at h
    split at h <;> cases h <;> exact .of_st_eq rfl rfl rfl rfl rfl
  | takePipes firstMsg =>
    simp only [run] at h
    split at h
    · cases h; exact .of_st_eq rfl rfl rfl rfl rfl
    · cases h; exact .of_st_eq rfl rfl rfl rfl rfl
    · cases h
  | writeFirst msg | writeMessage msg =>
    simp only [run] at h
    split at h
    · cases h; exact .of_st_eq rfl rfl rfl rfl rfl
    · cases h; rfl
    · cases h
  | writeLoop => cases h; rfl
  | select =>
    obtain ⟨⟨sh₁, ops₁⟩, hsel, heq⟩ := Option.map_eq_some_iff.1 h
    cases heq
    exact still_runSelect hsel
  | afterReset shouldRestart =>
    simp only [run] at h
    split at h <;> cases h
    · exact .of_st_eq rfl rfl rfl rfl rfl
    · rfl
  | sleep t =>
    simp only [run] at h
    split at h <;> cases h
    rfl
  | cleanup _ => cases h; exact .of_st_eq rfl rfl rfl rfl rfl
  | markRunning _ | markFailed _ _ =>
    cases h
    exact .of_fields rfl rfl rfl rfl rfl rfl rfl rfl rfl rfl rfl rfl
  | resetFields shouldRestart =>
    cases h
    exact ⟨⟨rfl, rfl, rfl, rfl, rfl, fun _ => rfl, fun _ => rfl, rfl, rfl, rfl, .inr ⟨rfl, rfl⟩⟩,
      .inr ⟨rfl, rfl⟩⟩
  | updateQueueDepth => cases h; exact still_updateQueueDepth sh
  | publishStatus | publishHoldingGuard => cases h; exact still_publishStatus sh

/-- Taking an event moves no request. -/
theorem still_dispatch (event : ServerEvent) (rest : List ServerEvent) (sh : Shared) :
    Still sh (RouterOp.dispatch event { sh with serverEvents := rest }).1 := by
  rw [RouterOp.dispatch_frame]
  exact .of_fields rfl rfl rfl rfl rfl rfl rfl rfl rfl rfl rfl rfl

/-- **The steps of a mux, by what they do to requests.** -/
inductive Routed (cfg : Config) (s : System) : System → Prop
  | connect : Routed cfg s s.connect
  | receive {c : ℕ} {msg : Value} (hreads : s.readers c = true) (hidle : s.handlers c = []) :
      Routed cfg s (s.receive c msg)
  | endReader {c : ℕ} {ops : List ClientOp} (hidle : s.handlers c = [])
      (hops : ∀ op ∈ ops, op = .rejectHandshakeTimeout ∨ op = .unregisterClient ∨
        op = .publishStatus ∨ op = .releasePermit) :
      Routed cfg s (s.endReader c ops)
  | writerFails {c : ℕ} : Routed cfg s { s with
      writers := Function.update s.writers c [.unregisterClient, .publishStatus] }
  | handler {c : ℕ} {op : ClientOp} {rest ops : List ClientOp} {sh : Shared}
      (hops : s.handlers c = op :: rest)
      (hrun : op.run cfg.encodedLen c s.shared = some (sh, ops)) :
      Routed cfg s
        { s with shared := sh, handlers := Function.update s.handlers c (ops ++ rest) }
  | writer {c : ℕ} {op : ClientOp} {rest ops : List ClientOp} {sh : Shared}
      (hops : s.writers c = op :: rest)
      (hrun : op.run cfg.encodedLen c s.shared = some (sh, ops)) :
      Routed cfg s { s with shared := sh, writers := Function.update s.writers c (ops ++ rest) }
  | routerTurn {ops : List RouterOp} {sh : Shared} (hidle : s.router = [])
      (hstill : Still s.shared sh)
      (hops : ops = [] ∨ (∃ msg, ops = RouterOp.handleServerMessage msg) ∨
        ∃ reason, ops = [.resetState reason, .publishStatus]) :
      Routed cfg s { s with shared := sh, router := ops }
  | router {order : List String} {op : RouterOp} {rest ops : List RouterOp} {sh : Shared}
      (hops : s.router = op :: rest) (hrun : op.run order s.shared = some (sh, ops)) :
      Routed cfg s { s with shared := sh, router := ops ++ rest }
  | reaperTick (hidle : s.reaper = []) : Routed cfg s { s with reaper := [.readTimeout] }
  | reaper {order : List String} {op : ReaperOp} {rest ops : List ReaperOp} {sh : Shared}
      (hops : s.reaper = op :: rest) (hrun : op.run order s.shared = some (sh, ops)) :
      Routed cfg s { s with shared := sh, reaper := ops ++ rest }
  | still {s' : System} (hstill : Still s.shared s'.shared) (hreaders : s'.readers = s.readers)
      (hhandlers : s'.handlers = s.handlers) (hcurrent : s'.current = s.current)
      (hwriters : s'.writers = s.writers) (hrouter : s'.router = s.router)
      (hreaper : s'.reaper = s.reaper) : Routed cfg s s'

variable {cfg : Config} {s s' : System} {l : Label}

theorem Stepped.routed (h : Stepped cfg s l s') : Routed cfg s s' := by
  cases h with
  | connect => exact .connect
  | receive hidle => exact .receive hidle.1 hidle.2
  | disconnect hidle => exact .endReader hidle.2 (by simp [System.farewell])
  | decodeError hidle => exact .endReader hidle.2 (by simp)
  | handshakeTimeout hidle => exact .endReader hidle.2 (by simp [System.farewell])
  | handshakeTick => exact .still (.refl _) rfl rfl rfl rfl rfl rfl
  | writerFails => exact .writerFails
  | handler hops hrun => exact .handler hops hrun
  | writer hops hrun => exact .writer hops hrun
  | @routerTurn event rest hidle hevents =>
    refine .routerTurn hidle (still_dispatch event rest _) ?_
    cases event with
    | message msg =>
      simp only [RouterOp.dispatch]
      split
      · exact .inl rfl
      · exact .inr (.inl ⟨msg, rfl⟩)
    | reset reason => exact .inr (.inr ⟨reason, rfl⟩)
  | router hops hrun => exact .router hops hrun
  | reaperTick hidle => exact .reaperTick hidle
  | reaper hops hrun => exact .reaper hops hrun
  | heartbeat hops hrun => exact .still (HeartbeatOp.still_run hrun) rfl rfl rfl rfl rfl rfl
  | manager hops hlock hrun => exact .still (ManagerOp.still_run hrun) rfl rfl rfl rfl rfl rfl
  | heartbeatTick | heartbeatEvent | childOutput | readerEnds | childExits | shutdown | elapse =>
    exact .still (.of_st_eq rfl rfl rfl rfl rfl) rfl rfl rfl rfl rfl rfl

theorem routed_of_step (h : s.step cfg l = some s') : Routed cfg s s' :=
  (stepped_of_step h).routed

end Mux

end VcOperator
