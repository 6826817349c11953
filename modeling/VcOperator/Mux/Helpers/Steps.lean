import VcOperator.Mux.Model.Step
/-!
# What one step of a mux does

The inversion of `System.step`, so that no invariant unfolds it. `Stepped`
has a constructor for each label, with the guard the label passed and the
operation the task ran.
-/

namespace VcOperator

namespace Mux

variable {cfg : Config} {s s' : System} {l : Label}

/-- **The steps of a mux, label by label.** -/
inductive Stepped (cfg : Config) (s : System) : Label → System → Prop
  | connect (hpermit : s.shared.availablePermits ≠ 0) : Stepped cfg s .connect s.connect
  | receive {c : ℕ} {msg : Value} (hidle : s.readers c = true ∧ s.handlers c = []) :
      Stepped cfg s (.receive c msg) (s.receive c msg)
  | disconnect {c : ℕ} (hidle : s.readers c = true ∧ s.handlers c = []) :
      Stepped cfg s (.disconnect c) (s.endReader c System.farewell)
  | decodeError {c : ℕ} (hidle : s.readers c = true ∧ s.handlers c = []) :
      Stepped cfg s (.decodeError c) (s.endReader c [.releasePermit])
  | handshakeTimeout {c : ℕ} (hidle : s.readers c = true ∧ s.handlers c = [])
      (hlate : s.shared.st.isHandshakeTimedOut s.shared.now c = true) :
      Stepped cfg s (.handshakeTick c)
        (s.endReader c (.rejectHandshakeTimeout :: System.farewell))
  | handshakeTick {c : ℕ} (hlate : s.shared.st.isHandshakeTimedOut s.shared.now c = false) :
      Stepped cfg s (.handshakeTick c) s
  | writerFails {c : ℕ} (hc : c < s.shared.st.nextClientId) (hidle : s.writers c = []) :
      Stepped cfg s (.writerFails c) { s with
        writers := Function.update s.writers c [.unregisterClient, .publishStatus] }
  | handler {c : ℕ} {op : ClientOp} {rest ops : List ClientOp} {sh : Shared}
      (hops : s.handlers c = op :: rest)
      (hrun : op.run cfg.encodedLen c s.shared = some (sh, ops)) :
      Stepped cfg s (.handler c)
        { s with shared := sh, handlers := Function.update s.handlers c (ops ++ rest) }
  | writer {c : ℕ} {op : ClientOp} {rest ops : List ClientOp} {sh : Shared}
      (hops : s.writers c = op :: rest)
      (hrun : op.run cfg.encodedLen c s.shared = some (sh, ops)) :
      Stepped cfg s (.writer c)
        { s with shared := sh, writers := Function.update s.writers c (ops ++ rest) }
  | routerTurn {event : ServerEvent} {rest : List ServerEvent} (hidle : s.router = [])
      (hevents : s.shared.serverEvents = event :: rest) :
      Stepped cfg s .routerTurn { s with
        shared := (RouterOp.dispatch event { s.shared with serverEvents := rest }).1
        router := (RouterOp.dispatch event { s.shared with serverEvents := rest }).2 }
  | router {order : List String} {op : RouterOp} {rest ops : List RouterOp} {sh : Shared}
      (hops : s.router = op :: rest) (hrun : op.run order s.shared = some (sh, ops)) :
      Stepped cfg s (.router order) { s with shared := sh, router := ops ++ rest }
  | reaperTick (hidle : s.reaper = []) :
      Stepped cfg s .reaperTick { s with reaper := [.readTimeout] }
  | reaper {order : List String} {op : ReaperOp} {rest ops : List ReaperOp} {sh : Shared}
      (hops : s.reaper = op :: rest) (hrun : op.run order s.shared = some (sh, ops)) :
      Stepped cfg s (.reaper order) { s with shared := sh, reaper := ops ++ rest }
  | heartbeatTick (hidle : s.heartbeat = []) (hen : cfg.heartbeat.enabled = true) :
      Stepped cfg s .heartbeatTick { s with heartbeat := [.probe] }
  | heartbeatEvent {id : String} {rest : List String} (hidle : s.heartbeat = [])
      (hevents : s.shared.heartbeatRx = id :: rest) :
      Stepped cfg s .heartbeatEvent { s with
        shared := { s.shared with heartbeatRx := rest }
        inspector := HeartbeatOp.handleEvent s.inspector id }
  | heartbeat {op : HeartbeatOp} {rest ops : List HeartbeatOp} {hb : HeartbeatState}
      {sh : Shared} (hops : s.heartbeat = op :: rest)
      (hrun : op.run s.inspector s.shared = some (hb, sh, ops)) :
      Stepped cfg s .heartbeat
        { s with inspector := hb, shared := sh, heartbeat := ops ++ rest }
  | manager {choice : Choice} {op : ManagerOp} {rest ops : List ManagerOp}
      {loc : ManagerLocals} {sh : Shared} (hops : s.manager = op :: rest)
      (hlock : (op.locks && s.shared.stateLocked) = false)
      (hrun : op.run cfg.manager choice s.locals s.shared = some (loc, sh, ops)) :
      Stepped cfg s (.manager choice)
        { s with locals := loc, shared := sh, manager := ops ++ rest }
  | childOutput {k : ℕ} {msg : Value} (hreads : s.readerRuns k = true) :
      Stepped cfg s (.childOutput k msg) { s with
        shared := { s.shared with serverEvents := s.shared.serverEvents ++ [.message msg] } }
  | readerEnds {k : ℕ} (hreads : s.readerRuns k = true) :
      Stepped cfg s (.readerEnds k) (s.updateChild k fun ch => { ch with reading := false })
  | childExits {k : ℕ} :
      Stepped cfg s (.childExits k) (s.updateChild k fun ch => { ch with alive := false })
  | shutdown : Stepped cfg s .shutdown { s with shared := { s.shared with shutdown := true } }
  | elapse {ms : ℕ} :
      Stepped cfg s (.elapse ms) { s with shared := { s.shared with now := s.shared.now + ms } }

theorem reading_iff {c : ℕ} :
    s.reading c = true ↔ s.readers c = true ∧ s.handlers c = [] := by
  simp [System.reading, List.isEmpty_iff]

/-- **Inversion.** -/
theorem stepped_of_step (h : s.step cfg l = some s') : Stepped cfg s l s' := by
  cases l with
  | connect =>
    simp only [System.step] at h
    split at h
    · cases h
    · rename_i hg
      cases h
      exact .connect (by simp_all)
  | receive c msg =>
    simp only [System.step] at h
    split at h
    · rename_i hg; cases h; exact .receive (reading_iff.1 hg)
    · cases h
  | disconnect c =>
    simp only [System.step] at h
    split at h
    · rename_i hg; cases h; exact .disconnect (reading_iff.1 hg)
    · cases h
  | decodeError c =>
    simp only [System.step] at h
    split at h
    · rename_i hg; cases h; exact .decodeError (reading_iff.1 hg)
    · cases h
  | handshakeTick c =>
    simp only [System.step] at h
    split at h
    · cases h
    · rename_i hg
      split at h
      · rename_i hlate
        cases h
        exact .handshakeTimeout (reading_iff.1 (by simp_all)) hlate
      · rename_i hlate
        cases h
        exact .handshakeTick (by simpa using hlate)
  | writerFails c =>
    simp only [System.step] at h
    split at h
    · rename_i hg
      cases h
      simp only [Bool.and_eq_true, decide_eq_true_eq, List.isEmpty_iff] at hg
      exact .writerFails hg.1 hg.2
    · cases h
  | handler c =>
    simp only [System.step] at h
    split at h
    · cases h
    · rename_i op rest hops
      split at h
      · cases h
      · obtain ⟨⟨sh, ops⟩, hrun, rfl⟩ := Option.map_eq_some_iff.1 h
        exact .handler hops hrun
  | writer c =>
    simp only [System.step] at h
    split at h
    · cases h
    · rename_i op rest hops
      split at h
      · cases h
      · obtain ⟨⟨sh, ops⟩, hrun, rfl⟩ := Option.map_eq_some_iff.1 h
        exact .writer hops hrun
  | routerTurn =>
    simp only [System.step] at h
    split at h
    · rename_i hidle hevents
      cases h
      exact .routerTurn hidle hevents
    · cases h
  | router order =>
    simp only [System.step] at h
    split at h
    · cases h
    · rename_i op rest hops
      split at h
      · cases h
      · obtain ⟨⟨sh, ops⟩, hrun, rfl⟩ := Option.map_eq_some_iff.1 h
        exact .router hops hrun
  | reaperTick =>
    simp only [System.step] at h
    split at h
    · rename_i hg; cases h; exact .reaperTick (List.isEmpty_iff.1 hg)
    · cases h
  | reaper order =>
    simp only [System.step] at h
    split at h
    · cases h
    · rename_i op rest hops
      split at h
      · cases h
      · obtain ⟨⟨sh, ops⟩, hrun, rfl⟩ := Option.map_eq_some_iff.1 h
        exact .reaper hops hrun
  | heartbeatTick =>
    simp only [System.step] at h
    split at h
    · rename_i hg
      cases h
      simp only [Bool.and_eq_true, List.isEmpty_iff] at hg
      exact .heartbeatTick hg.1 hg.2
    · cases h
  | heartbeatEvent =>
    simp only [System.step] at h
    split at h
    · rename_i hidle hevents
      cases h
      exact .heartbeatEvent hidle hevents
    · cases h
  | heartbeat =>
    simp only [System.step] at h
    split at h
    · cases h
    · rename_i op rest hops
      split at h
      · cases h
      · obtain ⟨⟨hb, sh, ops⟩, hrun, rfl⟩ := Option.map_eq_some_iff.1 h
        exact .heartbeat hops hrun
  | manager choice =>
    simp only [System.step] at h
    split at h
    · cases h
    · rename_i op rest hops
      split at h
      · cases h
      · rename_i hlock
        obtain ⟨⟨loc, sh, ops⟩, hrun, rfl⟩ := Option.map_eq_some_iff.1 h
        exact .manager hops (by simpa using hlock) hrun
  | childOutput k msg =>
    simp only [System.step] at h
    split at h
    · rename_i hg; cases h; exact .childOutput hg
    · cases h
  | readerEnds k =>
    simp only [System.step] at h
    split at h
    · rename_i hg; cases h; exact .readerEnds hg
    · cases h
  | childExits k => cases h; exact .childExits
  | shutdown => cases h; exact .shutdown
  | elapse ms => cases h; exact .elapse

end Mux

end VcOperator
