import VcOperator.Mux.Helpers.InitMoves
/-!
# What the cache may hold

The response of an `initialize` request is cached whatever it is. A child
that answers with an error is not asked again: every later `initialize` is
served that error, until the next reset. The cache holds results alone
exactly as long as the child answers these requests with results alone.
-/

namespace VcOperator

namespace Mux

open ClientOp

/-- A response has a `result`, and no `error`. -/
def isResult (msg : Value) : Bool := (msg.get "result").isSome && (msg.get "error").isNone

/-- **No failure is cached**: the cache is empty or holds a result, and so a later
`initialize` request is not served an error, unless it is the mux that is overloaded. -/
structure System.NoFailureCached (s : System) : Prop where
  cached : ∀ v, s.shared.st.cachedInitialize = some v → isResult v = true
  served : ∀ c msg localId,
    ∀ d ∈ (runInitialize c msg localId s.shared).1.sent.drop s.shared.sent.length,
      isResult d.msg = true ∨ d = overloaded c localId

/-- **A response the router caches is a result.** -/
def System.cachesResult (s : System) : Label → Bool
  | .router _ =>
    match s.router with
    | .cacheInitialize msg _ :: _ => isResult msg
    | _ => true
  | _ => true

variable {cfg : Config} {s s' : System} {l : Label}

/-- The id of a response is not what makes it a result. -/
@[simp] theorem isResult_setId (msg id : Value) : isResult (setId msg id) = isResult msg := by
  have hresult : (setId msg id).get "result" = msg.get "result" :=
    get_setId_of_ne (by decide) msg id
  have herror : (setId msg id).get "error" = msg.get "error" := get_setId_of_ne (by decide) msg id
  rw [isResult, isResult, hresult, herror]

/-- What a reply adds to what was sent is the reply. -/
theorem eq_of_mem_drop_reply {sh : Shared} {d d' : Delivery}
    (h : d' ∈ (sh.reply d).sent.drop sh.sent.length) : d' = d := by
  rw [Shared.reply, Shared.replyAll, List.drop_left] at h
  exact List.mem_singleton.1 (List.mem_of_mem_filter h)

/-- What is in the cache is what a later request is served. -/
theorem System.NoFailureCached.of_cached
    (h : ∀ v, s.shared.st.cachedInitialize = some v → isResult v = true) : s.NoFailureCached where
  cached := h
  served c msg localId d hd := by
    have hquiet := quiet_initializePending s.shared c
    rw [← hquiet.sent] at hd
    generalize hrun : runInitialize c msg localId s.shared = r at hd
    obtain ⟨sh, ops⟩ := r
    cases initialized_of_run hrun with
    | @cached v hcached =>
      have hresult : isResult v = true :=
        h v ((sameInit_initializePending s.shared c).cached ▸ hcached)
      rw [eq_of_mem_drop_reply hd, isResult_setId]
      exact .inl hresult
    | refused => exact .inr (eq_of_mem_drop_reply hd)
    | parked | forwarded =>
      replace hd : d ∈ List.drop (initializePending s.shared c).sent.length
        (initializePending s.shared c).sent := hd
      rw [List.drop_length] at hd
      cases hd

/-- **One step keeps the cache free of failures** exactly if what it caches is a result. -/
theorem System.NoFailureCached.step_iff (h : s.NoFailureCached) (hk : s.shared.Keyed)
    (hstep : s.step cfg l = some s') : s'.NoFailureCached ↔ s.cachesResult l = true := by
  have hstepped := stepped_of_step hstep
  constructor
  · intro h'
    cases hstepped with
    | @router order op rest ops sh hops hrun =>
      cases op with
      | cacheInitialize msg p =>
        cases hrun
        simpa [System.cachesResult, hops] using h'.cached msg rfl
      | _ => simp [System.cachesResult, hops]
    | _ => rfl
  · intro hok
    refine .of_cached fun v hv => ?_
    rcases hstepped.cached_cases hk hv with hold | ⟨order, p, rest, rfl, hops⟩
    · exact h.cached v hold
    · simpa [System.cachesResult, hops] using hok

theorem noFailureCached_init (cfg : Config) : (System.init cfg).NoFailureCached :=
  .of_cached fun v hv => by cases hv

/-- **When no failure is ever cached**: a run caches none exactly if every response its
router caches is a result. -/
theorem noFailureCached_iff (cfg : Config) {ls : List Label}
    (hexec : Run.exec (System.step cfg) (System.init cfg) ls = some s) :
    Run.Always (System.step cfg) System.NoFailureCached (System.init cfg) ls ↔
      Run.meets (System.step cfg) System.cachesResult (System.init cfg) ls = true := by
  refine Run.always_iff_meets_of (J := fun s => s.NoFailureCached ∧ s.shared.Keyed)
    (fun s h => h.1) ?_ ?_ ⟨noFailureCached_init cfg, keyed_init cfg⟩ hexec
  · intro s l s' hok h hstep
    exact ⟨(h.1.step_iff h.2 hstep).2 hok, (routed_of_step hstep).keyed h.2⟩
  · intro s l s' h hstep h'
    exact (h.1.step_iff h.2 hstep).1 h'

/-- A client asks for `initialize`, and the router caches the child's answer: its `result`,
or its `error`. -/
def initAnswerRun (key : String) : List Label :=
  [.manager .go, .manager .go, .manager (.spawned 1), .manager .go, .manager .go, .manager .go,
    .connect, .handler 1,
    .receive 1 (.object [("id", .number (.posInt 7)), ("method", .string "initialize")]),
    .handler 1, .handler 1, .handler 1,
    .childOutput 0 (.object [("id", .string "c1:1"), (key, .object [])]),
    .routerTurn, .router [], .router []]

/-- A result that is cached is no failure. -/
theorem noFailureCached_iff_initAnswerRun :
    (Run.Always (System.step .small) System.NoFailureCached (System.init .small)
        (initAnswerRun "result") ↔
      Run.meets (System.step .small) System.cachesResult (System.init .small)
        (initAnswerRun "result") = true) ∧
      (Config.small.after (initAnswerRun "result")).shared.st.cachedInitialize =
        some (.object [("id", .string "c1:1"), ("result", .object [])]) := by
  have hruns : Config.small.runs (initAnswerRun "result") = true := by decide +kernel
  exact ⟨noFailureCached_iff .small (Config.small.exec_eq_after hruns), by decide +kernel⟩

/-- **An error is cached.** -/
theorem not_noFailureCached_initAnswerRun :
    ¬ ∀ (cfg : Config) (s : System), Reachable cfg Run.Any s → s.NoFailureCached := by
  intro h
  have hruns : Config.small.runs (initAnswerRun "error") = true := by decide +kernel
  have hcached : (Config.small.after (initAnswerRun "error")).shared.st.cachedInitialize =
      some (.object [("id", .string "c1:1"), ("error", .object [])]) := by decide +kernel
  have hresult := (h _ _ (Config.small.reachable_after hruns)).cached _ hcached
  cases hresult

end Mux

end VcOperator
