import Mathlib.Algebra.GroupWithZero.Nat
import VcOperator.Common.Run
import VcOperator.Control.Subscription
import VcOperator.Control.Model.Startup
/-!
# One control socket for many services

Whatever the order in which the control servers of a process start, one of
them is left at the path, and the others cannot be reached. A client hears
the events of the one it is accepted by. So it hears all of them where
there is one service, and never where there are more.
-/

namespace VcOperator

namespace Control

/-- The service whose listener accepted the client. -/
def Console.service : Console → Option ℕ
  | .absent => none
  | .connected i => some i
  | .subscribed i _ => some i

/-- The steps a task still has before it. -/
def IpcTask.remaining : IpcTask → ℕ
  | .spawned => 3
  | .removing => 2
  | .binding => 1
  | _ => 0

namespace Plane

variable {services : List String} {e : Endpoint Unit IpcEvent} {s s' : Plane} {l : PlaneStep}

/-- **A subscribed client hears every service**: the events since `tx.subscribe()`, of
all services, are, each once and in order, those sent to it and those the
channel keeps for it. -/
def HearsAll (s : Plane) : Prop :=
  ∀ i sub, s.console = .subscribed i sub → sub.stage ≠ .acknowledged →
    sub.stage = .selecting true ∧
      sub.sent.map Prod.snd ++ sub.published.drop sub.next = s.published.map Prod.snd ∧
      sub.published.length - sub.next ≤ eventSlots

/-- **The channel of the client has room for an event that is sent to it.** -/
def room (s : Plane) : PlaneStep → Bool
  | .publish _ _ =>
    match s.console with
    | .subscribed _ sub =>
      sub.stage = .acknowledged || decide (sub.published.length - sub.next < eventSlots)
    | _ => true
  | _ => true

/-- **The event is of the service that accepted the client, and there is room for it.** -/
def heard (s : Plane) : PlaneStep → Bool
  | .publish k status =>
    match s.console with
    | .subscribed i sub => sub.stage = .acknowledged || k = i && s.room (.publish k status)
    | _ => true
  | _ => true

/-! ## The start -/

/-- **What the start-up keeps, in every order of its steps.** -/
structure Started (services : List String) (s : Plane) : Prop where
  length : s.tasks.length = services.length
  bound : ∀ i, s.path = .bound i → s.tasks[i]? = some .listening
  stale : s.path = .stale → ∀ t ∈ s.tasks, t = .spawned ∨ t = .removing
  free : s.path = .free → s.settled = true → services = []
  service : ∀ i, s.console.service = some i → i < services.length

theorem started_start (stale : Bool) (services : List String) :
    Started services (.start stale services) where
  length := List.length_map _
  bound i h := by cases stale <;> simp [start] at h
  stale _ t ht := by
    obtain ⟨_, -, rfl⟩ := List.mem_map.1 ht
    exact .inl rfl
  free _ h := by
    cases services with
    | nil => rfl
    | cons name names => simp [start, settled, IpcTask.settled] at h
  service := nofun

/-- A task that is not through with its start keeps start-up from being over. -/
theorem not_settled_set {t : IpcTask} {i : ℕ} (s : Plane) (hi : i < s.tasks.length)
    (ht : t.settled = false) : (s.tasks.set i t).all IpcTask.settled = false :=
  List.all_eq_false.2 ⟨t, List.mem_set hi t, by simp [ht]⟩

/-- A listener stays where another task moves on. -/
theorem bound_set {t u : IpcTask} {i j : ℕ} (hj : s.tasks[j]? = some .listening)
    (hi : s.tasks[i]? = some u) (hu : u ≠ .listening) :
    (s.tasks.set i t)[j]? = some .listening := by
  have hne : i ≠ j := by
    rintro rfl
    rw [hi, Option.some.injEq] at hj
    exact hu hj
  rw [List.getElem?_set_ne hne]
  exact hj

theorem service_send (i : ℕ) (event : IpcEvent) :
    (s.send i event).console.service = s.console.service := by
  cases hc : s.console <;> simp only [send, hc]
  split_ifs <;> rfl

theorem onSubscription_eq_some {l : SubscriptionStep IpcEvent} :
    s.onSubscription e l = some s' ↔ ∃ i sub sub', s.console = .subscribed i sub ∧
      subscriptionStep e eventSlots sub l = some sub' ∧
      s' = { s with console := .subscribed i sub' } := by
  rw [onSubscription]
  constructor
  · intro h
    split at h
    · rename_i i sub hc
      obtain ⟨sub', hsub, rfl⟩ := Option.map_eq_some_iff.1 h
      exact ⟨i, sub, sub', hc, hsub, rfl⟩
    · cases h
  · rintro ⟨i, sub, sub', hc, hsub, rfl⟩
    simp [hc, hsub]

theorem Started.step (h : Started services s) (hs : planeStep services e s l = some s') :
    Started services s' := by
  have hlt {i t} (hi : s.tasks[i]? = some t) : i < s.tasks.length :=
    (List.getElem?_eq_some_iff.1 hi).1
  cases l with
  | look i =>
    rw [planeStep] at hs
    split_ifs at hs with hi hfree
    all_goals
      obtain rfl := Option.some.inj hs
      refine
        { length := by rw [List.length_set, h.length]
          bound := fun j hj => bound_set (h.bound j hj) hi nofun
          stale := fun hp t ht => ?_
          free := fun _ hset => ?_
          service := h.service }
    · rw [hfree] at hp
      cases hp
    · rw [settled, not_settled_set s (hlt hi) rfl] at hset
      cases hset
    · rcases List.mem_or_eq_of_mem_set ht with ht | rfl
      · exact h.stale hp t ht
      · exact .inr rfl
    · rw [settled, not_settled_set s (hlt hi) rfl] at hset
      cases hset
  | remove i =>
    rw [planeStep] at hs
    split_ifs at hs with hi
    obtain rfl := Option.some.inj hs
    refine
      { length := by rw [List.length_set, h.length]
        bound := nofun
        stale := nofun
        free := fun _ hset => ?_
        service := h.service }
    -- whoever removes the file is about to bind
    rw [settled, not_settled_set s (hlt hi) rfl] at hset
    cases hset
  | bind i =>
    rw [planeStep] at hs
    split_ifs at hs with hi hfree
    · obtain rfl := Option.some.inj hs
      refine
        { length := by rw [List.length_set, h.length]
          bound := fun j hj => ?_
          stale := nofun
          free := nofun
          service := h.service }
      obtain rfl := ControlPath.bound.inj hj
      exact List.getElem?_set_self (hlt hi)
    · obtain rfl := Option.some.inj hs
      refine
        { length := by rw [List.length_set, h.length]
          bound := fun j hj => bound_set (h.bound j hj) hi nofun
          stale := fun hp => ?_
          free := fun hp => absurd hp hfree
          service := h.service }
      rcases h.stale hp _ (List.mem_of_getElem? hi) with hb | hb <;> cases hb
  | publish i status =>
    simp only [planeStep] at hs
    split at hs
    · obtain rfl := Option.some.inj hs
      exact { h with service := fun j hj => h.service j (by rwa [service_send] at hj) }
    · cases hs
  | connect =>
    simp only [planeStep] at hs
    split at hs
    · rename_i i hc hp
      split_ifs at hs
      obtain rfl := Option.some.inj hs
      refine { h with service := fun j hj => ?_ }
      obtain rfl := Option.some.inj hj
      rw [← h.length]
      exact hlt (h.bound i hp)
    · cases hs
  | request =>
    simp only [planeStep] at hs
    split at hs
    · rename_i i hc
      obtain rfl := Option.some.inj hs
      exact { h with service := fun j hj => h.service j (by rw [hc]; exact hj) }
    · cases hs
  | subscribe =>
    obtain ⟨t, ht, rfl⟩ := Option.map_eq_some_iff.1 hs
    obtain ⟨i, sub, sub', hc, -, rfl⟩ := onSubscription_eq_some.1 ht
    exact { h with service := fun j hj => h.service j (by rw [hc]; exact hj) }
  | recv =>
    obtain ⟨i, sub, sub', hc, -, rfl⟩ := onSubscription_eq_some.1 hs
    exact { h with service := fun j hj => h.service j (by rw [hc]; exact hj) }

/-- **After start-up there is one listener at the path**, whatever the order. -/
theorem Started.exists_bound (h : Started services s) (hset : s.settled = true)
    (hne : services ≠ []) : ∃ i, s.path = .bound i := by
  cases hp : s.path with
  | free => exact absurd (h.free hp hset) hne
  | stale =>
    -- a task that left the file there would still have to remove it
    obtain ⟨t, ht⟩ : ∃ t, t ∈ s.tasks := by
      refine List.exists_mem_of_length_pos ?_
      rw [h.length]
      exact List.length_pos_of_ne_nil hne
    have hts := List.all_eq_true.1 hset t ht
    rcases h.stale hp t ht with rfl | rfl <;> cases hts
  | bound i => exact ⟨i, rfl⟩

/-! ## What the client hears -/

/-- What is known of a client that has heard every service. -/
def Hears (s : Plane) : Prop :=
  ∀ i sub, s.console = .subscribed i sub →
    sub.stage = .acknowledged ∧ sub.sent = [] ∨
      sub.stage = .selecting true ∧
        sub.sent.map Prod.snd ++ sub.published.drop sub.next = s.published.map Prod.snd ∧
        sub.published.length - sub.next ≤ eventSlots ∧ sub.next ≤ sub.published.length

theorem hears_of_service (h : ∀ i sub, s.console ≠ .subscribed i sub) : s.Hears :=
  fun i sub hc => absurd hc (h i sub)

theorem Hears.hearsAll (h : s.Hears) : s.HearsAll := by
  intro i sub hc hstage
  rcases h i sub hc with ⟨hack, -⟩ | ⟨hsel, hevents, hroom, -⟩
  · exact absurd hack hstage
  · exact ⟨hsel, hevents, hroom⟩

/-- An event that is heard: the client has no receiver yet, or it is an event of the
accepting service and the channel has room for it. -/
theorem Hears.afterSend (h : s.Hears) {k : ℕ} {status : String}
    (hok : s.heard (.publish k status) = true) (event : IpcEvent) : (s.send k event).Hears := by
  intro i sub hc
  cases hold : s.console with
  | absent => simp [send, hold] at hc
  | connected j => simp [send, hold] at hc
  | subscribed j sub₀ =>
    rcases h j sub₀ hold with ⟨hack, hsent⟩ | ⟨hsel, hevents, -, hnext⟩
    · simp only [send, hold] at hc
      split_ifs at hc <;> obtain ⟨rfl, rfl⟩ := Console.subscribed.inj hc <;>
        exact .inl ⟨hack, hsent⟩
    · obtain ⟨rfl, hroom⟩ : k = j ∧ sub₀.published.length - sub₀.next < eventSlots := by
        simpa [heard, room, hold, hsel] using hok
      simp only [send, hold, if_true] at hc
      obtain ⟨rfl, rfl⟩ := Console.subscribed.inj hc
      refine .inr ⟨hsel, ?_, ?_, ?_⟩
      · have hdrop : (sub₀.published ++ [event]).drop sub₀.next =
            sub₀.published.drop sub₀.next ++ [event] := List.drop_append_of_le_length hnext
        simp only [send, hdrop]
        rw [← List.append_assoc, hevents, List.map_append]
        rfl
      · rw [List.length_append, List.length_singleton, Nat.sub_add_comm hnext]
        exact hroom
      · rw [List.length_append]
        exact hnext.trans (Nat.le_add_right _ _)

/-- **A step after which the client is still served leaves it with every event.** -/
theorem Hears.step (hok : s.heard l = true) (h : s.Hears)
    (hs : planeStep services e s l = some s') : s'.Hears := by
  cases l with
  | look i =>
    rw [planeStep] at hs
    split_ifs at hs <;> obtain rfl := Option.some.inj hs <;> exact h
  | remove i =>
    rw [planeStep] at hs
    split_ifs at hs
    obtain rfl := Option.some.inj hs
    exact h
  | bind i =>
    rw [planeStep] at hs
    split_ifs at hs <;> obtain rfl := Option.some.inj hs <;> exact h
  | publish k status =>
    simp only [planeStep] at hs
    split at hs
    · obtain rfl := Option.some.inj hs
      exact h.afterSend hok _
    · cases hs
  | connect =>
    simp only [planeStep] at hs
    split at hs
    · split_ifs at hs
      obtain rfl := Option.some.inj hs
      exact hears_of_service nofun
    · cases hs
  | request =>
    simp only [planeStep] at hs
    split at hs
    · obtain rfl := Option.some.inj hs
      intro i sub hc
      obtain ⟨-, rfl⟩ := Console.subscribed.inj hc
      exact .inl ⟨rfl, rfl⟩
    · cases hs
  | subscribe =>
    obtain ⟨t, ht, rfl⟩ := Option.map_eq_some_iff.1 hs
    obtain ⟨i, sub, sub', hc, hsub, rfl⟩ := onSubscription_eq_some.1 ht
    rcases h i sub hc with ⟨hack, hsent⟩ | ⟨hsel, -⟩
    · simp only [subscriptionStep, hack] at hsub
      obtain rfl := Option.some.inj hsub
      intro j sub' hc'
      obtain ⟨-, rfl⟩ := Console.subscribed.inj hc'
      exact .inr ⟨rfl, by simp [hsent], by simp, le_refl _⟩
    · simp [subscriptionStep, hsel] at hsub
  | recv =>
    obtain ⟨i, sub, sub', hc, hsub, rfl⟩ := onSubscription_eq_some.1 hs
    rcases h i sub hc with ⟨hack, -⟩ | ⟨hsel, hevents, hroom, hnext⟩
    · simp [subscriptionStep, hack] at hsub
    · obtain ⟨event, hget, rfl⟩ := recv_of_room hroom hsel hsub
      obtain ⟨hlt, hevent⟩ := List.getElem?_eq_some_iff.1 hget
      intro j sub' hc'
      obtain ⟨-, rfl⟩ := Console.subscribed.inj hc'
      refine .inr ⟨rfl, ?_, (Nat.sub_le_sub_left (Nat.le_succ _) _).trans hroom, hlt⟩
      rw [← hevents, List.drop_eq_getElem_cons hlt, hevent]
      simp

/-- **An event of another service, and an event that there is no room for, is not heard.** -/
theorem Hears.heard (h : s.Hears) (hs : planeStep services e s l = some s')
    (hs' : s'.HearsAll) : s.heard l = true := by
  cases l with
  | publish k status =>
    simp only [planeStep] at hs
    split at hs
    · rename_i name _
      obtain rfl := Option.some.inj hs
      cases hold : s.console with
      | subscribed i sub =>
        rcases h i sub hold with ⟨hack, -⟩ | ⟨hsel, hevents, -, hnext⟩
        · simp [Plane.heard, hold, hack]
        · by_cases hk : i = k
          · have hroom : (sub.published ++ [IpcEvent.stateChange name "Unknown" status]).length -
                sub.next ≤ eventSlots :=
              (hs' i { sub with published := sub.published ++ [.stateChange name "Unknown" status] }
                (by simp [send, hold, hk]) (by simp [hsel])).2.2
            rw [List.length_append, List.length_singleton] at hroom
            have hlt : sub.published.length - sub.next < eventSlots := by omega
            simp [Plane.heard, Plane.room, hold, hk, hlt]
          · -- the channel of the client has not changed, and there is one event more
            obtain ⟨-, hall, -⟩ := hs' i sub (by simp [send, hold, hk]) (by simp [hsel])
            have hlen := congrArg List.length (hevents.symm.trans hall)
            simp [send] at hlen
      | _ => simp [Plane.heard, hold]
    · cases hs
  | _ => rfl

/-! ## Start-up comes to an end -/

/-- The steps that are left of the start-up. -/
def remaining (s : Plane) : ℕ := (s.tasks.map IpcTask.remaining).sum

theorem remaining_set_lt {t u : IpcTask} {tasks : List IpcTask} {i : ℕ} (hi : tasks[i]? = some u)
    (ht : t.remaining < u.remaining) :
    ((tasks.set i t).map IpcTask.remaining).sum < (tasks.map IpcTask.remaining).sum := by
  induction tasks generalizing i with
  | nil => cases hi
  | cons v tasks ih =>
    cases i with
    | zero =>
      obtain rfl := Option.some.inj hi
      simpa using ht
    | succ i => simpa using ih hi

/-- A start-up that is not over has a step. -/
theorem exists_step (services : List String) (e : Endpoint Unit IpcEvent) (h : s.settled = false) :
    ∃ l s', planeStep services e s l = some s' ∧ s.room l = true ∧
      s'.remaining < s.remaining ∧ s'.console = s.console := by
  obtain ⟨u, hu, hset⟩ := List.all_eq_false.1 h
  obtain ⟨i, hi⟩ := List.mem_iff_getElem?.1 hu
  cases u with
  | spawned =>
    refine ⟨.look i, { s with tasks := s.tasks.set i _ }, by rw [planeStep, if_pos hi], rfl,
      remaining_set_lt hi ?_, rfl⟩
    split_ifs <;> decide
  | removing =>
    exact ⟨.remove i, { s with path := .free, tasks := s.tasks.set i .binding },
      by rw [planeStep, if_pos hi], rfl, remaining_set_lt hi (by decide), rfl⟩
  | binding =>
    by_cases hp : s.path = .free
    · exact ⟨.bind i, { s with path := .bound i, tasks := s.tasks.set i .listening },
        by rw [planeStep, if_pos hi, if_pos hp], rfl, remaining_set_lt hi (by decide), rfl⟩
    · exact ⟨.bind i, { s with tasks := s.tasks.set i .failed },
        by rw [planeStep, if_pos hi, if_neg hp], rfl, remaining_set_lt hi (by decide), rfl⟩
  | listening => exact absurd rfl hset
  | failed => exact absurd rfl hset

/-- **Start-up can be brought to its end**, from wherever it is. -/
theorem exists_settled (services : List String) (e : Endpoint Unit IpcEvent) {s₀ s : Plane}
    (hs : Run.Reach (planeStep services e) (fun s l => s.room l = true) s₀ s) :
    ∃ s', Run.Reach (planeStep services e) (fun s l => s.room l = true) s₀ s' ∧
      s'.settled = true ∧ s'.console = s.console := by
  induction hn : s.remaining using Nat.strong_induction_on generalizing s with
  | _ n ih =>
    cases hset : s.settled with
    | true => exact ⟨s, hs, hset, rfl⟩
    | false =>
      obtain ⟨l, t, hstep, hroom, hlt, hc⟩ := exists_step services e hset
      obtain ⟨s', hreach, hset', hc'⟩ := ih _ (hn ▸ hlt) (.step hs hroom hstep) rfl
      exact ⟨s', hreach, hset', hc'.trans hc⟩

/-! ## Whole runs -/

/-- Where there are two services, one of them is not heard. -/
theorem exists_unheard (e : Endpoint Unit IpcEvent) (stale : Bool) (h : 1 < services.length) :
    ∃ s, Run.Reach (planeStep services e) (fun s l => s.room l = true) (.start stale services) s ∧
      ¬ s.HearsAll := by
  have hinit : Run.Reach (planeStep services e) (fun s l => s.room l = true)
      (.start stale services) (.start stale services) := .init
  obtain ⟨s, hreach, hset, hc⟩ := exists_settled services e hinit
  have hstarted : Started services s :=
    Run.Reach.invariant (started_start stale services) (fun _ _ _ _ h hs => h.step hs) hreach
  obtain ⟨i, hp⟩ := hstarted.exists_bound hset (List.ne_nil_of_length_pos (by omega))
  -- a service other than the one whose listener is reached
  obtain ⟨k, name, hk, hne⟩ : ∃ k name, services[k]? = some name ∧ i ≠ k := by
    by_cases hi : i = 0
    · exact ⟨1, services[1], List.getElem?_eq_getElem h, by omega⟩
    · exact ⟨0, services[0], List.getElem?_eq_getElem (by omega), hi⟩
  have hconnect : planeStep services e s .connect = some { s with console := .connected i } := by
    simp [planeStep, hc, start, hp, hset]
  have hrequest : planeStep services e { s with console := .connected i } .request =
      some { s with console := .subscribed i .start } := rfl
  have hsubscribe : planeStep services e { s with console := .subscribed i .start } .subscribe =
      some { s with
        console := .subscribed i { Subscription.start with stage := .selecting true }
        published := [] } := rfl
  have hpublish : planeStep services e
      { s with
        console := .subscribed i { Subscription.start with stage := .selecting true }
        published := [] } (.publish k "Running") =
      some { s with
        console := .subscribed i { Subscription.start with stage := .selecting true }
        published := [(k, .stateChange name "Unknown" "Running")] } := by
    simp [planeStep, hk, send, hne]
  refine ⟨_, .step (.step (.step (.step hreach rfl hconnect) rfl hrequest) rfl hsubscribe) rfl
    hpublish, fun hall => ?_⟩
  obtain ⟨-, hevents, -⟩ := hall i _ rfl nofun
  cases hevents

/-- **Which services a client hears**: it has heard all of them all along a run exactly as
long as every event is of the service that accepted it and its channel has
room. **So it is sure to hear all of them exactly where there is one.** -/
theorem hearsAll_iff (services : List String) (e : Endpoint Unit IpcEvent) (stale : Bool)
    {ls : List PlaneStep} {s : Plane}
    (hexec : Run.exec (planeStep services e) (.start stale services) ls = some s) :
    (Run.Always (planeStep services e) HearsAll (.start stale services) ls ↔
        Run.meets (planeStep services e) heard (.start stale services) ls = true) ∧
      ((∀ t, Run.Reach (planeStep services e) (fun t l => t.room l = true)
          (.start stale services) t → t.HearsAll) ↔ services.length ≤ 1) := by
  have hstart : Hears (.start stale services) := hears_of_service nofun
  refine ⟨Run.always_iff_meets_of (fun _ h => h.hearsAll) (fun _ _ _ hok h hs => h.step hok hs)
    (fun _ _ _ h hs hs' => h.heard hs hs') hstart hexec, fun hall => ?_, fun hone t ht => ?_⟩
  · by_contra hlt
    obtain ⟨t, ht, hnot⟩ := exists_unheard e stale (not_le.1 hlt)
    exact hnot (hall t ht)
  · -- one service: every event is of the one that accepted the client
    have hinv : Started services t ∧ t.Hears := by
      refine Run.Reach.invariant (I := fun u => Started services u ∧ u.Hears)
        ⟨started_start stale services, hstart⟩ ?_ ht
      intro u l u' hroom hu hs
      refine ⟨hu.1.step hs, hu.2.step ?_ hs⟩
      cases l with
      | publish k status =>
        cases hc : u.console with
        | subscribed i sub =>
          have hi : i < services.length := hu.1.service i (by rw [hc]; rfl)
          have hk : k < services.length := by
            by_contra hge
            rw [planeStep, List.getElem?_eq_none (not_lt.1 hge)] at hs
            cases hs
          have hik : k = i := by omega
          simp only [room, hc] at hroom
          simp only [Plane.heard, room, hc, hik, hroom, decide_true, Bool.and_self, Bool.or_true]
        | _ => simp [Plane.heard, hc]
      | _ => rfl
    exact hinv.2.hearsAll

/-- An endpoint that is asked nothing but to subscribe. -/
def planeEndpoint : Endpoint Unit IpcEvent where
  parse _ := .ok .subscribe
  snapshot := ()
  verify _ := ⟨true, []⟩
  eventTx := true

/-- A service, whose control server replaces the socket file of an earlier process. -/
def oneService : List PlaneStep :=
  [.look 0, .remove 0, .bind 0, .connect, .request, .subscribe, .publish 0 "Running", .recv]

/-- One service, whose event is heard. -/
theorem hearsAll_iff_oneService :
    Run.Always (planeStep ["memory"] planeEndpoint) HearsAll (.start true ["memory"]) oneService :=
  (hearsAll_iff ["memory"] planeEndpoint true
    (s := ⟨.bound 0, [.listening],
      .subscribed 0 ⟨[.stateChange "memory" "Unknown" "Running"], .selecting true, 1,
        [(0, .stateChange "memory" "Unknown" "Running")]⟩,
      [(0, .stateChange "memory" "Unknown" "Running")]⟩) (by decide +kernel)).1.2
    (by decide +kernel)

/-- Two services: the second one removes the socket file of the first. -/
def twoServices : List PlaneStep :=
  [.look 0, .bind 0, .look 1, .remove 1, .bind 1, .connect, .request, .subscribe,
    .publish 0 "Running"]

/-- **The events of the first service do not reach a client of the second one's socket.** -/
theorem not_hearsAll_twoServices :
    ¬ ∀ (services : List String) (e : Endpoint Unit IpcEvent) (stale : Bool) (s : Plane),
      Run.Reach (planeStep services e) Run.Any (.start stale services) s → s.HearsAll := by
  intro h
  have hexec : Run.exec (planeStep ["memory", "files"] planeEndpoint)
      (.start false ["memory", "files"]) twoServices =
      some ⟨.bound 1, [.listening, .listening], .subscribed 1 ⟨[], .selecting true, 0, []⟩,
        [(0, .stateChange "memory" "Unknown" "Running")]⟩ := by decide +kernel
  obtain ⟨-, hevents, -⟩ := h _ _ _ _ (Run.reach_of_exec hexec .init) 1 _ rfl nofun
  cases hevents

end Plane

end Control

end VcOperator
