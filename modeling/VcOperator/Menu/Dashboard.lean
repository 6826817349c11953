import VcOperator.Menu.Model.Dashboard
import VcOperator.Status.Endpoint
/-!
# What the dashboard shows

A status that is cut off is none, so all that the dashboard ever shows is of
statuses its daemon gave. But the items of its menu are those of the first
one: a later status is put in as many of them as there are, and those it has
no server for keep what they had. The menu is that of the last status
exactly where it has as many servers as the first.
-/

namespace VcOperator

namespace Dashboard

open Status (DaemonStatus MultiServerStatus collectStatus handleStatusConnection queryStatus)

variable {floats : Json.Floats} {s s' : State}

/-! ## The items -/

theorem updateServers_cons (items : List ServerMenuItems) (i : ℕ) (server : MultiServerStatus)
    (servers : List MultiServerStatus) : updateServers items i (server :: servers) =
      updateServers (items.set i (.of server)) (i + 1) servers := by
  rw [updateServers]
  split_ifs with hi
  · rfl
  · rw [List.set_eq_of_length_le (Nat.not_lt.1 hi)]

@[simp] theorem length_updateServers (items : List ServerMenuItems) (i : ℕ)
    (servers : List MultiServerStatus) :
    (updateServers items i servers).length = items.length := by
  induction servers generalizing items i with
  | nil => rfl
  | cons server servers ih => rw [updateServers_cons, ih, List.length_set]

/-- **Each item is of the server at its place**, or what it was. -/
theorem getElem?_updateServers {items : List ServerMenuItems} {k : ℕ} (hk : k < items.length)
    (i : ℕ) (servers : List MultiServerStatus) : (updateServers items i servers)[k]? =
      if i ≤ k ∧ k < i + servers.length then (servers[k - i]?).map .of else items[k]? := by
  induction servers generalizing items i with
  | nil =>
    rw [updateServers, if_neg]
    rw [List.length_nil]
    omega
  | cons server servers ih =>
    rw [updateServers_cons, ih (by rwa [List.length_set]), List.length_cons]
    rcases Nat.lt_trichotomy k i with hlt | rfl | hgt
    · rw [if_neg (by omega), if_neg (by omega), List.getElem?_set_ne (by omega)]
    · rw [if_neg (by omega), if_pos (by omega), List.getElem?_set_self hk, Nat.sub_self]
      rfl
    · have hsub : k - i = k - (i + 1) + 1 := by omega
      rw [List.getElem?_set_ne (by omega), hsub, List.getElem?_cons_succ]
      exact if_congr (by omega) rfl rfl

/-- An update puts the first servers of a status in the items there are. -/
theorem getElem?_update {ui : DashboardUi} {status : DaemonStatus} {k : ℕ}
    (hk : k < ui.servers.length) : (ui.update status).servers[k]? =
      if k < status.servers.length then (status.servers[k]?).map .of else ui.servers[k]? := by
  rw [DashboardUi.update, getElem?_updateServers hk]
  exact if_congr (by omega) rfl rfl

/-! ## A run -/

/-- **What arrives is of the daemon that is asked**: it is the beginning of the line
of its status, whose counters are within their types. -/
def Honest (floats : Json.Floats) (s : State) (event : Event) : Prop :=
  ∀ arrived, event.answer = some arrived → ∃ daemon now, s.daemon = some daemon ∧
    (collectStatus daemon.servers daemon.startTime now).Fits ∧
    arrived <+: handleStatusConnection floats daemon.servers daemon.startTime now

/-- The states of the runs in which all that arrives is of the daemon. -/
abbrev Reached (floats : Json.Floats) : State → State → Prop :=
  Run.Reach (State.step floats) (Honest floats)

/-- A status was that of the daemon, on the way to a state. -/
def Given (floats : Json.Floats) (s : State) (status : DaemonStatus) : Prop :=
  ∃ s₀ daemon now, Reached floats .init s₀ ∧ Reached floats s₀ s ∧ s₀.daemon = some daemon ∧
    status = collectStatus daemon.servers daemon.startTime now

theorem Given.later {status : DaemonStatus} (h : Given floats s status)
    (h' : Reached floats s s') : Given floats s' status := by
  obtain ⟨s₀, daemon, now, hinit, hreach, hdaemon, hstatus⟩ := h
  exact ⟨s₀, daemon, now, hinit, hreach.trans h', hdaemon, hstatus⟩

/-- **What is made of an answer is a status of the daemon.** -/
theorem given_of_answer (hs : Reached floats .init s) {event : Event}
    (hhonest : Honest floats s event) {status : DaemonStatus}
    (h : event.answer.bind (queryStatus floats) = some status) : Given floats s status := by
  obtain ⟨arrived, harrived, hquery⟩ := Option.bind_eq_some_iff.1 h
  obtain ⟨daemon, now, hdaemon, hfits, hprefix⟩ := hhonest arrived harrived
  exact ⟨s, daemon, now, hs, .init, hdaemon, Status.eq_of_queryStatus hfits hprefix hquery⟩

/-- What the dashboard shows, of the status it has got last. -/
structure Shows (floats : Json.Floats) (s : State) (status : DaemonStatus) (ui : DashboardUi) :
    Prop where
  given : Given floats s status
  header : ui.header = headerLine status
  summary : ui.summary = summaryLine status
  /-- An item is of a server at its place, of the last status if that has one. -/
  items : ∀ k, k < ui.servers.length → ∃ shown entry, Given floats s shown ∧
    shown.servers[k]? = some entry ∧ ui.servers[k]? = some (.of entry) ∧
    (k < status.servers.length → shown = status)

theorem Shows.later {status : DaemonStatus} {ui : DashboardUi} (h : Shows floats s status ui)
    (h' : Reached floats s s') : Shows floats s' status ui := by
  refine ⟨h.given.later h', h.header, h.summary, fun k hk => ?_⟩
  obtain ⟨shown, entry, hgiven, hrest⟩ := h.items k hk
  exact ⟨shown, entry, hgiven.later h', hrest⟩

theorem shows_buildDashboard {status : DaemonStatus} (h : Given floats s status) :
    Shows floats s status (buildDashboard status) := by
  refine ⟨h, rfl, rfl, fun k hk => ?_⟩
  rw [buildDashboard, List.length_map] at hk
  refine ⟨status, status.servers[k], h, List.getElem?_eq_getElem hk, ?_, fun _ => rfl⟩
  rw [buildDashboard, List.getElem?_map, List.getElem?_eq_getElem hk]
  rfl

theorem Shows.update {last status : DaemonStatus} {ui : DashboardUi}
    (h : Shows floats s last ui) (hgiven : Given floats s status) :
    Shows floats s status (ui.update status) := by
  refine ⟨hgiven, rfl, rfl, fun k hk => ?_⟩
  rw [DashboardUi.update, length_updateServers] at hk
  rw [getElem?_update hk]
  split_ifs with hlt
  · rw [List.getElem?_eq_getElem hlt]
    exact ⟨status, status.servers[k], hgiven, List.getElem?_eq_getElem hlt, rfl, fun _ => rfl⟩
  · obtain ⟨shown, entry, hshown, hentry, hitem, -⟩ := h.items k hk
    exact ⟨shown, entry, hshown, hentry, hitem, fun hk' => absurd hk' hlt⟩

/-- **What a step does to the menu.** -/
inductive Moves (floats : Json.Floats) (s : State) (event : Event) : Stage → Prop
  | stays : Moves floats s event s.stage
  | builds {status : DaemonStatus} : s.stage = .waiting →
      event.answer.bind (queryStatus floats) = some status →
      Moves floats s event (.running status (buildDashboard status))
  | updates {last status : DaemonStatus} {ui : DashboardUi} : s.stage = .running last ui →
      event.answer.bind (queryStatus floats) = some status →
      Moves floats s event (.running status (ui.update status))
  | leaves : Moves floats s event .returned

theorem moves_of_step {event : Event} (h : s.step floats event = some s') :
    Moves floats s event s'.stage := by
  cases event with
  | daemon daemon | cancel =>
    cases h
    exact .stays
  | ask answer built =>
    cases hstage : s.stage with
    | waiting =>
      simp only [State.step, hstage] at h
      by_cases hcancelled : s.cancelled
      · rw [if_pos hcancelled] at h
        cases h
        exact .leaves
      · rw [if_neg hcancelled] at h
        cases hquery : answer.bind (queryStatus floats) with
        | none =>
          simp only [hquery, Option.some.injEq] at h
          subst h
          exact .stays
        | some status =>
          simp only [hquery, Option.some.injEq] at h
          subst h
          cases built with
          | true => exact .builds hstage hquery
          | false => exact .leaves
    | running _ _ | returned => simp [State.step, hstage] at h
  | shutdown =>
    cases hstage : s.stage with
    | running _ _ =>
      simp only [State.step, hstage] at h
      split_ifs at h
      cases h
      exact .leaves
    | waiting | returned => simp [State.step, hstage] at h
  | tick quits answer =>
    cases hstage : s.stage with
    | running last ui =>
      simp only [State.step, hstage] at h
      split_ifs at h
      · cases h
        exact .leaves
      · cases hquery : answer.bind (queryStatus floats) with
        | none =>
          simp only [hquery, Option.some.injEq] at h
          subst h
          exact .stays
        | some status =>
          simp only [hquery, Option.some.injEq] at h
          subst h
          exact .updates hstage hquery
    | waiting | returned => simp [State.step, hstage] at h

/-- **What is shown is of statuses of the daemon**, in every state that is reached. -/
theorem shows_of_reached (h : Reached floats .init s) {status : DaemonStatus} {ui : DashboardUi}
    (hstage : s.stage = .running status ui) : Shows floats s status ui := by
  induction h generalizing status ui with
  | init => cases hstage
  | @step t t' event hreach hhonest hstep ih =>
    have hlater : Reached floats t t' := Run.Reach.init.step hhonest hstep
    have hmoves := moves_of_step hstep
    rw [hstage] at hmoves
    generalize hafter : Stage.running status ui = after at hmoves
    cases hmoves with
    | stays => exact (ih hafter.symm).later hlater
    | builds hwas hanswer =>
      cases hafter
      exact (shows_buildDashboard (given_of_answer hreach hhonest hanswer)).later hlater
    | updates hwas hanswer =>
      cases hafter
      exact ((ih hwas).update (given_of_answer hreach hhonest hanswer)).later hlater
    | leaves => cases hafter

/-- There is a menu of so many items, if there is one. -/
def Stage.HasItems (n : ℕ) : Stage → Prop
  | .waiting => False
  | .running _ ui => ui.servers.length = n
  | .returned => True

/-- **The menu keeps its items.** -/
theorem hasItems_of_reached {n : ℕ} (h : s.stage.HasItems n) (h' : Reached floats s s') :
    s'.stage.HasItems n := by
  refine h'.invariant (I := fun t => t.stage.HasItems n) h fun t event t' _ ht hstep => ?_
  have hmoves := moves_of_step hstep
  generalize t'.stage = after at hmoves ⊢
  cases hmoves with
  | stays => exact ht
  | builds hwas _ =>
    rw [hwas] at ht
    exact ht.elim
  | @updates last status ui hwas _ =>
    rw [hwas] at ht
    rw [Stage.HasItems, DashboardUi.update, length_updateServers]
    exact ht
  | leaves => trivial

/-- **What the dashboard shows.** All of it is of statuses the daemon gave, and each item of the
last one that has a server at its place. The items are as many as the first status had servers,
for good; so the menu is that of the last status exactly where its summary says as many servers
as it has items. -/
theorem dashboard_follows (h : Reached floats .init s) {status : DaemonStatus} {ui : DashboardUi}
    (hstage : s.stage = .running status ui) :
    Shows floats s status ui ∧
      (ui = buildDashboard status ↔ ui.servers.length = status.serverCount) ∧
      ∀ s' status' ui', Reached floats s s' → s'.stage = .running status' ui' →
        ui'.servers.length = ui.servers.length := by
  have hshows := shows_of_reached h hstage
  have hcount : status.serverCount = status.servers.length := by
    obtain ⟨s₀, daemon, now, -, -, -, rfl⟩ := hshows.given
    exact Status.serverCount_eq _ _ _
  refine ⟨hshows, ⟨?_, ?_⟩, ?_⟩
  · rintro rfl
    rw [hcount, buildDashboard, List.length_map]
  · intro hlength
    have hservers : ui.servers = status.servers.map .of := by
      refine List.ext_getElem? fun k => ?_
      rw [List.getElem?_map]
      rcases Nat.lt_or_ge k ui.servers.length with hk | hk
      · obtain ⟨shown, entry, -, hentry, hitem, hlast⟩ := hshows.items k hk
        obtain rfl := hlast (by rwa [← hcount, ← hlength])
        rw [hitem, hentry]
        rfl
      · rw [List.getElem?_eq_none hk, List.getElem?_eq_none (by rwa [← hcount, ← hlength])]
        rfl
    calc ui = ⟨ui.header, ui.summary, ui.servers⟩ := rfl
      _ = buildDashboard status := by rw [hshows.header, hshows.summary, hservers]; rfl
  · intro s' status' ui' hreach hstage'
    have hitems := hasItems_of_reached (n := ui.servers.length) (by rw [hstage]; rfl) hreach
    rw [hstage'] at hitems
    exact hitems

/-- The dashboard gets the status of one daemon, and then that of another one. -/
theorem reached_twice (floats : Json.Floats) {daemon daemon' : Daemon} {now now' : ℕ}
    (hfits : (collectStatus daemon.servers daemon.startTime now).Fits)
    (hfits' : (collectStatus daemon'.servers daemon'.startTime now').Fits) :
    Reached floats .init ⟨some daemon', false,
      .running (collectStatus daemon'.servers daemon'.startTime now')
        ((buildDashboard (collectStatus daemon.servers daemon.startTime now)).update
          (collectStatus daemon'.servers daemon'.startTime now'))⟩ := by
  have hline : queryStatus floats
      (handleStatusConnection floats daemon.servers daemon.startTime now) = some _ :=
    Status.queryStatus_of_whole hfits List.prefix_rfl (Nat.le_succ _)
  have hline' : queryStatus floats
      (handleStatusConnection floats daemon'.servers daemon'.startTime now') = some _ :=
    Status.queryStatus_of_whole hfits' List.prefix_rfl (Nat.le_succ _)
  have hstarted : Reached floats .init ⟨some daemon, false, .waiting⟩ :=
    Run.Reach.init.step (l := .daemon (some daemon)) nofun rfl
  have hasked : Reached floats .init ⟨some daemon, false,
      .running (collectStatus daemon.servers daemon.startTime now)
        (buildDashboard (collectStatus daemon.servers daemon.startTime now))⟩ := by
    refine hstarted.step (l := .ask (some
      (handleStatusConnection floats daemon.servers daemon.startTime now)) true) ?_ ?_
    · intro arrived harrived
      obtain rfl := Option.some.inj harrived
      exact ⟨daemon, now, rfl, hfits, List.prefix_rfl⟩
    · simp [State.step, hline]
  have hrestarted := hasked.step (l := .daemon (some daemon')) nofun rfl
  refine hrestarted.step (l := .tick [] (some
    (handleStatusConnection floats daemon'.servers daemon'.startTime now'))) ?_ ?_
  · intro arrived harrived
    obtain rfl := Option.some.inj harrived
    exact ⟨daemon', now', rfl, hfits', List.prefix_rfl⟩
  · simp [State.step, hline']

/-- The daemon is started again without its one server: the menu keeps the item. -/
theorem dashboard_follows_restarted : ∃ floats s status ui, Reached floats .init s ∧
    s.stage = .running status ui ∧ ui.servers.length = 1 ∧ ui ≠ buildDashboard status := by
  have hfits : (collectStatus ∅ 8000 9000).Fits := by
    refine ⟨by decide, by decide, by decide, by decide, fun entry hentry => ?_⟩
    obtain ⟨name, serverRef, hget, -⟩ := Status.mem_servers_iff.1 hentry
    rw [HashMap.get_empty] at hget
    cases hget
  have hreach := @reached_twice ⟨fun _ => [], fun _ => none⟩ ⟨Status.oneIdle, 0⟩ ⟨∅, 8000⟩ 5000 9000
    Status.fits_oneIdle hfits
  have hlength : ((buildDashboard (collectStatus Status.oneIdle 0 5000)).update
      (collectStatus ∅ 8000 9000)).servers.length = 1 := by
    rw [DashboardUi.update, length_updateServers, buildDashboard, List.length_map,
      ← Status.serverCount_eq]
    rfl
  obtain ⟨-, hexact, -⟩ := dashboard_follows hreach rfl
  refine ⟨_, _, _, _, hreach, rfl, hlength, fun heq => ?_⟩
  rw [hexact, hlength] at heq
  cases heq

end Dashboard

end VcOperator
