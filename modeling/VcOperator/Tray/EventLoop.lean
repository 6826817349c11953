import Mathlib.Tactic.IntervalCases
import VcOperator.Tray.Model.EventLoop
/-!
# What the tray does, over a run

Every item of the menu leads to what it is for, and nothing else does. So
what the tray sends to the daemon is what was clicked, in that order, and
one `Shutdown`, when "Quit Mux" was clicked before; and what it shows is the
last status it has taken, which comes in the order in which they were sent.
-/

namespace VcOperator

namespace Tray

open Control (ClientKind MuxControlCommand)

/-! ## The menu -/

/-- What the items after those of the services are for, in the order in which they are made. -/
def laterItems (onboarding : Bool) : List (Option MenuRoute) :=
  [none, some (.verifyClient .claude), some (.verifyClient .codex), some (.verifyClient .gemini),
    none, some .copyRoutingTable, some .copyDiagnostics, none] ++
    (if onboarding then [some .continueOnboarding] else []) ++
    [some .openSettings, some .help, some .about, none, some .quit]

/-- What all of them are for. -/
def menuItems (services : List String) (onboarding : Bool) : List (Option MenuRoute) :=
  [none, some .showDashboard, some .openLogs, none, none, none] ++
    (services.map (fun name => some (.restartService name)) ++ laterItems onboarding)

variable {α : Type} {id : ℕ}

/-- The items of a loop are found by their place. -/
theorem resolveItem_makeItems (first : ℕ) (names : List α) (id : ℕ) :
    resolveItem (makeItems first names) id =
      if first ≤ id then names[id - first]? else none := by
  induction names generalizing first with
  | nil => simp [resolveItem, makeItems]
  | cons name names ih =>
    have hcons : resolveItem (makeItems first (name :: names)) id =
        if first = id then some name else resolveItem (makeItems (first + 1) names) id := by
      rw [resolveItem, makeItems, List.zipIdx_cons, List.findSome?_cons]
      split_ifs <;> rfl
    rw [hcons, ih]
    rcases Nat.lt_trichotomy first id with hlt | rfl | hgt
    · have hsub : id - first = id - (first + 1) + 1 := by omega
      rw [if_neg (by omega), if_pos (by omega), if_pos (by omega), hsub, List.getElem?_cons_succ]
    · rw [if_pos rfl, if_pos (Nat.le_refl _), Nat.sub_self]
      rfl
    · rw [if_neg (by omega), if_neg (by omega), if_neg (by omega)]

/-- **Every item leads to what it is for.** -/
theorem resolveMenuRoute_buildMenu (services : List String) (onboarding : Bool) (id : ℕ) :
    resolveMenuRoute id (buildMenu services onboarding) =
      (menuItems services onboarding)[id]?.join := by
  rw [resolveMenuRoute]
  simp only [buildMenu, resolveItem_makeItems, List.length_cons, List.length_nil]
  rcases Nat.lt_or_ge id 6 with hlow | hlow
  · rw [menuItems, List.getElem?_append_left (by simpa using hlow)]
    cases onboarding <;> interval_cases id <;>
      simp (disch := omega) only [if_neg, reduceIte, Option.some.injEq, reduceCtorEq] <;> rfl
  obtain ⟨k, rfl⟩ : ∃ k, id = 6 + k := ⟨id - 6, by omega⟩
  rw [menuItems, List.getElem?_append_right hlow, if_pos hlow]
  change _ = Option.join (_[6 + k - 6]?)
  rw [Nat.add_sub_cancel_left]
  rcases Nat.lt_or_ge k services.length with hk | hk
  · -- an item of a service
    rw [List.getElem?_append_left (by simpa using hk), List.getElem?_map,
      List.getElem?_eq_getElem hk]
    cases onboarding <;>
      simp (disch := omega) only [if_neg, reduceIte, Option.some.injEq, reduceCtorEq] <;> rfl
  · obtain ⟨k, rfl⟩ : ∃ j, k = services.length + j := ⟨k - services.length, by omega⟩
    rw [List.getElem?_append_right (by simp), List.length_map, Nat.add_sub_cancel_left,
      List.getElem?_eq_none hk]
    have hclient : 6 + (services.length + k) - (6 + services.length + 1) = k - 1 := by omega
    rw [hclient]
    rcases Nat.lt_or_ge k 14 with hend | hend
    · cases onboarding <;> interval_cases k <;>
        simp (disch := omega) only [if_pos, if_neg, reduceIte, Option.some.injEq, reduceCtorEq] <;>
          rfl
    · have hlater : (laterItems onboarding)[k]? = none :=
        List.getElem?_eq_none (by cases onboarding <;> simp [laterItems] <;> omega)
      have hnoClient : [ClientKind.claude, .codex, .gemini][k - 1]? = none :=
        List.getElem?_eq_none (by simp only [List.length_cons, List.length_nil]; omega)
      rw [hlater, hnoClient]
      cases onboarding <;>
        simp (disch := omega) only [if_pos, if_neg, reduceIte, Option.some.injEq, reduceCtorEq] <;>
          rfl

/-- "Quit Mux" is the one item that is for that. -/
theorem resolveMenuRoute_eq_quit_iff {services : List String} {onboarding : Bool} {id : ℕ} :
    resolveMenuRoute id (buildMenu services onboarding) = some .quit ↔
      id = (buildMenu services onboarding).quit := by
  constructor
  · intro h
    rw [resolveMenuRoute] at h
    -- the other items have routes of their own
    split_ifs at h <;> try cases h
    · assumption
    · split at h
      · cases h
      · obtain ⟨kind, -, hkind⟩ := Option.map_eq_some_iff.1 h
        cases hkind
  · rintro rfl
    rw [resolveMenuRoute]
    simp only [buildMenu]
    cases onboarding <;>
      simp (disch := omega) only [if_neg, reduceIte, Option.some.injEq, reduceCtorEq]

/-! ## A run -/

/-- The statuses that were sent, and the items whose clicks were read. -/
structure Seen where
  updates : List TrayStatus
  clicks : List ℕ

/-- What has been seen after a step. The last turn reads nothing. -/
def noteSeen (seen : Seen) (s : EventLoop) : LoopEvent → Seen
  | .update status => { seen with updates := seen.updates ++ [status] }
  | .turn _ menuEvent =>
    if s.shutdownRequested then seen
    else { seen with clicks := seen.clicks ++ menuEvent.toList }

/-- The command an item is for. -/
def itemCommand (services : List String) (onboarding : Bool) (id : ℕ) : Option MuxControlCommand :=
  (menuItems services onboarding)[id]?.join.bind MenuRoute.command

/-- What is known of the loop, from what it has seen. -/
structure EventLoop.Follows (services : List String) (onboarding : Bool) (s : EventLoop)
    (seen : Seen) : Prop where
  shows : ∃ taken, seen.updates = taken ++ s.statuses ∧
    s.statusItem = (taken.getLast?.getD .idle).menuLabel 0 ∧
    s.tooltip = (taken.getLast?.getD .idle).tooltip
  sends : s.sent = seen.clicks.filterMap (itemCommand services onboarding) ++
    if s.exited then [.shutdown true] else []
  quits : if s.shutdownRequested then
      ∃ before, seen.clicks = before ++ [(buildMenu services onboarding).quit] ∧
        (buildMenu services onboarding).quit ∉ before
    else (buildMenu services onboarding).quit ∉ seen.clicks
  exits : s.exited = true → s.shutdownRequested = true

variable {services : List String} {onboarding : Bool} {s s' : EventLoop} {seen : Seen}

@[simp] theorem exited_refreshMenu (refresh : Option Bool) :
    (s.refreshMenu refresh).exited = s.exited := by
  cases refresh <;> rfl

@[simp] theorem shutdownRequested_refreshMenu (refresh : Option Bool) :
    (s.refreshMenu refresh).shutdownRequested = s.shutdownRequested := by
  cases refresh <;> rfl

@[simp] theorem exited_takeStatus : s.takeStatus.exited = s.exited := by
  unfold EventLoop.takeStatus
  split <;> rfl

@[simp] theorem shutdownRequested_takeStatus :
    s.takeStatus.shutdownRequested = s.shutdownRequested := by
  unfold EventLoop.takeStatus
  split <;> rfl

namespace EventLoop.Follows

theorem refreshMenu (h : s.Follows services onboarding seen) (refresh : Option Bool) :
    (s.refreshMenu refresh).Follows services onboarding seen := by
  cases refresh with
  | none => exact h
  | some _ => exact ⟨h.shows, h.sends, h.quits, h.exits⟩

/-- The next status is shown. -/
theorem takeStatus (h : s.Follows services onboarding seen) :
    s.takeStatus.Follows services onboarding seen := by
  unfold EventLoop.takeStatus
  split
  · rename_i status statuses hstatuses
    obtain ⟨taken, hupdates, -, -⟩ := h.shows
    refine ⟨⟨taken ++ [status], ?_, ?_, ?_⟩, h.sends, h.quits, h.exits⟩
    · rw [hupdates, hstatuses, List.append_assoc, List.singleton_append]
    · rw [List.getLast?_append_of_ne_nil _ (List.cons_ne_nil _ _)]
      rfl
    · rw [List.getLast?_append_of_ne_nil _ (List.cons_ne_nil _ _)]
      rfl
  · exact h

/-- The command of the item that was clicked is sent. -/
theorem takeMenuEvent (h : s.Follows services onboarding seen) (hexited : s.exited = false)
    (hrequested : s.shutdownRequested = false) (menuEvent : Option ℕ) :
    (s.takeMenuEvent (buildMenu services onboarding) menuEvent).Follows services onboarding
      { seen with clicks := seen.clicks ++ menuEvent.toList } := by
  have hsends := h.sends
  rw [hexited, if_neg Bool.false_ne_true, List.append_nil] at hsends
  have hquits := h.quits
  rw [hrequested, if_neg Bool.false_ne_true] at hquits
  cases menuEvent with
  | none =>
    rw [Option.toList_none, List.append_nil]
    exact h
  | some id =>
    refine ⟨h.shows, ?_, ?_, fun hnow => ?_⟩
    · rw [EventLoop.takeMenuEvent, hexited, if_neg Bool.false_ne_true, List.append_nil, hsends,
        List.filterMap_append, Option.toList_some, resolveMenuRoute_buildMenu]
      congr 1
    · rw [EventLoop.takeMenuEvent, hrequested, Bool.false_or]
      by_cases hid : id = (buildMenu services onboarding).quit
      · rw [if_pos (beq_iff_eq.2 hid)]
        exact ⟨seen.clicks, by rw [hid]; rfl, hquits⟩
      · rw [if_neg (by simpa using hid)]
        simpa [hquits] using Ne.symm hid
    · rw [EventLoop.takeMenuEvent, hexited] at hnow
      cases hnow

end EventLoop.Follows

/-- **A step keeps up with what is seen.** -/
theorem EventLoop.Follows.step (h : s.Follows services onboarding seen) {event : LoopEvent}
    (hstep : s.step (buildMenu services onboarding) event = some s') :
    s'.Follows services onboarding (noteSeen seen s event) := by
  cases event with
  | update status =>
    cases hstep
    obtain ⟨taken, hupdates, hitem, htooltip⟩ := h.shows
    refine ⟨⟨taken, ?_, hitem, htooltip⟩, h.sends, h.quits, h.exits⟩
    rw [noteSeen, hupdates, List.append_assoc]
  | turn refresh menuEvent =>
    simp only [EventLoop.step] at hstep
    split_ifs at hstep with hexited hrequested
    · cases hstep
      rw [noteSeen, if_pos hrequested]
      refine ⟨h.shows, ?_, h.quits, fun _ => hrequested⟩
      have hsends := h.sends
      rw [if_neg hexited, List.append_nil] at hsends
      rw [hsends]
      rfl
    · cases hstep
      rw [noteSeen, if_neg hrequested]
      refine ((h.refreshMenu refresh).takeStatus).takeMenuEvent ?_ ?_ menuEvent
      · simpa using hexited
      · simpa using hrequested

end Tray

end VcOperator
