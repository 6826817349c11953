import VcOperator.Common.Run
import VcOperator.Common.Text
import VcOperator.Control.Model.Command
import VcOperator.Tray.Model
/-!
# The event loop of the tray

The menu `build_menu` builds, `resolve_menu_route` and what
`handle_menu_event` does, and the closure of `run_with_ipc`: one turn of the
loop after another. The `MenuId` of an item is its place in the order in
which the items are made. Whether there are statuses, menu events and two seconds
since the last refresh is an input of the model; the icon is left out, and
so are the events for a channel that nobody has set up.
-/

namespace VcOperator

namespace Tray

open Control (ClientKind MuxControlCommand)

/-! ## The labels -/

/-- `TrayStatus::label`. -/
def TrayStatus.label : TrayStatus → String
  | .idle => "Idle"
  | .routing => "Routing"
  | .saturated => "Saturated"
  | .restarting => "Restarting"
  | .failed => "Failed"

/-- `TrayStatus::tooltip`. -/
def TrayStatus.tooltip (status : TrayStatus) : String := "Vibecrafted mux - " ++ status.label

/-- `TrayStatus::menu_label`. -/
def TrayStatus.menuLabel (status : TrayStatus) (serviceCount : ℕ) : String :=
  "Status: " ++ status.label ++ " (" ++ toString serviceCount ++ " services)"

/-! ## The menu -/

/-- `MenuIds`. -/
structure MenuIds where
  showDashboard : ℕ
  openLogs : ℕ
  copyRoutingTable : ℕ
  copyDiagnostics : ℕ
  continueOnboarding : Option ℕ
  openSettings : ℕ
  help : ℕ
  about : ℕ
  quit : ℕ
  restartServices : List (String × ℕ)
  verifyClients : List (ClientKind × ℕ)

/-- `MenuIds::resolve_restart_service`, and `resolve_verify_client`. -/
def resolveItem {α : Type} (items : List (α × ℕ)) (id : ℕ) : Option α :=
  items.findSome? fun item => if item.2 = id then some item.1 else none

/-- `configured_services`, of the variable `VIBECRAFTED_MUX_SERVICES`. -/
def configuredServices (raw : Option String) : List String :=
  let items := (raw.map fun raw =>
    ((raw.toList.splitOn ',').map trim).filter (· ≠ [])).getD []
  if items = [] then ["mux-agent"] else items.map String.ofList

/-- A loop that makes an item for each of a list, from an id on. -/
def makeItems {α : Type} (id : ℕ) (names : List α) : List (α × ℕ) :=
  names.zipIdx id

/-- `build_menu`, for the services that are configured. -/
def buildMenu (configuredServices : List String) (shouldShowOnboarding : Bool) : MenuIds :=
  let clients := [ClientKind.claude, ClientKind.codex, ClientKind.gemini]
  -- the status, two items, the count, a separator and a submenu come before the services
  let restart := 6
  let verify := restart + configuredServices.length + 1
  let diagnostics := verify + clients.length + 1
  -- a separator ends the part of the diagnostics
  let onboarding := diagnostics + 3
  let settings := if shouldShowOnboarding then onboarding + 1 else onboarding
  { showDashboard := 1
    openLogs := 2
    restartServices := makeItems restart configuredServices
    verifyClients := makeItems verify clients
    copyRoutingTable := diagnostics
    copyDiagnostics := diagnostics + 1
    continueOnboarding := if shouldShowOnboarding then some onboarding else none
    openSettings := settings
    help := settings + 1
    about := settings + 2
    -- after another separator
    quit := settings + 4 }

/-- `MenuRoute`. -/
inductive MenuRoute where
  | showDashboard
  | openLogs
  | copyRoutingTable
  | copyDiagnostics
  | continueOnboarding
  | openSettings
  | help
  | about
  | quit
  | restartService (name : String)
  | verifyClient (kind : ClientKind)
  deriving DecidableEq

/-- `resolve_menu_route`. -/
def resolveMenuRoute (eventId : ℕ) (menuIds : MenuIds) : Option MenuRoute :=
  if eventId = menuIds.showDashboard then some .showDashboard
  else if eventId = menuIds.openLogs then some .openLogs
  else if eventId = menuIds.copyRoutingTable then some .copyRoutingTable
  else if eventId = menuIds.copyDiagnostics then some .copyDiagnostics
  else if menuIds.continueOnboarding = some eventId then some .continueOnboarding
  else if eventId = menuIds.openSettings then some .openSettings
  else if eventId = menuIds.help then some .help
  else if eventId = menuIds.about then some .about
  else if eventId = menuIds.quit then some .quit
  else
    match resolveItem menuIds.restartServices eventId with
    | some name => some (.restartService name)
    | none => (resolveItem menuIds.verifyClients eventId).map .verifyClient

/-- The command `handle_menu_event` starts a thread to send, if any. -/
def MenuRoute.command : MenuRoute → Option MuxControlCommand
  | .copyRoutingTable => some .routeSnapshot
  | .copyDiagnostics => some .getStatus
  | .restartService name => some (.restartService name)
  | .verifyClient kind => some (.verify kind)
  | .showDashboard | .openLogs | .continueOnboarding | .openSettings | .help | .about | .quit =>
    none

/-! ## The loop -/

/-- The tray, between two turns. -/
structure EventLoop where
  /-- `SHUTDOWN_REQUESTED`. -/
  shutdownRequested : Bool
  /-- The channel of the statuses. -/
  statuses : List TrayStatus
  /-- The text of the item of the status. -/
  statusItem : String
  tooltip : String
  /-- The item of the onboarding, if there is one, is enabled. -/
  onboardingEnabled : Bool
  /-- The commands threads were started for, in their order. -/
  sent : List MuxControlCommand
  exited : Bool

/-- `SERVICE_COUNT`: nobody stores another one. -/
def serviceCount : ℕ := 0

/-- Where the loop begins. -/
def EventLoop.init : EventLoop where
  shutdownRequested := false
  statuses := []
  statusItem := "Status: Idle (0 services)"
  tooltip := TrayStatus.idle.tooltip
  onboardingEnabled := true
  sent := []
  exited := false

/-- The labels of the step function. -/
inductive LoopEvent where
  /-- `update_tray_status`. -/
  | update (status : TrayStatus)
  /-- A turn: whether the wizard is not completed, where that is asked, and the menu event. -/
  | turn (refresh : Option Bool) (menuEvent : Option ℕ)

namespace EventLoop

/-- `menu::update_onboarding_item`. The label of the service count stays as it is. -/
def refreshMenu (s : EventLoop) : Option Bool → EventLoop
  | some shouldShowOnboarding => { s with onboardingEnabled := shouldShowOnboarding }
  | none => s

/-- `status_rx.try_recv()`, and `apply_status_update`. -/
def takeStatus (s : EventLoop) : EventLoop :=
  match s.statuses with
  | status :: statuses =>
    { s with
      statuses := statuses, statusItem := status.menuLabel serviceCount
      tooltip := status.tooltip }
  | [] => s

/-- `menu_channel.try_recv()`, and `handle_menu_event`. -/
def takeMenuEvent (menuIds : MenuIds) (s : EventLoop) : Option ℕ → EventLoop
  | some id =>
    { s with
      sent := s.sent ++ ((resolveMenuRoute id menuIds).bind MenuRoute.command).toList
      shutdownRequested := s.shutdownRequested || id == menuIds.quit }
  | none => s

/-- **One step**, of the subscription or of the loop. -/
def step (menuIds : MenuIds) (s : EventLoop) : LoopEvent → Option EventLoop
  | .update status => some { s with statuses := s.statuses ++ [status] }
  | .turn refresh menuEvent =>
    if s.exited then none
    else if s.shutdownRequested then
      some { s with sent := s.sent ++ [.shutdown true], exited := true }
    else some (((s.refreshMenu refresh).takeStatus).takeMenuEvent menuIds menuEvent)

end EventLoop

end Tray

end VcOperator
