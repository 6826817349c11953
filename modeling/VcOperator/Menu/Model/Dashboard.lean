import VcOperator.Common.Run
import VcOperator.Status.Model.Endpoint
/-!
# The tray dashboard

`tray_dashboard_loop`: it asks the daemon for its status until there is one,
builds a menu with an item for each server of it, and from then on puts each
status it gets in that menu. The daemon is whatever is behind the status
socket, and may be another one each time it is asked. The icon and the
menu items that never change are left out.
-/

namespace VcOperator

namespace Dashboard

open Control (Bytes)
open Status (DaemonStatus MultiServerStatus Servers StatusLevel queryStatus)

/-! ## The menu -/

/-- `status_icon`. -/
def statusIcon : StatusLevel → String
  | .ok => "●"
  | .warn => "⚠"
  | .error => "✖"
  | .lazy => "○"

/-- The texts of a `ServerMenuItems`. -/
structure ServerMenuItems where
  submenu : String
  status : String
  clients : String
  pending : String
  restarts : String
  heartbeat : String
  deriving DecidableEq

/-- The texts of a server. -/
def ServerMenuItems.of (server : MultiServerStatus) : ServerMenuItems where
  submenu := statusIcon server.level ++ " " ++ server.name
  status := "  Status: " ++ server.statusText
  clients := "  Clients: " ++ toString server.activeClients ++ "/" ++
    toString server.maxActiveClients
  pending := "  Pending: " ++ toString server.pendingRequests
  restarts := "  Restarts: " ++ toString server.restarts
  heartbeat := "  Heartbeat: " ++
    (server.heartbeatLatencyMs.map fun ms => toString ms ++ "ms").getD "-"

/-- The texts of a `DashboardUi`. -/
structure DashboardUi where
  header : String
  summary : String
  servers : List ServerMenuItems
  deriving DecidableEq

/-- The header of a status. -/
def headerLine (status : DaemonStatus) : String :=
  "rust-mux v" ++ status.version ++ " | " ++ status.uptime

/-- The summary of a status. -/
def summaryLine (status : DaemonStatus) : String :=
  toString status.serverCount ++ " servers: " ++ toString status.runningCount ++ " running, " ++
    toString status.errorCount ++ " errors"

/-- `build_dashboard`, where it succeeds. -/
def buildDashboard (status : DaemonStatus) : DashboardUi where
  header := headerLine status
  summary := summaryLine status
  servers := status.servers.map .of

/-- The loop of `DashboardUi::update` over the servers: the items of a server
are those at its place. -/
def updateServers (items : List ServerMenuItems) : ℕ → List MultiServerStatus →
    List ServerMenuItems
  | _, [] => items
  | i, server :: servers =>
    let items := if i < items.length then items.set i (.of server) else items
    updateServers items (i + 1) servers

/-- `DashboardUi::update`. -/
def DashboardUi.update (ui : DashboardUi) (status : DaemonStatus) : DashboardUi where
  header := headerLine status
  summary := summaryLine status
  servers := updateServers ui.servers 0 status.servers

/-! ## The loop -/

/-- A daemon, with its servers as they are. -/
structure Daemon where
  servers : Servers
  startTime : ℕ

/-- Where `tray_dashboard_loop` stands. -/
inductive Stage where
  /-- There is no status yet. -/
  | waiting
  | running (status : DaemonStatus) (ui : DashboardUi)
  | returned

/-- The dashboard, and the daemon behind the socket. -/
structure State where
  daemon : Option Daemon
  /-- The shutdown token. -/
  cancelled : Bool
  stage : Stage

/-- The labels of the step function. An answer is what arrives from the
socket, if there is someone behind it. -/
inductive Event where
  /-- The daemon starts, ends, or changes. -/
  | daemon (daemon : Option Daemon)
  /-- Someone else cancels the shutdown token. -/
  | cancel
  /-- A round of the first loop; `built` is whether `build_dashboard` succeeds. -/
  | ask (answer : Option Bytes) (built : Bool)
  /-- The second loop meets the shutdown. -/
  | shutdown
  /-- A tick of it: the menu events, each of "Quit Dashboard" or of another
  item, and the answer. -/
  | tick (quits : List Bool) (answer : Option Bytes)

/-- The answer of an event. -/
def Event.answer : Event → Option Bytes
  | .ask answer _ | .tick _ answer => answer
  | .daemon _ | .cancel | .shutdown => none

namespace State

/-- Where the dashboard begins. -/
def init : State where
  daemon := none
  cancelled := false
  stage := .waiting

/-- **One step**, of the daemon or of the dashboard. -/
def step (floats : Json.Floats) (s : State) : Event → Option State
  | .daemon daemon => some { s with daemon := daemon }
  | .cancel => some { s with cancelled := true }
  | .ask answer built =>
    match s.stage with
    | .waiting =>
      if s.cancelled then some { s with stage := .returned }
      else
        match answer.bind (queryStatus floats) with
        | some status =>
          some { s with
            stage := if built then .running status (buildDashboard status) else .returned }
        | none => some s
    | _ => none
  | .shutdown =>
    match s.stage with
    | .running _ _ => if s.cancelled then some { s with stage := .returned } else none
    | _ => none
  | .tick quits answer =>
    match s.stage with
    | .running _ ui =>
      if quits.any id then some { s with cancelled := true, stage := .returned }
      else
        match answer.bind (queryStatus floats) with
        | some status => some { s with stage := .running status (ui.update status) }
        | none => some s
    | _ => none

end State

end Dashboard

end VcOperator
