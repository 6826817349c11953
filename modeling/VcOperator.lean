import VcOperator.Common.Run
import VcOperator.Common.HashMap
import VcOperator.Common.LastSet
import VcOperator.Common.Correspond
import VcOperator.Common.OrderedMap
import VcOperator.Common.Names
import VcOperator.Common.LockProgram
import VcOperator.Json.Value
import VcOperator.Json.Encode
import VcOperator.Json.Text
import VcOperator.Json.Print
import VcOperator.Json.RoundTrip
import VcOperator.Mux.Model.State
import VcOperator.Mux.Model.Shared
import VcOperator.Mux.Model.Client
import VcOperator.Mux.Model.Router
import VcOperator.Mux.Model.Heartbeat
import VcOperator.Mux.Model.Manager
import VcOperator.Mux.Model.Step
import VcOperator.Mux.Model.LockSites
import VcOperator.Mux.Places
import VcOperator.Mux.Helpers.Frames
import VcOperator.Mux.Helpers.Steps
import VcOperator.Mux.Helpers.Lockstep
import VcOperator.Mux.Helpers.ManagerMoves
import VcOperator.Mux.Helpers.Connections
import VcOperator.Mux.Helpers.Supervision
import VcOperator.Mux.Requests
import VcOperator.Mux.Bounds
import VcOperator.Mux.Departed
import VcOperator.Mux.Exact
import VcOperator.Mux.Order
import VcOperator.Mux.Resets
import VcOperator.Mux.Incarnations
import VcOperator.Mux.IssuedIds
import VcOperator.Mux.Addressing
import VcOperator.Mux.Stale
import VcOperator.Mux.Handshakes
import VcOperator.Mux.Initialize
import VcOperator.Mux.Locking
import VcOperator.Mux.Children
import VcOperator.Mux.Probes
import VcOperator.Mux.Restarts
import VcOperator.Mux.ReaderEnd
import VcOperator.Mux.Cleanup
import VcOperator.Mux.CachedResults
import VcOperator.Mux.CachedAnswer
import VcOperator.Mux.RestartLimit
import VcOperator.Mux.Backoff
import VcOperator.Mux.Supervisor
import VcOperator.Proxy.Model
import VcOperator.Proxy.Counting
import VcOperator.Session.Model
import VcOperator.Session.HalfClose
import VcOperator.Config.Model.Services
import VcOperator.Config.Model.Generate
import VcOperator.Config.Model.Wizard
import VcOperator.Config.Model.Files
import VcOperator.Config.Model.Danger
import VcOperator.Config.Model.Params
import VcOperator.Config.Model.Builder
import VcOperator.Config.Builder
import VcOperator.Config.Model.Backup
import VcOperator.Config.Model.Rewire
import VcOperator.Config.Helpers.VariantNames
import VcOperator.Config.Helpers.Merge
import VcOperator.Config.Helpers.Entries
import VcOperator.Config.DistinctNames
import VcOperator.Config.MergeExact
import VcOperator.Config.MultiService
import VcOperator.Config.Helpers.Sockets
import VcOperator.Config.DistinctSockets
import VcOperator.Config.PerClient
import VcOperator.Config.ExactRewrite
import VcOperator.Config.Agreement
import VcOperator.Config.Backup
import VcOperator.Config.BakFile
import VcOperator.Config.Disabled
import VcOperator.Config.Rollback
import VcOperator.Config.Provenance
import VcOperator.Config.Rerun
import VcOperator.Config.Idempotent
import VcOperator.Config.Unified
import VcOperator.Config.Helpers.Documents
import VcOperator.Config.Helpers.Snippets
import VcOperator.Control.Model.Command
import VcOperator.Control.Model.Verify
import VcOperator.Control.Verify
import VcOperator.Control.Model.Connection
import VcOperator.Control.Framing
import VcOperator.Control.Model.Subscription
import VcOperator.Control.Subscription
import VcOperator.Control.Model.Subscriber
import VcOperator.Control.KeptOpen
import VcOperator.Control.Model.Startup
import VcOperator.Control.OnePlane
import VcOperator.Status.Model.Snapshot
import VcOperator.Status.Producers
import VcOperator.Status.Model.Document
import VcOperator.Status.Mirror
import VcOperator.Status.Model.Writer
import VcOperator.Status.Helpers.Writers
import VcOperator.Status.WholeReads
import VcOperator.Status.Freshness
import VcOperator.Status.Model.Panel
import VcOperator.Status.Panel
import VcOperator.Control.Model.Protocol
import VcOperator.Control.Protocol
import VcOperator.Tray.Model
import VcOperator.Tray.GivesUp
import VcOperator.Common.FileTree
import VcOperator.Common.FirstOf
import VcOperator.Common.Text
import VcOperator.Common.Scanner
import VcOperator.Kdl.Token
import VcOperator.Kdl.Document
import VcOperator.Shell.Token
import VcOperator.Shell.Expand
import VcOperator.Board.Model.Load
import VcOperator.Board.Rooted
import VcOperator.Board.Model.Archive
import VcOperator.Board.Helpers.Contents
import VcOperator.Board.Helpers.Orders
import VcOperator.Board.Archive
import VcOperator.Board.Aging
import VcOperator.Board.NewestFirst
import VcOperator.Board.Recent
import VcOperator.Board.FilesOnly
import VcOperator.Launch.Model.Command
import VcOperator.Launch.Model.Action
import VcOperator.Launch.Readiness
import VcOperator.Launch.SeenFirst
import VcOperator.Launch.Quoting
import VcOperator.Launch.Layout
import VcOperator.Wizard.Model.Keys
import VcOperator.Wizard.Model.Persist
import VcOperator.Wizard.Confirmed
import VcOperator.Wizard.Selection
import VcOperator.Config.Rewire
import VcOperator.Common.Watch
import VcOperator.Common.Volume
import VcOperator.Common.Cursor
import VcOperator.Console.Model.App
import VcOperator.Console.Model.Keys
import VcOperator.Console.Editor
import VcOperator.Console.Cursors
import VcOperator.Polarize.Model
import VcOperator.Polarize.Prisms
import VcOperator.Polarize.Newest
import VcOperator.Mux.Helpers.Publishing
import VcOperator.Mux.Published
import VcOperator.Mux.Timeouts
import VcOperator.Session.Transparent
import VcOperator.Console.Launches
import VcOperator.Json.Truncated
import VcOperator.Control.Truncated
import VcOperator.Status.Model.Endpoint
import VcOperator.Status.Endpoint
import VcOperator.Menu.Model.MuxTray
import VcOperator.Menu.MuxTray
import VcOperator.Menu.Model.Dashboard
import VcOperator.Menu.Dashboard
import VcOperator.Tray.Model.Commands
import VcOperator.Tray.Exchange
import VcOperator.Tray.Model.EventLoop
import VcOperator.Tray.EventLoop
import VcOperator.Console.Model.Viewer
import VcOperator.Console.Viewer
import VcOperator.Console.Model.MainLoop
import VcOperator.Common.FirstFit
import VcOperator.Wizard.Model.Processes
import VcOperator.Wizard.Processes
import VcOperator.Console.MainLoop
import VcOperator.Console.Options
