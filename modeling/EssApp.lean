import EssApp.Lib.Run
import EssApp.Lib.Table
import EssApp.Lib.Keyed
import EssApp.Lib.Places
import EssApp.Js.Value
import EssApp.Js.Json
import EssApp.Js.Object
import EssApp.Server.Merge
import EssApp.Server.WebSocketServer
import EssApp.Server.Completion
import EssApp.Server.Reply
import EssApp.Server.Route
import EssApp.Server.Stored
import EssApp.Server.Reported
import EssApp.Server.Once
import EssApp.Readme.Database
import EssApp.Readme.Server
import EssApp.Readme.Growth
import EssApp.Readme.Overtaken
import EssApp.Readme.Refine
import EssApp.Sync.App
import EssApp.Sync.Net
import EssApp.Sync.Validated
import EssApp.Sync.Relay
import EssApp.Sync.Converge
import EssApp.Sync.Removed
import EssApp.Server.Clients
import EssApp.Server.AnyIds
import EssApp.Readme.Specification
import EssApp.Readme.Order
import EssApp.Readme.Turns
import EssApp.App.Connection
import EssApp.App.Uploads
import EssApp.App.Stop
import EssApp.App.Status
import EssApp.App.MapCtrl
import EssApp.App.Redraw
import EssApp.App.Draw
import EssApp.App.Storage
import EssApp.App.Deletion
import EssApp.App.Restart
import EssApp.Lib.Trace
import EssApp.Lib.Fifo
import EssApp.Lib.Pipeline
import EssApp.Lib.Simulation
import EssApp.App.Refine
import EssApp.App.Menu
import EssApp.App.Location
import EssApp.App.Visits
import EssApp.Sync.Texts
import EssApp.Sync.Network
import EssApp.Sync.Provenance
import EssApp.Sync.Route
import EssApp.Sync.Remembered
import EssApp.Readme.Queue
import EssApp.Readme.Reboot
import EssApp.Sync.Delivery
import EssApp.Sync.Reports
import EssApp.Sync.Layers
import EssApp.Sync.Sockets
import EssApp.Sync.Acknowledged
import EssApp.Sync.EndToEnd
