import ServiceBus.Bus.Accept
import ServiceBus.Bus.Basic
import ServiceBus.Bus.Error
import ServiceBus.Bus.Finish
import ServiceBus.Bus.Queue
import ServiceBus.Bus.Route
import ServiceBus.Bus.Selector
import ServiceBus.Bus.Send
import ServiceBus.Bus.Storage
import ServiceBus.Config.Basic
import ServiceBus.Config.Read
import ServiceBus.Decimal.Binary64
import ServiceBus.Decimal.Shortest
import ServiceBus.Endpoint.Basic
import ServiceBus.Endpoint.Reference
import ServiceBus.Exchange.Basic
import ServiceBus.Exchange.Message
import ServiceBus.Exchange.Snapshot
import ServiceBus.Files.Path
import ServiceBus.Files.Tree
import ServiceBus.Json.Basic
import ServiceBus.Json.Decode
import ServiceBus.Json.Numeral
import ServiceBus.Json.Parser
import ServiceBus.Json.Print
import ServiceBus.Json.Raw
import ServiceBus.Json.Token
import ServiceBus.Name
import ServiceBus.Proofs.Exchange.History
import ServiceBus.Proofs.Exchange.Moves
import ServiceBus.Proofs.Exchange.Onward
import ServiceBus.Proofs.Exchange.Shown
import ServiceBus.Proofs.Exchange.Sound
import ServiceBus.Proofs.Registry.Filed
import ServiceBus.Proofs.Registry.Index
import ServiceBus.Proofs.Registry.Lookup
import ServiceBus.Registry.Basic
import ServiceBus.Registry.Lookup
import ServiceBus.Simulation.Action
import ServiceBus.Simulation.Basic
import ServiceBus.Simulation.Calls
import ServiceBus.Simulation.Immediate
import ServiceBus.Simulation.Launch
import ServiceBus.Simulation.Schedule
import ServiceBus.Simulation.Storage
import ServiceBus.Store.Basic
import ServiceBus.Store.Directory
import ServiceBus.Store.Memory
import ServiceBus.Store.Open
import ServiceBus.Table
import ServiceBus.Text.Document
import ServiceBus.Text.Duration
import ServiceBus.Text.Hex
import ServiceBus.Text.Percent
import ServiceBus.Text.Printable
import ServiceBus.Text.Quoted
import ServiceBus.Toml.Basic
import ServiceBus.Toml.Parser
import ServiceBus.Toml.Scalar
import ServiceBus.Turn
import ServiceBus.Proofs.Bus.Route
import ServiceBus.Proofs.Bus.Evolution
import ServiceBus.Proofs.Bus.Agreement
import ServiceBus.Proofs.Registry.Mirror
import ServiceBus.Proofs.Bus.Stirs
import ServiceBus.Proofs.Bus.Turns
import ServiceBus.Proofs.Bus.Traffic
import ServiceBus.Proofs.Bus.Dispatched
import ServiceBus.Proofs.Bus.Processed
import ServiceBus.Proofs.Store.Names
import ServiceBus.Proofs.Files.Tree
import ServiceBus.Proofs.Store.Kept
import ServiceBus.Proofs.Bus.Affairs
import ServiceBus.Proofs.Bus.Accesses
import ServiceBus.Proofs.Bus.Tracked
import ServiceBus.Proofs.Bus.Forgotten
import ServiceBus.Proofs.Exchange.Snapshot
import ServiceBus.Proofs.Bus.Recorded
import ServiceBus.Proofs.Bus.Queues
import ServiceBus.Proofs.Bus.Passages
import ServiceBus.Proofs.Bus.Courses
import ServiceBus.Proofs.Bus.Network
import ServiceBus.Proofs.Bus.WriteAhead
import ServiceBus.Proofs.Bus.Flights
import ServiceBus.Proofs.Bus.Restored
import ServiceBus.Proofs.Bus.Scenes
import ServiceBus.Proofs.Bus.Connections
import ServiceBus.Proofs.Bus.Lines
import ServiceBus.Proofs.Bus.Fetched
import ServiceBus.Proofs.Bus.Awaited
import ServiceBus.Proofs.Bus.Released
import ServiceBus.Proofs.Bus.Deadlines
import ServiceBus.Proofs.Bus.Halted
import ServiceBus.Proofs.Registry.Cleared
import ServiceBus.Proofs.Json.Read
import ServiceBus.Proofs.Files.Inside
import ServiceBus.Proofs.Store.Entries
import ServiceBus.Proofs.Store.Records
import ServiceBus.Proofs.Store.Served
import ServiceBus.Proofs.Store.Failed
import ServiceBus.Proofs.Store.Shared
import ServiceBus.Proofs.Store.Interleaved
import ServiceBus.Proofs.Json.Fields
import ServiceBus.Proofs.Endpoint.Written
import ServiceBus.Proofs.Registry.References
import ServiceBus.Proofs.Exchange.Written
import ServiceBus.Proofs.Exchange.Resumed
import ServiceBus.Proofs.Bus.Versions
import ServiceBus.Proofs.Registry.Withdrawals
import ServiceBus.Proofs.Registry.Owners
import ServiceBus.Proofs.Registry.Told
import ServiceBus.Proofs.Bus.Followed
import ServiceBus.Proofs.Bus.Tended
import ServiceBus.Proofs.Bus.Timeouts
import ServiceBus.Proofs.Registry.Resolution
import ServiceBus.Proofs.Registry.Reordered
import ServiceBus.Proofs.Bus.Unready
import ServiceBus.Proofs.Bus.Responses
import ServiceBus.Proofs.Endpoint.Displayed
import ServiceBus.Proofs.Bus.Rotation
import ServiceBus.Proofs.Bus.Picked
import ServiceBus.Proofs.Bus.Shares
import ServiceBus.Proofs.Files.Destination
import ServiceBus.Proofs.Store.Paths
import ServiceBus.Proofs.Store.Depot
import ServiceBus.Proofs.Store.Isolated
