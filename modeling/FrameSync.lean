import FrameSync.Buffer.Loans
import FrameSync.Failure
import FrameSync.Main
import FrameSync.Room.Arena
import FrameSync.Server.Exchange
import FrameSync.Proofs.Room.Seating
import FrameSync.Proofs.Room.Invariant
import FrameSync.Proofs.Room.History
import FrameSync.Proofs.Room.Broadcast
import FrameSync.Proofs.Wire.Canonical
import FrameSync.Proofs.Directory.Indexes
import FrameSync.Proofs.Net.Reassembly
import FrameSync.Proofs.Room.Readiness
import FrameSync.Proofs.Room.Ticking
import FrameSync.Proofs.Room.Turns
import FrameSync.Proofs.Room.TickTask
import FrameSync.Proofs.Server.Steps
import FrameSync.Proofs.Server.Membership
import FrameSync.Proofs.Server.Agreement
import FrameSync.Proofs.Room.InputBits
import FrameSync.Proofs.Server.Routing
import FrameSync.Proofs.Server.Joins
import FrameSync.Proofs.Server.Start
import FrameSync.Proofs.Server.Refusals
import FrameSync.Proofs.Tick.Pace
import FrameSync.Proofs.Room.Grid
import FrameSync.Proofs.Server.Lifecycle
import FrameSync.Proofs.Room.LowBits
import FrameSync.Proofs.Server.Untrusted
import FrameSync.Proofs.Server.Commuting
import FrameSync.Proofs.Room.Verdicts
import FrameSync.Proofs.Server.Verdicts
import FrameSync.Proofs.Net.Notices
import FrameSync.Proofs.Net.LobbyConnection
import FrameSync.Proofs.Net.BattleSessions
import FrameSync.Proofs.Room.Lifecycle
import FrameSync.Proofs.Room.InputOrder
import FrameSync.Proofs.Tick.Backlog
import FrameSync.Proofs.Wire.Framing
import FrameSync.Proofs.Buffer.Queues
import FrameSync.Proofs.Buffer.Classes
import FrameSync.Proofs.Buffer.Sends
import FrameSync.Proofs.Room.Confinement
import FrameSync.Proofs.Server.Attribution
import FrameSync.Proofs.Buffer.Conservation
import FrameSync.Proofs.Buffer.Unpooled
import FrameSync.Proofs.Server.Tracking
import FrameSync.Proofs.Server.Shutdown
import FrameSync.Proofs.Directory.Bindings
import FrameSync.Proofs.Room.Storage
import FrameSync.Proofs.Net.Generations
import FrameSync.Proofs.Server.Presence
import FrameSync.Proofs.Server.Replies
