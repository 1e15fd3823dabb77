import RoqHtx.Framework.Calendar
import RoqHtx.Framework.Checked
import RoqHtx.Framework.Counter
import RoqHtx.Framework.Digits
import RoqHtx.Framework.Download
import RoqHtx.Framework.Fifo
import RoqHtx.Framework.FirstMatch
import RoqHtx.Framework.JsonText
import RoqHtx.Framework.Limit
import RoqHtx.Framework.Machine
import RoqHtx.Framework.Outcome
import RoqHtx.Framework.Percent
import RoqHtx.Framework.Query
import RoqHtx.Framework.Sequencer
import RoqHtx.Framework.Simulation
import RoqHtx.Framework.Slicing
import RoqHtx.Impl.Api
import RoqHtx.Impl.Book
import RoqHtx.Impl.Channel
import RoqHtx.Impl.Controller
import RoqHtx.Impl.Crypto
import RoqHtx.Impl.DropCopy
import RoqHtx.Impl.Encoder
import RoqHtx.Impl.Gateway
import RoqHtx.Impl.Json
import RoqHtx.Impl.Market
import RoqHtx.Impl.MarketReader
import RoqHtx.Impl.MarketSystem
import RoqHtx.Impl.MbpFeed
import RoqHtx.Impl.OrderEntry
import RoqHtx.Impl.Parser
import RoqHtx.Impl.Process
import RoqHtx.Impl.ProcessReader
import RoqHtx.Impl.Reader
import RoqHtx.Impl.Reports
import RoqHtx.Impl.ReportsReader
import RoqHtx.Impl.Response
import RoqHtx.Impl.Rest
import RoqHtx.Impl.Sockets
import RoqHtx.Impl.SocketsReader
import RoqHtx.Impl.System
import RoqHtx.Impl.Throttle
import RoqHtx.Impl.Throttle64
import RoqHtx.Proof.AccountRecovery
import RoqHtx.Proof.Accounts
import RoqHtx.Proof.Acks
import RoqHtx.Proof.Announcements
import RoqHtx.Proof.Answers
import RoqHtx.Proof.Batch
import RoqHtx.Proof.Bodies
import RoqHtx.Proof.Books
import RoqHtx.Proof.Channels
import RoqHtx.Proof.Composition
import RoqHtx.Proof.Construction
import RoqHtx.Proof.Correlation
import RoqHtx.Proof.Dispatch
import RoqHtx.Proof.Encoding
import RoqHtx.Proof.Frame
import RoqHtx.Proof.Funds
import RoqHtx.Proof.Handover
import RoqHtx.Proof.HeaderOrder
import RoqHtx.Proof.Identifiers
import RoqHtx.Proof.Isolation
import RoqHtx.Proof.Login
import RoqHtx.Proof.Market
import RoqHtx.Proof.OrderMap
import RoqHtx.Proof.Outstanding
import RoqHtx.Proof.Overflow
import RoqHtx.Proof.Ownership
import RoqHtx.Proof.Passes
import RoqHtx.Proof.Queues
import RoqHtx.Proof.Ready
import RoqHtx.Proof.Recovery
import RoqHtx.Proof.Reports
import RoqHtx.Proof.Requests
import RoqHtx.Proof.Responses
import RoqHtx.Proof.Routing
import RoqHtx.Proof.Sends
import RoqHtx.Proof.Separation
import RoqHtx.Proof.Settling
import RoqHtx.Proof.Signatures
import RoqHtx.Proof.Slices
import RoqHtx.Proof.Snapshot
import RoqHtx.Proof.Sockets
import RoqHtx.Proof.Stages
import RoqHtx.Proof.Stale
import RoqHtx.Proof.Stall
import RoqHtx.Proof.Steps
import RoqHtx.Proof.Streams
import RoqHtx.Proof.Superseded
import RoqHtx.Proof.Texts
import RoqHtx.Proof.Throttle
import RoqHtx.Proof.Throttle64
import RoqHtx.Proof.Trading
