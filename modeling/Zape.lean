import Zape.Machine.Bytes
import Zape.Machine.Transducer
import Zape.Machine.Segment
import Zape.Machine.DoubleList
import Zape.Machine.Loop
import Zape.Machine.Runs
import Zape.Machine.Cells
import Zape.Zig.Runtime
import Zape.Zig.Text
import Zape.Zig.Sha1
import Zape.Network.Client
import Zape.WebSocket.Client
import Zape.WebSocket.State
import Zape.WebSocket.Accept
import Zape.WebSocket.Wire
import Zape.WebSocket.Decoding
import Zape.WebSocket.Sending
import Zape.WebSocket.Delivery
import Zape.WebSocket.Unmasked
import Zape.WebSocket.Closing
import Zape.WebSocket.Goodbye
import Zape.WebSocket.Framing
import Zape.WebSocket.Fragments
import Zape.Http.Parser
import Zape.Http.Script
import Zape.Http.Request
import Zape.Http.Server
import Zape.Http.Collecting
import Zape.Http.Serving
import Zape.Http.KeepAlive
import Zape.Http.Upgrade
import Zape.Http.Failing
import Zape.Http.Completing
import Zape.Http.Bodies
import Zape.Http.Storing
import Zape.Http.Handlers
import Zape.Http.Switching
import Zape.Ape.Pool
import Zape.Ape.Shape
import Zape.Ape.Socket
import Zape.Ape.Jobs
import Zape.Ape.Packets
import Zape.Ape.Queueing
import Zape.Ape.Writing
import Zape.Ape.Flushing
import Zape.Ape.Draining
import Zape.Ape.Offering
import Zape.Ape.Graceful
import Zape.Ape.Closing
import Zape.Ape.Ending
import Zape.Ape.Freeing
import Zape.Ape.Duties
import Zape.Ape.Serving
import Zape.Ape.Owning
import Zape.Ape.Leaking
import Zape.Ape.Secure
import Zape.Ape.Counting
import Zape.Ape.Drained
import Zape.Ape.Vectored
import Zape.Ape.Buffering
import Zape.Ape.Slots
import Zape.Ape.Ordering
import Zape.Ape.Api
import Zape.Ape.Requests
import Zape.Ape.Typing
import Zape.Timers.Process
import Zape.Timers.Linked
import Zape.Timers.Scanning
import Zape.Timers.Timeout
import Zape.Timers.Growing
import Zape.Timers.Passing
import Zape.Timers.Async
import Zape.Timers.Protocol
import Zape.Timers.Settling
import Zape.Timers.Cancelling
import Zape.Ape.Blocking
import Zape.Ape.Connection
import Zape.Ape.Lifecycle
import Zape.Ape.Releasing
import Zape.Ape.Reading
import Zape.Ape.Silence
import Zape.Ape.Waking
import Zape.Hash.Table
import Zape.Hash.Layout
import Zape.Hash.Upkeep
import Zape.Hash.Mapping
import Zape.Hash.Cleaning
import Zape.Hash.Folding
import Zape.Events.Epoll
import Zape.Dns.Sockets
import Zape.Dns.Slots
import Zape.Dns.Directions
import Zape.Buffer.Gzip
import Zape.Buffer.Pending
import Zape.Events.Select
import Zape.Events.Registry
import Zape.Events.Polling
import Zape.Events.Ready
import Zape.Events.Rounds
import Zape.Events.Batch
import Zape.Ape.Global
import Zape.Ape.Moves
import Zape.Ape.Registered
import Zape.Ape.Descriptors
import Zape.Ape.Dialing
import Zape.Ape.Lookups
import Zape.Ape.Resolving
import Zape.Ape.Aside
import Zape.Ape.Accepting
import Zape.Ape.Destroying
import Zape.Ape.Blockwise
import Zape.Events.Capacity
import Zape.WebSocket.Bounds
import Zape.Timers.Rounding
import Zape.Buffer.Plain
import Zape.Buffer.Terminated
import Zape.Buffer.Output
import Zape.Buffer.Doubling
import Zape.Buffer.Window
import Zape.Machine.Delimited
import Zape.WebSocket.Peer
import Zape.Http.Echo
import Zape.Ape.Streaming
import Zape.WebSocket.Carrying
import Zape.Hash.Emptying
import Zape.Http.Clients
import Zape.Buffer.Latin
import Zape.Ape.Records
import Zape.Http.Reply
import Zape.Timers.Sweeping
import Zape.Ape.Receiving
import Zape.WebSocket.Arriving
import Zape.Ape.Buffered
import Zape.Events.Kqueue
