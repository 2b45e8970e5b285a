import ControlLogix.Encapsulation
import ControlLogix.TcpConnection
import ControlLogix.Buffers
import ControlLogix.ExplicitMessage
import ControlLogix.Cip
import ControlLogix.Session
import ControlLogix.Tag
import ControlLogix.Client
import ControlLogix.PlcClient
import ControlLogix.Transition
import ControlLogix.World
import ControlLogix.Busy
import ControlLogix.Callbacks
import ControlLogix.Deadlines
import ControlLogix.Recycling
import ControlLogix.Freshness
import ControlLogix.Endings
import ControlLogix.Requests
import ControlLogix.Connections
import ControlLogix.Framing
import ControlLogix.Outgoing
import ControlLogix.Matching
import ControlLogix.Uplink
import ControlLogix.Recovery
import ControlLogix.Alternation
import ControlLogix.Queued
import ControlLogix.Reentrancy
import ControlLogix.Exchange
import ControlLogix.Connection
import ControlLogix.Chunking
import ControlLogix.Closing
import ControlLogix.Link
import ControlLogix.Lifecycle
import ControlLogix.Contexts
import ControlLogix.Capacity
import ControlLogix.Conversation
import ControlLogix.Server
import ControlLogix.TagStore
import ControlLogix.Connected
import ControlLogix.Absorbing
import ControlLogix.Timeouts
import ControlLogix.Tlv
import ControlLogix.Parsing
import ControlLogix.Received
import ControlLogix.Asked
import ControlLogix.WriteBack
import ControlLogix.Stale
import ControlLogix.Provenance
import ControlLogix.Identity
import ControlLogix.Registration
import ControlLogix.Handles
import ControlLogix.Descriptors
import ControlLogix.Accessors
import ControlLogix.Arrays
import ControlLogix.Strings
import ControlLogix.Encoders
import ControlLogix.Bounds
import ControlLogix.RoundTrip
import ControlLogix.Additional
import ControlLogix.Agreement
import ControlLogix.Losses
import ControlLogix.Replays
import ControlLogix.Refusals
import ControlLogix.Struct
import ControlLogix.Header
import ControlLogix.Sockets
import ControlLogix.Pool
import ControlLogix.Registry
import ControlLogix.Frames
import ControlLogix.Serving
import ControlLogix.Polling
import ControlLogix.Site
import ControlLogix.Readiness
import ControlLogix.Service
import ControlLogix.Subnets
import ControlLogix.LanInventory
import ControlLogix.Scan
import ControlLogix.Probing
import ControlLogix.Duration
import ControlLogix.Inventory
