import TgWsProxy.Core.Bytes
import TgWsProxy.Core.Keystream
import TgWsProxy.Core.Framing
import TgWsProxy.Core.Dict
import TgWsProxy.Core.Transition
import TgWsProxy.Core.Nursery
import TgWsProxy.StreamReader
import TgWsProxy.Utils
import TgWsProxy.Datacenters
import TgWsProxy.Obfuscation.Aes
import TgWsProxy.Obfuscation.Handshake
import TgWsProxy.Obfuscation.ReEncrypt
import TgWsProxy.Bridge.MsgSplitter
import TgWsProxy.FakeTls.Stream
import TgWsProxy.FakeTls.Transparency
import TgWsProxy.H2.ReadPacket
import TgWsProxy.H2.EncodeReply
import TgWsProxy.H2.Lane.Types
import TgWsProxy.H2.Lane.Channel
import TgWsProxy.H2.Lane.System
import TgWsProxy.H2.Lane.Move
import TgWsProxy.H2.Lane.Moves
import TgWsProxy.H2.Lane.Turn
import TgWsProxy.H2.Lane.Turns
import TgWsProxy.H2.Lane.Runs
import TgWsProxy.H2.Lane.Requests
import TgWsProxy.Bridge.Framers
import TgWsProxy.WebSocket.Frame
import TgWsProxy.WebSocket.Recv
import TgWsProxy.Balancer.Breaker
import TgWsProxy.Balancer.Interleaving
import TgWsProxy.Balancer.Refresh
import TgWsProxy.Core.Shelf
import TgWsProxy.Core.Registry
import TgWsProxy.Pool.CfWorkerPool
import TgWsProxy.Pool.Overtaken
import TgWsProxy.Pool.WsPool
import TgWsProxy.Pool.Account
import TgWsProxy.Pool.WsShape
import TgWsProxy.Pool.WsAccount
import TgWsProxy.Pool.WsClose
import TgWsProxy.Pool.CfWorkerAccount
import TgWsProxy.Pool.Leaks
import TgWsProxy.H2.Transport.Library
import TgWsProxy.H2.Transport.Connection
import TgWsProxy.WebSocket.Close
import TgWsProxy.Pool.Liveness
import TgWsProxy.Pool.Ladder
import TgWsProxy.Pool.Resting
import TgWsProxy.Bridge.TcpFallback
import TgWsProxy.Core.Source
import TgWsProxy.Core.Pump
import TgWsProxy.Bridge.TcpToWs
import TgWsProxy.WebSocket.Traffic
import TgWsProxy.Core.Utf8
import TgWsProxy.Bridge.WsSession
import TgWsProxy.Bridge.WsSessionKept
import TgWsProxy.Bridge.Session
import TgWsProxy.Bridge.TcpSession
import TgWsProxy.FakeTls.EndOfStream
import TgWsProxy.H2.Lane.Replies
import TgWsProxy.H2.Transport.SendBody
import TgWsProxy.H2.Transport.Response
import TgWsProxy.H2.Lane.History
import TgWsProxy.H2.Transport.Credit
import TgWsProxy.H2.Transport.Wakeups
import TgWsProxy.H2.Transport.Connect
import TgWsProxy.H2.Pool.Setup
import TgWsProxy.H2.Pool.Sound
import TgWsProxy.H2.Pool.SingleFlight
import TgWsProxy.Obfuscation.Announcement
import TgWsProxy.Core.Fields
import TgWsProxy.FakeTls.ClientHello
import TgWsProxy.FakeTls.ServerHello
import TgWsProxy.FakeTls.Verify
import TgWsProxy.FakeTls.Masking
import TgWsProxy.Admission
import TgWsProxy.Server
import TgWsProxy.Core.Regex
import TgWsProxy.Core.Binary64
import TgWsProxy.Core.Text
import TgWsProxy.DomainCensor
import TgWsProxy.Settings
import TgWsProxy.WebSocket.Connect
import TgWsProxy.Bridge.Fallback
import TgWsProxy.InstanceLock
import TgWsProxy.H2.Lane.Book
import TgWsProxy.FakeTls.Probe
import TgWsProxy.H2.Lane.Packets
import TgWsProxy.H2.Lane.Downstream
import TgWsProxy.H2.Lane.Next
import TgWsProxy.H2.Lane.Ownership
import TgWsProxy.H2.Lane.Rotation
import TgWsProxy.H2.Lane.Backlog
import TgWsProxy.H2.Lane.Replay
import TgWsProxy.H2.Lane.Bounds
import TgWsProxy.H2.Lane.Reservations
import TgWsProxy.H2.Lane.Upstream
import TgWsProxy.H2.Session
import TgWsProxy.Update.Apply
import TgWsProxy.Update.Atomic
import TgWsProxy.Update.Release
import TgWsProxy.Update.Relaunch
import TgWsProxy.Balancer.DomainPool
