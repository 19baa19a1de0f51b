import Kitex.Http2.ControlBufferRuns
import Kitex.Http2.LoopyPayload
import Kitex.Http2.Inbound
import Kitex.Http2.ClientQuota
import Kitex.Http2.ClientWaiting
import Kitex.Http2.ClientGoAway
import Kitex.Http2.ClientStreamIDs
import Kitex.Http2.ServerLimit
import Kitex.Http2.ServerGoAway
import Kitex.Http2.ServerPings
import Kitex.Http2.SettingsWindow
import Kitex.TTStream.MuxConnPool
import Kitex.TTStream.ClientStreamReason
import Kitex.TTStream.ClientTransportEnd
import Kitex.TTStream.ClientTransportIsolation
import Kitex.TTStream.LongConnExclusive
import Kitex.TTStream.ServerStreamFrames
import Kitex.TTStream.ServerRelease
import Kitex.LoadBalance.Alias
import Kitex.LoadBalance.ConsistPick
import Kitex.ConnPool.LongPoolOrder
import Kitex.ConnPool.LongPoolConserved
import Kitex.ConnPool.LongPoolReach
import Kitex.Utils.SharedTicker
import Kitex.Retry.DoRuns
import Kitex.Retry.PolicyRuns
import Kitex.Retry.ContainerRuns
import Kitex.Retry.PolicyEquals
import Kitex.Generic.ParseServices
import Kitex.Generic.JSConv
import Kitex.Generic.Reserved
import Kitex.Nphttp2.ShortConn
import Kitex.Nphttp2.ServerAnswers
import Kitex.NetpollMux.MuxConn
import Kitex.Client.TimeoutTaskErrors
import Kitex.RpcInfo.ServerReuse
import Kitex.RpcInfo.Frozen
import Kitex.Remote.PooledObjects
import Kitex.Codec.SizeLimit
import Kitex.Grpcframe.HeaderBlocks
import Kitex.Http2.TrInFlow
import Kitex.Http2.WriteQuota
import Kitex.Http2.RecvBuffer
import Kitex.Http2.LoopyErrors
import Kitex.Http2.Timeout
import Kitex.Http2.GrpcMessage
import Kitex.Http2.BufWriter
import Kitex.TTStream.ClientStreamMeta
import Kitex.LoadBalance.Interleaved
import Kitex.Limiter.LimiterRuns
import Kitex.Limiter.Tickers
import Kitex.Server.ServiceLookup
import Kitex.Warmup.PoolHelper
import Kitex.Remote.DefaultByteBuf
import Kitex.TTStream.Framing
import Kitex.Events.Queue
import Kitex.Remote.LogBackoff
import Kitex.Codec.MeshHeader
