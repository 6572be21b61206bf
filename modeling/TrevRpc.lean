import TrevRpc.Datagram.Sent
import TrevRpc.Go.DatagramBatch
import TrevRpc.Go.DrainingStream
import TrevRpc.Go.FlowSet
import TrevRpc.Go.Optimistic.Upload
import TrevRpc.Go.Qmux.Accepting
import TrevRpc.Go.Qmux.Agreement
import TrevRpc.Go.Qmux.Endings
import TrevRpc.Go.Qmux.Stranding
import TrevRpc.Go.ReadAhead.Handshake
import TrevRpc.Go.ResponseStream
import TrevRpc.Js.Qmux.Credit
import TrevRpc.Js.Qmux.Emission
import TrevRpc.Js.Qmux.Records
import TrevRpc.Js.Race
import TrevRpc.Kotlin.CallStream.Upload
import TrevRpc.Kotlin.FrameDecoder
import TrevRpc.Kotlin.ResponsePump
import TrevRpc.Negotiation.Runtimes
import TrevRpc.Proxy.Streams
import TrevRpc.Qmux.Parameters
import TrevRpc.Rust.Channel
import TrevRpc.Rust.ClientStream
import TrevRpc.Rust.Datagram.Requests
import TrevRpc.Rust.HappyEyeballs
import TrevRpc.Rust.OptimisticCall
import TrevRpc.Rust.PreflightGrammar
import TrevRpc.Rust.QuicPool
import TrevRpc.Rust.RequestPump
import TrevRpc.Rust.RetryPolicy
import TrevRpc.Rust.ServerTransport.Accepted
import TrevRpc.Rust.StreamSync
import TrevRpc.Rust.WakeGate
import TrevRpc.Zstd.Accepted
