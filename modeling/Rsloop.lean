import Rsloop.Stream.GracefulClose
import Rsloop.Engine.RunExit
import Rsloop.Server.WaitClosed
import Rsloop.Connect.EveryAddress
import Rsloop.Process.CallbackOrder
import Rsloop.Process.FailingCallbacks
import Rsloop.Stream.ReadWakeups
import Rsloop.Stream.ReadsAfterClose
import Rsloop.Stream.ReentrantWrites
import Rsloop.Stream.StartTls
import Rsloop.Connect.SocketOwnership
import Rsloop.Connect.ConnectionRuns
import Rsloop.Datagram.Lifecycle
import Rsloop.Datagram.SendQueue
import Rsloop.Tls.ReaderLoop
import Rsloop.Engine.Parking
import Rsloop.Engine.WatchStates
import Rsloop.Connect.FastConnect
import Rsloop.Engine.StopRequests
import Rsloop.Process.TextDecoder
import Rsloop.Process.TextMode
import Rsloop.Reader.WaitingReads
import Rsloop.Stream.GatheredWrites
import Rsloop.Engine.MergeOrder
import Rsloop.Stream.WriterChannel
import Rsloop.Timers.Collection
import Rsloop.Timers.TimerCallback
import Rsloop.Stream.Hysteresis
import Rsloop.Reader.ExactRead
import Rsloop.Stream.BufferedProtocol
import Rsloop.Engine.Asyncgens
import Rsloop.Engine.BlockingPool
import Rsloop.Sendfile
import Rsloop.Stream.DrainWaiters
import Rsloop.Stream.ReadBackpressure
import Rsloop.Socket.SendAll
