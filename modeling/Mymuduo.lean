import Mymuduo.Lib.Runs
import Mymuduo.Lib.Fifo
import Mymuduo.Lib.Region
import Mymuduo.Lib.Memory
import Mymuduo.SystemCall
import Mymuduo.Buffer
import Mymuduo.Channel
import Mymuduo.Poller
import Mymuduo.TcpConnection
import Mymuduo.Activation
import Mymuduo.ConnectionRun
import Mymuduo.OutboundStream
import Mymuduo.WriteInterest
import Mymuduo.EventLoopThreadPool
import Mymuduo.EventLoop
import Mymuduo.Wakeup
import Mymuduo.TaskQueue
import Mymuduo.ConnectionSystem
import Mymuduo.HalfClose
import Mymuduo.CrossThreadSend
import Mymuduo.CallbackProtocol
import Mymuduo.TcpServer
import Mymuduo.TableConfinement
import Mymuduo.PendingWakeup
import Mymuduo.QuitDrain
import Mymuduo.EventLoopThread
import Mymuduo.ConnectionLifetime
import Mymuduo.ConnectionState
import Mymuduo.QueuedOwners
import Mymuduo.LateRegistration
import Mymuduo.ServerTeardown
import Mymuduo.RegisteredOwners
import Mymuduo.ServerWorld
import Mymuduo.InetAddress
import Mymuduo.ConnectionTable
import Mymuduo.LoopThreads
import Mymuduo.ThreadConfinement
import Mymuduo.EstablishFirst
import Mymuduo.Teardown
import Mymuduo.Notifications
import Mymuduo.WriteComplete
import Mymuduo.OptionalCallbacks
import Mymuduo.BufferQueue
import Mymuduo.FlushProgress
import Mymuduo.SendOutcome
import Mymuduo.ScatterRead
import Mymuduo.BufferMemory
import Mymuduo.StringRetrieval
import Mymuduo.SizeLimits
import Mymuduo.EventDispatch
import Mymuduo.Logger
import Mymuduo.Lib.Monitor
import Mymuduo.StartWorker
import Mymuduo.ServerStart
import Mymuduo.StartOrder
import Mymuduo.StartReturn
import Mymuduo.TaskLatency
import Mymuduo.Lib.RoundRobin
import Mymuduo.PollFairness
import Mymuduo.EchoServer
import Mymuduo.EndToEnd
import Mymuduo.Lib.Numeral
import Mymuduo.AddressText
import Mymuduo.AcceptQueue
import Mymuduo.QuitLatency
import Mymuduo.ConnectionNames
import Mymuduo.ThreadJoin
import Mymuduo.Lib.PartialInverse
import Mymuduo.LoopPerThread
import Mymuduo.ThreadDrain
import Mymuduo.ThreadReturn
