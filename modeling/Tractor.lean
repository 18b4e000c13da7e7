import Tractor.Library.Search
import Tractor.Library.Control
import Tractor.Library.Run
import Tractor.Library.Slots
import Tractor.Library.Lines
import Tractor.Library.OrderedSet
import Tractor.Library.Segments
import Tractor.Buffer.Basic
import Tractor.Buffer.Refinement
import Tractor.Buffer.Client
import Tractor.Buffer.Growth
import Tractor.Buffer.Shrink
import Tractor.Http.Request
import Tractor.Http.Parser
import Tractor.Http.Incremental
import Tractor.Http.RequestLine
import Tractor.Http.Reuse
import Tractor.Http.Termination
import Tractor.Http.Grammar
import Tractor.Http.Response
import Tractor.Http.Encoding
import Tractor.Net.ThreadPool
import Tractor.Net.TimerQueue
import Tractor.Net.TimerRuns
import Tractor.Net.TimerArming
import Tractor.Net.TimerPointers
import Tractor.Net.TimerObjects
import Tractor.Net.TimerOwners
import Tractor.Net.EventLoop
import Tractor.Net.EPoller
import Tractor.Net.EPollSet
import Tractor.Net.Poller
import Tractor.Net.PollHistory
import Tractor.Net.Wakeup
import Tractor.Net.TcpConnection
import Tractor.Net.TcpServer
import Tractor.Net.Steps
import Tractor.Net.Ledger
import Tractor.Net.Links
import Tractor.Net.Dispatch
import Tractor.Net.Close
import Tractor.Net.Lifetime
import Tractor.Net.Stream
import Tractor.Net.Shutdown
import Tractor.Net.WriteComplete
import Tractor.Net.Callbacks
import Tractor.Net.Clock
import Tractor.Http.Server
import Tractor.Http.LetterCase
import Tractor.Http.ServedFiles
import Tractor.Http.Chunking
import Tractor.Http.AfterClose
import Tractor.Http.Service
import Tractor.Http.Contexts
import Tractor.Http.ReceiveTime
import Tractor.Library.Framing
import Tractor.Http.Seen
import Tractor.Http.Sessions
import Tractor.Http.Replies
import Tractor.Http.Client
import Tractor.Library.Progress
import Tractor.Net.Effects
import Tractor.Net.Completions
import Tractor.Net.BufferedConnection
import Tractor.Net.LoopThread
import Tractor.Net.PollersAgree
import Tractor.Apps.Application
import Tractor.Apps.Chargen
import Tractor.Http.BufferedSession
import Tractor.Net.Rounds
import Tractor.Net.Watching
import Tractor.Net.Delivery
