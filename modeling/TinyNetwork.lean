import TinyNetwork.LTS.Basic
import TinyNetwork.Base.Lp64
import TinyNetwork.Base.Sys
import TinyNetwork.Base.Vec
import TinyNetwork.Base.Crlf
import TinyNetwork.Base.Decimal
import TinyNetwork.Base.FixedWidth
import TinyNetwork.Base.Lines
import TinyNetwork.Base.Turns
import TinyNetwork.Net.Buffer
import TinyNetwork.Net.ByteQueue
import TinyNetwork.Net.FullWidth
import TinyNetwork.Net.Channel
import TinyNetwork.Poller.EpollPoller
import TinyNetwork.Poller.Reuse
import TinyNetwork.Poller.Poll
import TinyNetwork.Net.EventLoop
import TinyNetwork.Net.Quit
import TinyNetwork.Net.TcpServer
import TinyNetwork.Net.ServerLoops
import TinyNetwork.Net.Ownership
import TinyNetwork.Net.Custody
import TinyNetwork.Net.Release
import TinyNetwork.Net.Descriptors
import TinyNetwork.Net.ThreadPool
import TinyNetwork.Net.TcpConnection
import TinyNetwork.Net.Interest
import TinyNetwork.Net.HalfClose
import TinyNetwork.Net.Shared
import TinyNetwork.Net.Lifecycle
import TinyNetwork.Net.Callbacks
import TinyNetwork.Net.Final
import TinyNetwork.Net.OutputStream
import TinyNetwork.Net.Emits
import TinyNetwork.Net.Flush
import TinyNetwork.Net.StringSend
import TinyNetwork.Net.Notifications
import TinyNetwork.Logger.FixedBuffer
import TinyNetwork.Logger.AsyncLogging
import TinyNetwork.Logger.Stop
import TinyNetwork.Logger.Written
import TinyNetwork.Logger.FileUtil
import TinyNetwork.Logger.LogFile
import TinyNetwork.Logger.LogStream
import TinyNetwork.Logger.Integers
import TinyNetwork.Logger.Logging
import TinyNetwork.Logger.Pointers
import TinyNetwork.Logger.Timestamps
import TinyNetwork.Logger.Trailer
import TinyNetwork.Http.HttpRequest
import TinyNetwork.Http.RequestLine
import TinyNetwork.Http.HttpContext
import TinyNetwork.Http.Incremental
import TinyNetwork.Http.Message
import TinyNetwork.Http.HttpResponse
import TinyNetwork.Http.KeepAlive
import TinyNetwork.Http.HttpServer
import TinyNetwork.Http.Closing
import TinyNetwork.Http.Segmentation
import TinyNetwork.Http.Responses
import TinyNetwork.Http.HeaderBlock
import TinyNetwork.Http.Termination
import TinyNetwork.Example.EchoServer
