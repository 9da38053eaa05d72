import Communique.Storage.Capacity
import Communique.Hostile
import Communique.CommuniqueClient
import Communique.Lib.Exchange
import Communique.Protocol.System
import Communique.Protocol.Ledger
import Communique.Protocol.Answers
import Communique.Protocol.Blocking
import Communique.Protocol.Order
import Communique.Lib.Split
import Communique.OpenSSLTools.CheckHostname
import Communique.Certificate
import Communique.OpenSSLTools.HostnameFromURL
import Communique.Lib.Regex
import Communique.OpenSSLTools.HostnameRegex
import Communique.SendRequest
import Communique.Lib.RunLoop
import Communique.Lifecycle.Client
import Communique.Lifecycle.Server
import Communique.Lifecycle.Restart
import Communique.Lifecycle.Listen
import Communique.Lifecycle.Stop
import Communique.Protocol.Javascript
import Communique.Protocol.Pair
import Communique.Protocol.Hanging
import Communique.Lib.Calendar
import Communique.Lib.Decimal
import Communique.OpenSSLTools.ConvertTime
import Communique.Protocol.Page
import Communique.Lifecycle.Connections
import Communique.Handlers
import Communique.Lifecycle.Settings
import Communique.Protocol.Rest
import Communique.Protocol.Network
import Communique.Protocol.ServerThread
import Communique.Lib.Mutex
import Communique.Storage.Threads
import Communique.Lifecycle.ConnectionThreads
import Communique.OpenSSLTools.Validity
import Communique.Lifecycle.Reentry
import Communique.Lifecycle.Verify
import Communique.Lifecycle.Join
import Communique.Protocol.PairOrder
