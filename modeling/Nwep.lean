import Nwep.Lib.Run
import Nwep.Lib.Fifo
import Nwep.Lib.Handoff
import Nwep.Lib.Report
import Nwep.Lib.Foreign
import Nwep.Lib.Reentry
import Nwep.Lib.Lifetime
import Nwep.Lib.CString
import Nwep.Lib.Base58
import Nwep.Lib.Flat
import Nwep.Lib.Observe
import Nwep.Lib.Pace
import Nwep.Lib.Journal
import Nwep.Lib.Linear
import Nwep.Lib.Surface
import Nwep.Runtime.Bridge
import Nwep.Runtime.Handle
import Nwep.Runtime.ConnectAsync
import Nwep.Runtime.ConnectAsync.Routing
import Nwep.Runtime.ConnectAsync.Delivery
import Nwep.Runtime.ConnectAsync.Lifecycle
import Nwep.Runtime.Serve
import Nwep.Runtime.Serve.Invariant
import Nwep.Runtime.Serve.Delivery
import Nwep.Runtime.Serve.Lifecycle
import Nwep.Runtime.Serve.Waits
import Nwep.Runtime.Serve.Pacing
import Nwep.Runtime.Serve.Session
import Nwep.Runtime.Serve.Answers
import Nwep.Runtime.Stream
import Nwep.Runtime.Stream.Invariant
import Nwep.Runtime.Stream.Body
import Nwep.Runtime.Stream.Lifecycle
import Nwep.Runtime.Stream.Sequence
import Nwep.Runtime.Stream.Readers
import Nwep.Runtime.Terminals
import Nwep.Runtime.Closed
import Nwep.Runtime.Joins
import Nwep.Runtime.Startup
import Nwep.Boundary
import Nwep.Errors
import Nwep.Server.Responder
import Nwep.Server.Answered
import Nwep.Server.Capture
import Nwep.Server.Handler
import Nwep.Server.Service
import Nwep.Server.Kv
import Nwep.Server.Kv.Clients
import Nwep.Server.Proxy
import Nwep.Server.Pump
import Nwep.Runtime.Transfer
import Nwep.Native.Library
import Nwep.Native.Classes
import Nwep.Native.Effect
import Nwep.Native.Raises
import Nwep.Runtime.ConnectAsync.Awaited
import Nwep.Native.UseAfterFree
import Nwep.Native.Borrow
import Nwep.Shamir
import Nwep.Text
import Nwep.Text.Calls
import Nwep.Exchange
import Nwep.Trust.Packing
import Nwep.Loader
import Nwep.Loader.Order
import Nwep.Native.Account
import Nwep.Native.Balance
import Nwep.Native.Create
import Nwep.Identity
import Nwep.Identity.Secrets
import Nwep.Uri
import Nwep.Native.Ownership
import Nwep.Native.Bounds
import Nwep.Native.Registration
