import MileRpc.Core.World
import MileRpc.Url.Scan
import MileRpc.Session.Basic
import MileRpc.Session.Tls
import MileRpc.Url.Values
import MileRpc.Url.Render
import MileRpc.Url.Authority
import MileRpc.Url.Port
import MileRpc.Url.Resource
import MileRpc.Rpc.Call
import MileRpc.Rpc.Trace
import MileRpc.Rpc.Prepare
import MileRpc.Rpc.Submit
import MileRpc.Rpc.BlockId
import MileRpc.Rpc.Signal
import MileRpc.Http.Head
import MileRpc.Http.Addressed
import MileRpc.Rpc.Exchange
import MileRpc.Rpc.Correlation
import MileRpc.Lts.Basic
import MileRpc.Session.Watchdog
import MileRpc.Effect.Once
import MileRpc.Effect.Law
import MileRpc.Effect.Before
import MileRpc.Session.Law
import MileRpc.Session.Report
import MileRpc.Rpc.Report
import MileRpc.Rpc.Decode
import MileRpc.Rpc.Law
import MileRpc.Json.Rounding
import MileRpc.Rpc.Parameters
import MileRpc.Rpc.Required
import MileRpc.Rpc.Commands
import MileRpc.Rpc.TrxId
import MileRpc.Rpc.Variables
import MileRpc.Rpc.Silence
import MileRpc.Cli.Tools
import MileRpc.Rpc.Payment
import MileRpc.Rpc.CallPayment
import MileRpc.Cli.AtMostOnce
import MileRpc.Cli.Retry
import MileRpc.Cli.TransferStatus
import MileRpc.Cli.WalletStatus
import MileRpc.Rpc.Documented
import MileRpc.Cli.Password
import MileRpc.Session.Failure
import MileRpc.Cli.Reconnect
import MileRpc.Effect.Budget
import MileRpc.Cli.Bounded
import MileRpc.Effect.Graded
import MileRpc.Effect.Monitor
import MileRpc.Session.Protocol
import MileRpc.Session.Discipline
import MileRpc.Rpc.Graded
import MileRpc.Rpc.Protocol
import MileRpc.Cli.Traffic
import MileRpc.Rpc.Program
import MileRpc.Session.Loops
import MileRpc.Session.Closed
import MileRpc.Rpc.Loops
import MileRpc.Session.Deadline
import MileRpc.Effect.History
import MileRpc.Rpc.Provenance
import MileRpc.Rpc.CallProvenance
import MileRpc.Rpc.Purposes
import MileRpc.Cli.Provenance
import MileRpc.Http.Stream
import MileRpc.Rpc.Framing
import MileRpc.Effect.Alike
import MileRpc.Memory.Shared
import MileRpc.Memory.Slots
import MileRpc.Rpc.Objects
import MileRpc.Cli.Ends
import MileRpc.Cli.CommandLine
