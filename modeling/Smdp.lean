import Smdp.Interaction.Program
import Smdp.Interaction.History
import Smdp.Rowid.Table
import Smdp.Store.Order
import Smdp.Store.Sqlite
import Smdp.Store.Migrate
import Smdp.Interaction.Serve
import Smdp.Store.Interface
import Smdp.Rsp.Library
import Smdp.Server.Sessions
import Smdp.Server.Interface
import Smdp.Es9.Message
import Smdp.Rsp.Session
import Smdp.Server.Es9
import Smdp.Rust
import Smdp.Service
import Smdp.Cli
import Smdp.Server.System
import Smdp.Store.Effect
import Smdp.Server.Outcome
import Smdp.Server.Step
import Smdp.Server.Live
import Smdp.Laws.HandOut
import Smdp.Laws.HalfDone
import Smdp.Laws.Backed
import Smdp.Laws.OneDownload
import Smdp.Laws.Drift
import Smdp.Laws.Remembered
import Smdp.Laws.Kept
import Smdp.Laws.Credit
import Smdp.Laws.Reports
import Smdp.Interaction.Protocol
import Smdp.Interaction.Pool
import Smdp.Server.Concurrent
import Smdp.Laws.Interleaving
import Smdp.Laws.Cause
import Smdp.Interaction.Purge
import Smdp.Laws.Known
import Smdp.Laws.Strangers
import Smdp.Ber.Length
import Smdp.Laws.FirstMember
import Smdp.Laws.Genuine
import Smdp.Laws.Lifetime
import Smdp.Laws.Migration
import Smdp.Store.Stage
import Smdp.Laws.Interrupted
import Smdp.Laws.Orders
import Smdp.Serde.Struct
import Smdp.Es9.Request
import Smdp.Server.Endpoint
import Smdp.Laws.Answers
import Smdp.Hex
import Smdp.Base64.Standard
import Smdp.Es9.Response
import Smdp.Laws.Binding
import Smdp.Laws.Hexadecimal
import Smdp.Laws.IccidFlag
import Smdp.Interaction.Crash
import Smdp.Interaction.Finish
import Smdp.Laws.Account
import Smdp.Laws.Delivery
import Smdp.Laws.MatchingId
import Smdp.Laws.Memory
import Smdp.Laws.Progress
import Smdp.Interaction.Front
import Smdp.Laws.Available
import Smdp.Laws.Exchange
import Smdp.Laws.Verdict
import Smdp.Laws.Operator
import Smdp.Laws.Upgrade
