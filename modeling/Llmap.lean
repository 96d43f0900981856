import Llmap.Common.Rust
import Llmap.Common.Run
import Llmap.Common.Encodings
import Llmap.JsonText
import Llmap.Models
import Llmap.Routing.Model
import Llmap.Routing.Sticky
import Llmap.Routing.InFlight
import Llmap.Common.Framing
import Llmap.Crates
import Llmap.Bedrock.Frame
import Llmap.Bedrock.Stream
import Llmap.Secrets
import Llmap.Egress
import Llmap.Providers.Account
import Llmap.Auth
import Llmap.Common.Prog
import Llmap.Storage.Database
import Llmap.Storage.Model
import Llmap.Storage.Credentials
import Llmap.Storage.Refresh
import Llmap.Common.Serial
import Llmap.Storage.Flag
import Llmap.Admin.Model
import Llmap.Admin.Routes
import Llmap.Admin.Activity
import Llmap.Admin.Expiry
import Llmap.Admin.Health
import Llmap.Common.Http
import Llmap.DataPlane.Model
import Llmap.DataPlane.World
import Llmap.DataPlane.Modes
import Llmap.DataPlane.Delivery
import Llmap.Common.Tally
import Llmap.DataPlane.Slots
import Llmap.Routing.Binding
import Llmap.Routing.Standing
import Llmap.DataPlane.Stages
import Llmap.DataPlane.Balance
import Llmap.Common.Net
import Llmap.Egress.Policy
import Llmap.Egress.Chain
import Llmap.DataPlane.Transport
import Llmap.Providers.Signing
import Llmap.Common.Lockout
import Llmap.Sessions.Model
import Llmap.Sessions.Log
import Llmap.Sessions.Table
import Llmap.Sessions.Throttle
import Llmap.DataPlane.Outbound
import Llmap.Storage.Accounts
import Llmap.DataPlane.Invocation
import Llmap.Admin.Report
import Llmap.Admin.Rotation
import Llmap.Providers.Ready
import Llmap.Admin.Usable
import Llmap.Common.Percent
import Llmap.DataPlane.Entry
import Llmap.Bedrock.Headers
import Llmap.Bedrock.Message
import Llmap.Bedrock.Exception
import Llmap.Bedrock.Events
import Llmap.Routing.Selection
import Llmap.Storage.Eligibility
import Llmap.Common.Text
import Llmap.Migration.Legacy
import Llmap.Migration.Model
import Llmap.Migration.Convert
import Llmap.Migration.Lines
import Llmap.Migration.Egress
import Llmap.Migration.Admission
import Llmap.Migration.Import
import Llmap.Migration.Resume
import Llmap.Common.Panic
import Llmap.Egress.Failover
import Llmap.Egress.Labels
import Llmap.Bedrock.Bounds
import Llmap.Routing.Monitor
import Llmap.Storage.Redaction
import Llmap.Common.Calendar
import Llmap.Common.Timestamp
import Llmap.Storage.Audit
import Llmap.Storage.Legacy
import Llmap.Storage.Sealed
import Llmap.Providers.Canonical
import Llmap.Common.Journal
import Llmap.Common.Ledger
import Llmap.Common.Codec
import Llmap.Service.Admission
import Llmap.Service.Books
import Llmap.Service.Guard
import Llmap.Service.Testimony
import Llmap.Commands.Authority
import Llmap.Commands.Backup
import Llmap.Service.Revocation
