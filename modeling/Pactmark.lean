import Pactmark.Durable.Program
import Pactmark.Durable.System
import Pactmark.Durable.Log
import Pactmark.Durable.Totals
import Pactmark.Durable.Operations
import Pactmark.Core.Values
import Pactmark.Core.Run
import Pactmark.Core.Records
import Pactmark.Core.Canonical
import Pactmark.Core.CommandWindow
import Pactmark.Core.Reservations
import Pactmark.Runtime.Store
import Pactmark.Runtime.Collaborators
import Pactmark.Runtime.Kernel
import Pactmark.Runtime.Effects
import Pactmark.Runtime.Models
import Pactmark.Runtime.Serving
import Pactmark.Runtime.CommandReplay
import Pactmark.Stores.UnitOfWork
import Pactmark.Stores.EventStream
import Pactmark.Stores.Leases
import Pactmark.Stores.Grants
import Pactmark.Stores.Decisions
import Pactmark.Stores.EffectLedger
import Pactmark.Stores.ActiveExecution
import Pactmark.Stores.Admission
import Pactmark.Stores.PostgresAdmission
import Pactmark.Stores.ModelCalls
import Pactmark.Stores.CircuitBreaker
import Pactmark.Stores.Isolation
import Pactmark.Stores.DataProtector
import Pactmark.Stores.ProtectionNonces
import Pactmark.Stores.PostgresDecisions
import Pactmark.Stores.PostgresRuns
import Pactmark.Stores.PostgresReservations
import Pactmark.Core.Sha256
import Pactmark.Core.StrictJson
import Pactmark.AiSdk.Tools
import Pactmark.Mcp.Discovery
import Pactmark.Mcp.Calls
import Pactmark.Http.Commands
import Pactmark.Worker.Recovery
import Pactmark.Worker.CommandWakeups
import Pactmark.Worker.Dispatch
import Pactmark.Worker.Delegation
import Pactmark.Worker.Batches
import Pactmark.Worker.Composition
import Pactmark.Worker.Transitions
import Pactmark.Policy.Preflight
import Pactmark.Policy.Previews
import Pactmark.Policy.AuthorizationReservations
import Pactmark.Policy.Paths
import Pactmark.Protocol.Loop
import Pactmark.Protocol.Waiting
import Pactmark.Protocol.Verification
import Pactmark.Agent.Calls
import Pactmark.Agent.Spending
import Pactmark.Agent.Compensation
import Pactmark.Agent.LocalRuntime
import Pactmark.Evidence.Redaction
import Pactmark.Evidence.Markdown
import Pactmark.Evidence.RecordBuilding
import Pactmark.Core.Labels
import Pactmark.Evidence.Exports
import Pactmark.Policy.KillSwitches
import Pactmark.Durable.Archive
import Pactmark.Stores.ImmutableRecords
import Pactmark.Stores.PostgresEffects
import Pactmark.Policy.Credentials
import Pactmark.Stores.Migrations
import Pactmark.ExecutorSh.CallCode
import Pactmark.Durable.EventFormat
import Pactmark.Http.EventStream
