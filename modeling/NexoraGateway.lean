import NexoraGateway.Async.Pool
import NexoraGateway.Events.Replay
import NexoraGateway.Intent.Replay
import NexoraGateway.Intent.Lifecycle
import NexoraGateway.Intent.Traces
import NexoraGateway.Intent.Settled
import NexoraGateway.Intent.Timing
import NexoraGateway.Intent.Notifications
import NexoraGateway.Intent.Quotes
import NexoraGateway.Intent.Attempts
import NexoraGateway.Intent.Backoff
import NexoraGateway.Chain.TxStatus
import NexoraGateway.Settlements.Types
import NexoraGateway.Settlements.Service
import NexoraGateway.Settlements.Units
import NexoraGateway.Settlements.Payouts
import NexoraGateway.Settlements.Wait
import NexoraGateway.Settlements.Runs
import NexoraGateway.Settlements.Completion
import NexoraGateway.Settlements.Faults
import NexoraGateway.Jobs.Types
import NexoraGateway.Jobs.Queue
import NexoraGateway.Jobs.Terminal
import NexoraGateway.Jobs.Consistency
import NexoraGateway.Jobs.Attempts
import NexoraGateway.Jobs.Exclusive
import NexoraGateway.Worker.Composition
import NexoraGateway.Worker.Confirmed
import NexoraGateway.Worker.Redelivery
import NexoraGateway.Api.Addresses
import NexoraGateway.Api.Isolation
import NexoraGateway.Api.Tokens
import NexoraGateway.Evm.Timers
import NexoraGateway.Evm.Credits
import NexoraGateway.Worker.Watcher
import NexoraGateway.Worker.Attribution
import NexoraGateway.Worker.Durable
import NexoraGateway.Worker.Amounts
import NexoraGateway.Worker.Examined
import NexoraGateway.Worker.Backlog
import NexoraGateway.Worker.Shutdown
import NexoraGateway.RateLocks.Statuses
import NexoraGateway.RateLocks.Lookups
import NexoraGateway.Compliance.Cached
import NexoraGateway.Compliance.Outage
import NexoraGateway.Compliance.Spellings
import NexoraGateway.Compliance.Audit
import NexoraGateway.Compliance.Payments
import NexoraGateway.Recovery.Resolutions
import NexoraGateway.Recovery.Ownership
import NexoraGateway.Recovery.Failures
import NexoraGateway.Reconciliation.Settled
import NexoraGateway.Reconciliation.Tolerance
import NexoraGateway.Reconciliation.Totals
import NexoraGateway.Reconciliation.ReadBack
import NexoraGateway.Routing.Trials
import NexoraGateway.Routing.Reference
import NexoraGateway.Routing.Selections
import NexoraGateway.Http.Retries
import NexoraGateway.Settlements.Fees
import NexoraGateway.Settlements.Statements
import NexoraGateway.Intent.Expiry
import NexoraGateway.Worker.Trail
import NexoraGateway.Worker.QueueLoop
import NexoraGateway.Intent.Signatures
import NexoraGateway.RateLocks.Oracles
import NexoraGateway.Routing.Ranking
import NexoraGateway.Routing.Limits
import NexoraGateway.Compliance.Histories
import NexoraGateway.Compliance.Thresholds
import NexoraGateway.Compliance.Remembered
import NexoraGateway.Recovery.Excess
import NexoraGateway.Routing.Lifi
import NexoraGateway.Reconciliation.Interrupted
import NexoraGateway.Reconciliation.Exports
import NexoraGateway.Chain.Registry
import NexoraGateway.Gas.Service
import NexoraGateway.Worker.Logger
import NexoraGateway.Chain.Watchers
import NexoraGateway.Http.Redaction
import NexoraGateway.Worker.Keys
import NexoraGateway.Worker.Provenance
import NexoraGateway.Intent.Language
import NexoraGateway.Intent.Recipients
import NexoraGateway.Intent.Serial
import NexoraGateway.Migrations.Order
import NexoraGateway.Accounts.Custody
