import JbOrchestrator.Workflows.Bounds
import JbOrchestrator.Workflows.Joins
import JbOrchestrator.Workflows.Progress
import JbOrchestrator.Workflows.Projection
import JbOrchestrator.Workflows.Endings
import JbOrchestrator.Workflows.Ambiguity
import JbOrchestrator.Application.Lifecycle
import JbOrchestrator.Application.Claiming
import JbOrchestrator.Application.Fencing
import JbOrchestrator.Outbox.Retries
import JbOrchestrator.Budgets.Ledger
import JbOrchestrator.Application.Starvation
import JbOrchestrator.Worker.Reports
import JbOrchestrator.Worker.Reservations
import JbOrchestrator.WorkerPresence.Monitor
import JbOrchestrator.WorkerPresence.Alerts
import JbOrchestrator.Api.Routes
import JbOrchestrator.Api.Isolation
import JbOrchestrator.Api.EventStreams
import JbOrchestrator.Api.Wire
import JbOrchestrator.Cli.Convergence
import JbOrchestrator.ExternalExecutions.Histories
import JbOrchestrator.Budgets.Coverage
import JbOrchestrator.Notifications.Eligibility
import JbOrchestrator.Notifications.Fanout
import JbOrchestrator.WorkspaceOperations.Models
import JbOrchestrator.Scm.Runtime
import JbOrchestrator.Workflows.Recommendations
import JbOrchestrator.Application.SkillAddons
import JbOrchestrator.WorkerPresence.Diagnosis
import JbOrchestrator.Security.Inventory
import JbOrchestrator.Security.Finality
import JbOrchestrator.Skills.CacheSafety
import JbOrchestrator.Skills.Extraction
import JbOrchestrator.OpenClaw.Cleanup
import JbOrchestrator.Commands.Replays
import JbOrchestrator.Lib.Uuid
import JbOrchestrator.Application.Dispatches
import JbOrchestrator.Application.Flushing
import JbOrchestrator.Application.ExactlyOnce
import JbOrchestrator.Serialization.Refinement
import JbOrchestrator.Application.Artifacts
import JbOrchestrator.Application.Replay
import JbOrchestrator.GitHub.Safety
import JbOrchestrator.OpenClaw.Releases
