import SolarisMesh.Compact.Retry
import SolarisMesh.Effects.Decisions
import SolarisMesh.Ledger.ImportOnce
import SolarisMesh.Ledger.Increasing
import SolarisMesh.Ledger.Observed
import SolarisMesh.Ledger.Trees
import SolarisMesh.Messages.Claims
import SolarisMesh.Messages.Limits
import SolarisMesh.Orchestration.Order
import SolarisMesh.Orchestration.Truncation
import SolarisMesh.Permission.Approval
import SolarisMesh.Permission.Registration
import SolarisMesh.Protocol.Approvals
import SolarisMesh.Protocol.Delivery
import SolarisMesh.Providers.Bedrock
import SolarisMesh.Proxy.Forwarding
import SolarisMesh.Resource.RatePermits
import SolarisMesh.Resource.ToolRounds
import SolarisMesh.Session.Closing
import SolarisMesh.Session.TurnIntent
import SolarisMesh.Spawner.Delegation
import SolarisMesh.Store.Outbox
import SolarisMesh.Tasks.Restore
import SolarisMesh.Tools.AtomicWrite
import SolarisMesh.Tools.Edit
import SolarisMesh.Tools.FileCache
import SolarisMesh.Types.ChildAgent
import SolarisMesh.Workflow.Failures
import SolarisMesh.Workflow.Roles
import SolarisMesh.Workflow.Validation
import SolarisMesh.Lib.JsonPath
import SolarisMesh.Workflow.Bindings
