import Hseos.Foundation.Paging
import Hseos.Foundation.Wildcard
import Hseos.Compaction.Caps
import Hseos.Context.Accounting
import Hseos.ControlPlane.PolicyContract
import Hseos.ControlPlane.Rollback
import Hseos.Bindings.Shown
import Hseos.Capability.Coverage
import Hseos.Computer.Replies
import Hseos.Coordination.KeyRelease
import Hseos.Coordination.GlobLanguage
import Hseos.Coordination.Declarations
import Hseos.Delegated.Cancellation
import Hseos.Delegated.Dispatch
import Hseos.Engineering.TaskLifecycle
import Hseos.Foundation.Unique
import Hseos.Governed.ApprovalSoundness
import Hseos.Governed.ReplayFidelity
import Hseos.Jobs.Outcome
import Hseos.Ledger.Integrity
import Hseos.Ledger.Aggregates
import Hseos.Liveness.LateReports
import Hseos.Liveness.Overlap
import Hseos.Liveness.WakeBudget
import Hseos.Memory.Approvals
import Hseos.Messages.AdapterRefinement
import Hseos.Messages.StoreRuns
import Hseos.Policy.Merge
import Hseos.Policy.Permissions
import Hseos.Runtime.Agreement
import Hseos.Scheduler.Order
import Hseos.Scheduler.Wakeup
import Hseos.Session.FirstStep
import Hseos.Session.ToolResults
import Hseos.SessionStore.Connections
import Hseos.SessionStore.Forks
import Hseos.SessionStore.Sharing
