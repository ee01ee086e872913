import Biz.Access.Authorization
import Biz.Access.DeadRoles
import Biz.Access.Departments
import Biz.Access.Deposing
import Biz.Access.Logins
import Biz.Access.Owners
import Biz.Access.Removal
import Biz.Access.SelfDeletion
import Biz.CapabilityMap.Evolution
import Biz.Change.Boundaries
import Biz.Change.Coherence
import Biz.Change.Failures
import Biz.Devices.Writes
import Biz.Enforcement.Guard
import Biz.Entitlement.Decisions
import Biz.ModuleCatalog.History
import Biz.Notification.Routing
import Biz.Outbox.Interleaving
import Biz.Plan.Retirement
import Biz.ServiceApi.Routes
import Biz.Snapshot.Overrides
import Biz.Transition.Fencing
