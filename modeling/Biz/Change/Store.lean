import Biz.Library.Clock
import Biz.Library.Transaction
import Biz.Change.Project
import Biz.Plan.Projection

/-!
# The records of a tenant

The tables that hold the subscription of a tenant and what happens to it, with the
repositories of `infrastructure/persistence`: `subscriptionchange.go`,
`subscriptionchange_transition.go`, `subscription.go`, `provisioning.go`,
`timetransition.go` and the decorators of `timetransition_factories.go`, which add the
time transitions.

A row is the value that its payload encodes; its columns repeat fields of the payload.
The audit tables, the outbox and the receipts of bootstrap requests are left out. The
rows are those of one tenant, apart from the entitlement store, which has all tenants.
-/

namespace Biz.Change

open Time Checks Transaction Subscription
open Entitlement (Source)
open Provisioning (Requirement maxUint64)

/-- What does not change while the process runs. -/
structure Setting where
  tenant : String
  digests : Digests
  encoding : Snapshot.Encoding
  /-- The names that `time.LoadLocation` finds. -/
  zones : String → Bool
  lifecycle : LifecyclePolicy
  /-- The time zone of the repository factories. -/
  timezone : String

/-- What the other applications and policies answer during a transaction. -/
structure Services where
  catalog : Except Code Plan.Catalog
  requirements : Plan.Version → Except Err (List Requirement)
  quotas : Mode → Instant → List QuotaImpact → Except Err (List QuotaImpact)
  knownTenant : Except Code Bool
  cache : Snapshot.Cache
  rules : List Rule

structure Store where
  clock : Clock
  entitlements : Snapshot.Store
  plans : Table fun v : Plan.Version => (v.planCode, v.number)
  subscription : Option BaseSubscription
  previews : Table Preview.changeId
  receipts : Table Receipt.changeId
  tasks : Table Provisioning.Task.id
  transitions : Table Transition.Task.id

abbrev Tx (α : Type) := Transaction.Tx Store Err α

/-- The database time. -/
def now : Tx Instant :=
  write fun store => .ok (store.clock.now, { store with clock := store.clock.tick })

section Subscriptions

variable (C : Setting)

/-- `GetBase`. -/
def getBase (store : Store) : Except Err BaseSubscription := do
  let b ← found (.subscription .notFound) store.subscription
  require (.subscription .invalid) (b.tenantId = C.tenant)
  b.validate.mapError .subscription
  return b

def lockTenant : Tx BaseSubscription :=
  read fun store => do
    let _ ← (Snapshot.lockCatalog store.entitlements).mapError .entitlement
    getBase C store

/-- The revision of a row; rows older than the field count as the first. -/
def rowRevision (b : BaseSubscription) : Nat := if b.revision = 0 then 1 else b.revision

def saveCurrent (before after : BaseSubscription) : Tx Unit :=
  write fun store => do
    require .conflict (before.tenantId = after.tenantId ∧ before.id = after.id ∧
      before.revision ≠ 0 ∧ before.revision ≠ maxUint64 ∧
      after.revision = before.revision + 1 ∧ after.validate = .ok ())
    let row ← found .conflict store.subscription
    require .conflict (rowRevision row = before.revision)
    return ((), { store with subscription := some after })

/-- The insertion of `SaveBase`. -/
def insertBase (value : BaseSubscription) : Tx Unit :=
  write fun store => do
    require .duplicateKey (store.subscription = none)
    return ((), { store with subscription := some value })

/-- The subscription of a tenant that may have none. -/
def optionalBase (store : Store) : Except Err (Option BaseSubscription) :=
  match getBase C store with
  | .ok b => .ok (some b)
  | .error error => if error = .subscription .notFound then .ok none else .error error

def createCurrent (value : BaseSubscription) : Tx Unit := do
  demand .conflict (value.origin = .initialActivation ∧ value.revision = 1 ∧
    value.validate = .ok ())
  let current ← read (optionalBase C)
  demand .conflict (current = none)
  insertBase value

end Subscriptions

section Entitlements

variable (C : Setting)

/-- A transaction of the entitlement store. -/
def entitled {α : Type} (f : Snapshot.Store → Except Snapshot.Err (α × Snapshot.Store)) : Tx α :=
  write fun store => do
    let (value, entitlements) ← (f store.entitlements).mapError .entitlement
    return (value, { store with entitlements })

def lockSources : Tx (Nat × List Source) :=
  entitled fun store => do
    let (version, sources, store) ← Snapshot.lock C.encoding C.tenant store
    return ((version, sources), store)

def insertSource (s : Source) : Tx Unit :=
  entitled fun store => (Snapshot.insert C.encoding s store).map fun after => ((), after)

def revokeSource (s : Source) (expected : Nat) : Tx Unit :=
  entitled fun store => (Snapshot.revoke C.encoding s expected store).map fun after => ((), after)

def advance (expected : Nat) : Tx Unit :=
  entitled fun store => (Snapshot.advance C.tenant expected store).map fun after => ((), after)

/-- `LockTenantOptional`: the state row of the entitlements is locked first. -/
def lockTenantOptional : Tx (Option BaseSubscription) := do
  let _ ← read fun store => (Snapshot.lockCatalog store.entitlements).mapError .entitlement
  let _ ← lockSources C
  read (optionalBase C)

/-- `ReadSnapshot` inside a transaction, without requested keys. -/
def readSnapshot (cache : Snapshot.Cache) : Tx Entitlement.Result :=
  write fun store => do
    require (.source .invalid) (C.tenant ≠ "" ∧ C.tenant.utf8ByteSize ≤ 64)
    let (result, entitlements) ← (Snapshot.locked C.encoding cache C.tenant
      ⟨store.clock.now, store.clock.now_positive⟩ store.entitlements).mapError .entitlement
    return (Snapshot.requested result [],
      { store with entitlements, clock := store.clock.tick })

end Entitlements

section Plans

variable (C : Setting)

/-- `Plans.Get` with the error that plan management exposes. -/
def findPlan (code : String) (number : Nat) (store : Store) : Except Err Plan.Version := do
  require (.status .invalidArgument) (Plan.code code ∧ number ≠ 0)
  let v ← found (.status .notFound) (store.plans.find? (code, number))
  (v.integrity C.digests.plan).mapError fun _ => .status .dataLoss
  return v

/-- A version as subscriptions read it. -/
def project (v : Plan.Version) : Except Err Plan.Version :=
  (Plan.Projection.version C.digests.plan (some (Plan.dto v))).mapError .plan

/-- `GetPlanVersion`. -/
def getPlanVersion (code : String) (number : Nat) (store : Store) : Except Err Plan.Version := do
  let v ← findPlan C code number store
  project C v

/-- The catalogue that plan management reads; it exposes no error of the catalogue. -/
def planCatalog (S : Services) : Except Err Plan.Catalog := do
  let c ← S.catalog.mapError fun _ => .status .unavailable
  (Entitlement.Catalog.validate (c.map (·.toModuleDefinition))).mapError
    fun _ => .status .failedPrecondition
  return c

/-- `CheckPlanEligibility`: the version and whether it may be sold in the scope. -/
def checkPlanEligibility (S : Services) (code : String) (number : Nat) (scope : String)
    (store : Store) : Except Err (Plan.Version × Bool) := do
  require (.status .invalidArgument) (Plan.code code ∧ number ≠ 0 ∧ Plan.code scope)
  let c ← planCatalog S
  let v ← findPlan C code number store
  return (v, v.eligibility scope c = .eligible)

end Plans

section Changes

variable (C : Setting)

/-- `Preview`. -/
def getPreview (id : String) (store : Store) : Except Err (Option Preview) :=
  match store.previews.find? id with
  | none => .ok none
  | some p =>
    if p.input.tenantId = C.tenant then do
      p.integrity C.digests
      return some p
    else .ok none

/-- `Receipt`. -/
def getReceipt (id : String) (store : Store) : Except Err (Option Receipt) :=
  match store.receipts.find? id with
  | none => .ok none
  | some r =>
    if r.tenantId = C.tenant then do
      r.integrity C.digests
      return some r
    else .ok none

def receiptForRequest (actor key fingerprint : String) (store : Store) :
    Except Err (Option Receipt) :=
  match store.receipts.rows.find? fun r => r.actorId = actor ∧ r.requestId = key with
  | none => .ok none
  | some r => do
    r.integrity C.digests
    require .requestConflict (r.fingerprint = fingerprint)
    return some r

/-- The row that an update writes. -/
def Receipt.moved (next row : Receipt) : Receipt := { next with changeId := row.changeId }

theorem Receipt.moved_changeId (next row : Receipt) : (next.moved row).changeId = row.changeId :=
  rfl

def updateReceipt (before after : Receipt) : Tx Unit :=
  write fun store => do
    require .conflict (before.changeId = after.changeId ∧ before.tenantId = after.tenantId ∧
      before.actorId = after.actorId ∧ before.requestId = after.requestId ∧
      before.fingerprint = after.fingerprint ∧ before.previewHash = after.previewHash ∧
      before.action = after.action ∧ before.mode = after.mode ∧
      before.confirmedAt = after.confirmedAt ∧
      before.pricingAuthority = after.pricingAuthority ∧ after.integrity C.digests = .ok ())
    let row ← found .conflict (store.receipts.find? before.changeId)
    require .conflict (row.tenantId = before.tenantId ∧ row.hash = before.hash ∧
      row.status = before.status)
    return ((), { store with
      receipts := store.receipts.update before.changeId after.moved after.moved_changeId })

/-- The insertion of `Complete`. -/
def insertReceipt (r : Receipt) : Tx Unit :=
  write fun store => do
    r.integrity C.digests
    let receipts ← found .duplicateKey (store.receipts.insert? r)
    return ((), { store with receipts })

end Changes

section Tasks

variable (C : Setting)

def insertTask (t : Provisioning.Task) : Tx Unit :=
  write fun store => do
    require (.provisioning .corrupt) (t.integrity C.digests.task = none)
    let tasks ← found .duplicateKey (store.tasks.insert? t)
    return ((), { store with tasks })

def lockTask (id : String) : Tx Provisioning.Task := do
  let _ ← lockTenant C
  let t ← read fun store => found (.provisioning .notFound) (store.tasks.find? id)
  demand (.provisioning .notFound) (t.tenantId = C.tenant)
  demand (.provisioning .corrupt) (t.integrity C.digests.task = none)
  return t

end Tasks

section Transitions

variable (C : Setting)

/-- `Insert`: a task that is there already is left alone if it is the same. -/
def insertTransition (t : Transition.Task) : Tx Unit :=
  write fun store => do
    (t.integrity C.zones).mapError .transition
    match store.transitions.insert? t with
    | some transitions => return ((), { store with transitions })
    | none =>
      require (.transition .conflict) (store.transitions.find? t.id = some t)
      return ((), store)

/-- `Get` and `Lock`. -/
def getTransition (id : Transition.Key) (store : Store) : Except Err Transition.Task := do
  let t ← found (.transition .notFound) (store.transitions.find? id)
  (t.integrity C.zones).mapError .transition
  return t

/-- The row that an update writes. -/
def movedTransition (next row : Transition.Task) : Transition.Task := { next with id := row.id }

theorem movedTransition_id (next row : Transition.Task) : (movedTransition next row).id = row.id :=
  rfl

def saveTransition (before after : Transition.Task) : Tx Unit :=
  write fun store => do
    require (.transition .conflict) (before.id = after.id ∧ before.revision ≠ 0 ∧
      after.revision = before.revision + 1 ∧ before.businessTimezone = after.businessTimezone)
    (after.integrity C.zones).mapError .transition
    require (.transition .conflict) (store.transitions.find? before.id = some before)
    return ((), { store with
      transitions := store.transitions.update before.id (movedTransition after)
        (movedTransition_id after) })

/-- A new task for an authority of the tenant. -/
def scheduleTransition (kind : Transition.Kind) (authority : String) (version : Nat)
    (due created : Instant) (timezone : String) : Tx Unit := do
  let t ← check ((Transition.newInTimezone C.zones kind C.tenant authority version due created
    timezone).mapError .transition)
  insertTransition C t

/-- `SaveBase` with its transition. -/
def saveBase (value : BaseSubscription) : Tx Unit := do
  insertBase value
  match value.periodEnd with
  | none => return ()
  | some ends => do
    let created ← now
    scheduleTransition C .subscriptionBoundary value.id value.revision ends created C.timezone

/-- The transition that a completed confirmation needs. -/
def scheduleCompletion (r : Receipt) (created : Instant) : Tx Unit :=
  if r.status = .scheduled then
    scheduleTransition C .scheduledChange r.changeId r.after.revision r.effectiveAt created
      C.timezone
  else
    match r.after.periodEnd with
    | none => return ()
    | some ends =>
      if r.mode = .immediate ∧ (r.status = .applied ∨ r.status = .provisioning) then
        scheduleTransition C .subscriptionBoundary r.after.id r.after.revision ends created
          C.timezone
      else return ()

/-- `Complete` with its transition. -/
def complete (r : Receipt) : Tx Unit := do
  insertReceipt C r
  let created ← now
  scheduleCompletion C r created

end Transitions

end Biz.Change
