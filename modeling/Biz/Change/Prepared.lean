import Biz.Change.Confirm

/-!
# Changes that wait for their provisioning

`prepared.go`: `CompletePreparedSubscriptionChange` lets an approved change take effect
once every step of its task is ready, and `CancelPreparedSubscriptionChange` releases
the subscription. The rows of the tasks themselves are written by provisioning; the
events that both append are left out.
-/

namespace Biz.Change

open Time Checks Transaction Subscription
open Provisioning (Completion Requirement Task increment64 tenant)

/-- What the checks of a completion have established. -/
structure Preparation where
  task : Task
  preview : Preview
  receipt : Receipt
  material : Material
  report : List QuotaImpact
  start : Instant
  ends : Option Instant
  admitted : Instant

section Complete

variable (C : Setting) (S : Services)

/-- The preview and the receipt that a task was approved with. -/
def approvedWith (t : Task) (store : Store) : Except Err (Preview × Receipt) := do
  let p ← getPreview C t.approval.changeId store
  let receipt ← getReceipt C t.approval.changeId store
  let p ← found (.provisioning .corrupt) p
  let receipt ← found (.provisioning .corrupt) receipt
  require (.provisioning .corrupt) (p.hash = t.approval.previewHash ∧
    p.actorId = t.approval.actorId ∧ receipt.actorId = t.approval.actorId ∧
    receipt.status = .provisioning ∧ receipt.provisioningTaskId = t.id)
  return (p, receipt)

/-- A first activation is completed on the subscription that its confirmation made. -/
def preparedMaterial (raw : BaseSubscription) (i : Input) : Tx Material :=
  if i.action = .initial then do
    demand .stale (raw.origin = .initialActivation ∧ raw.state = .provisioning ∧
      raw.planCode = i.targetPlanCode ∧ raw.planVersion = i.targetPlanVersion ∧
      raw.salesScope = i.salesScope)
    captureInitial C S i
  else capture C S raw i

/-- The period of an immediate change starts now; a scheduled one has that of its
receipt, which has to have come. -/
def preparedPeriod (p : Preview) (receipt : Receipt) (m : Material) (now : Instant) :
    Except Err (Instant × Option Instant) :=
  match receipt.mode with
  | .immediate => do
    let (_, start, ends) ← period p.input m.before p.classification now m.target.terms
    return (start, ends)
  | .scheduled => do
    require .stale (receipt.effectiveAt ≤ now)
    return (receipt.effectiveAt, receipt.entitlementExpiresAt)

/-- The steps against the requirements of the target. -/
def stepsReady (t : Task) (requirements : List Requirement) : Prop :=
  ∀ entry ∈ t.steps.zip requirements, entry.1.state = .ready ∧ entry.1.effect = .ready ∧
    entry.1.evidence ≠ "" ∧ entry.1.requirement = entry.2

instance (t : Task) (requirements : List Requirement) :
    Decidable (stepsReady t requirements) :=
  inferInstanceAs (Decidable (∀ entry ∈ t.steps.zip requirements, _))

variable (taskId worker : String) (token : Nat)

/-- All checks of a completion. -/
def prepare (raw : BaseSubscription) : Tx Preparation := do
  let t ← lockTask C taskId
  let first ← now
  demand (.provisioning .lease) (t.owns worker token first ∧ t.stage = .activate ∧
    t.stepIndex = t.steps.length)
  demand .stale (raw.pendingChangeId = t.approval.changeId ∧
    raw.revision = t.approval.subscriptionRevision ∧ first < t.deadline)
  let (p, receipt) ← read (approvedWith C t)
  demand .stale (C.digests.subscription raw = C.digests.subscription receipt.after)
  let m ← preparedMaterial C S raw p.input
  demand .stale (m.version = t.approval.sourceVersion ∧
    m.current.entitlementVersion = t.approval.entitlementVersion ∧
    m.current.catalogRevision = t.approval.catalogRevision ∧
    m.target.contentSha256 = t.approval.targetHash)
  let requirements ← check (preparationRequirements S p.input.action m.target)
  demand .stale (C.digests.requirements requirements =
    C.digests.requirements p.provisioningRequirements ∧ requirements.length = t.steps.length)
  demand (.provisioning .corrupt) (stepsReady t requirements)
  let (start, ends) ← check (preparedPeriod p receipt m first)
  let requested := quotasOf p.input.action m
  let report ← check (S.quotas .immediate start requested)
  let deferred ← check (checkQuotaReport requested report .immediate)
  demand .quota (deferred = false)
  let admitted ← now
  demand (.provisioning .lease) (t.owns worker token admitted ∧ admitted < t.deadline)
  match receipt.mode with
  | .immediate => do
    demand .stale (∀ until_ ∈ m.current.validUntil, admitted < until_)
    let (start, ends) ← check (preparedPeriod p receipt m admitted)
    return ⟨t, p, receipt, m, report, start, ends, admitted⟩
  | .scheduled => return ⟨t, p, receipt, m, report, start, ends, admitted⟩

omit S taskId worker token

/-- The receipt of a completed change. Only a first activation moves its period. -/
def completedReceipt (x : Preparation) (after : BaseSubscription) (view : Entitlement.Result) :
    Receipt :=
  let initial := x.preview.input.action = .initial
  ({ x.receipt with
    status := .applied, after,
    effectiveAt := if initial then x.start else x.receipt.effectiveAt,
    entitlementExpiresAt := if initial then x.ends else x.receipt.entitlementExpiresAt,
    afterSourceVersion := view.sourceVersion, afterEntitlementVersion := view.entitlementVersion,
    quotas := x.report, quotaValidationRequired := false }).seal C.digests

/-- The boundary of a subscription that has an end. -/
def scheduleBoundary (after : BaseSubscription) (created : Instant) : Tx Unit :=
  match after.periodEnd with
  | none => return ()
  | some ends => scheduleTransition C .subscriptionBoundary after.id after.revision ends created
      C.lifecycle.timezone

/-- The subscription that a completion starts from. -/
def preparedSubscription (x : Preparation) (base : BaseSubscription) : BaseSubscription :=
  { base with
    revision := increment64 base.revision, pendingChangeId := "",
    state := C.lifecycle.stateFor x.material.target.planCode x.material.target.number }

variable (S : Services)

/-- The writes of a completion. -/
def activate (raw : BaseSubscription) (x : Preparation) : Tx Completion := do
  let changeId := x.task.approval.changeId
  let base := if x.preview.input.action = .initial then raw else x.material.before
  let (after, view) ← applyChange C S x.preview.input.action x.material
    (preparedSubscription C x base) changeId x.start x.ends
  saveCurrent base after
  updateReceipt C x.receipt (completedReceipt C x after view)
  scheduleBoundary C after x.admitted
  return ⟨changeId, after.revision, view.sourceVersion, view.entitlementVersion, x.admitted⟩

variable (taskId worker : String) (token : Nat)

def completePrepared : Tx Completion := do
  demand (.provisioning .invalid) (tenant C.tenant ∧ Text.key taskId ∧
    Text.key worker ∧ token ≠ 0)
  let raw ← lockTenant C
  let x ← prepare C S taskId worker token raw
  activate C S raw x

end Complete

section Cancel

variable (C : Setting) (S : Services)

/-- A subscription without its pending change. The code sets the state of a restricted
one to what it is. -/
def released (raw : BaseSubscription) : BaseSubscription :=
  { raw with pendingChangeId := "", revision := increment64 raw.revision }

/-- The change of a task that may still be cancelled. -/
def cancellable (taskId : String) (taskRevision : Nat) (raw : BaseSubscription) :
    Tx Task := do
  let t ← lockTask C taskId
  demand (.provisioning .cancellation) (t.revision = taskRevision ∧ t.cancellable)
  demand .stale (raw.pendingChangeId = t.approval.changeId ∧
    raw.revision = t.approval.subscriptionRevision)
  return t

def cancelPrepared (taskId : String) (taskRevision : Nat) : Tx Completion := do
  demand (.provisioning .invalid) (tenant C.tenant ∧ Text.key taskId ∧
    taskRevision ≠ 0)
  let raw ← lockTenant C
  let t ← cancellable C taskId taskRevision raw
  let at_ ← now
  let view ← readSnapshot C S.cache
  let after := { released raw with entitlementSourceVersion := view.sourceVersion }
  saveCurrent raw after
  return ⟨t.approval.changeId, after.revision, view.sourceVersion, view.entitlementVersion, at_⟩

end Cancel

end Biz.Change
