import Biz.Change.Prepared

/-!
# Transitions that are due

`time_transition.go`: a worker claims a transition that is due and completes it. The end
of a source only has to be noticed. At the end of its period a subscription goes to
grace, is restricted or ends. A reserved change is checked again and takes effect,
starts its provisioning or fails.

A change that fails does so in the transaction that has tried it, so what the attempt
has written stays.
-/

namespace Biz.Change

open Time Checks Transaction Subscription
open Entitlement (Source)
open Provisioning (Requirement increment64)
open Transition (Key canonicalTime)

/-- What a completed transition returns. -/
structure TransitionResult where
  task : Transition.Task
  subscriptionRevision : Nat := 0
  sourceVersion : Nat := 0
  entitlementVersion : Nat := 0
  provisioningTaskId : String := ""

/-- The reason of an error that ends a reserved change; other errors are tried again. -/
def terminalTransitionError : Err → Option String
  | .target => some "TARGET_NO_LONGER_ELIGIBLE"
  | .quota => some "QUOTA_REVALIDATION_REQUIRED"
  | .conflict | .corrupt => some "AUTHORITY_REVALIDATION_REQUIRED"
  | .status .notFound | .status .failedPrecondition | .status .invalidArgument
  | .status .aborted | .status .dataLoss => some "DEPENDENCY_REVALIDATION_REQUIRED"
  | _ => none

section Leases

variable (C : Setting)

/-- The transition with an identity is claimed if it is due. The code takes the first
due one that no other worker has locked; any of them may be that one. -/
def claimTransition (id : Key) (worker : String) (lease : Duration) :
    Tx Transition.Task := do
  let at_ ← now
  let before ← read (getTransition C id)
  let after ← check ((before.claim C.zones worker at_ lease).mapError .transition)
  saveTransition C before after
  return after

variable (id : Key) (worker : String) (token : Nat)

/-- The transition under the lease of a worker, and the time. -/
def lockOwned : Tx (Transition.Task × Instant) := do
  let current ← read (getTransition C id)
  let at_ ← now
  demand (.transition .lease) (current.owns worker token at_ = true)
  return (current, at_)

omit id

def finishTransition (current : Transition.Task) (state : Transition.State) (outcome : String)
    (at_ : Instant) : Tx Transition.Task := do
  let after ← check ((current.finish C.zones worker token state outcome at_).mapError .transition)
  saveTransition C current after
  return after

end Leases

section Complete

variable (C : Setting) (S : Services) (id : Key) (worker : String) (token : Nat)

/-- A source that the end of a transition is still the end of. -/
def expiresWith (id : Key) (v : Source) : Prop :=
  v.id = id.authorityId ∧ v.version = id.authorityVersion ∧ v.expiresAt = some id.dueAt ∧
    ∀ revoked ∈ v.revokedAt, id.dueAt ≤ revoked

instance (id : Key) (v : Source) : Decidable (expiresWith id v) :=
  inferInstanceAs (Decidable (_ ∧ _))

/-- What becomes of the transition of a source that ends. -/
def expiryOutcome (sources : List Source) (id : Key) : Transition.State × String :=
  if ∃ v ∈ sources, expiresWith id v then (.applied, "ENTITLEMENT_EXPIRY_APPLIED")
  else (.superseded, "ENTITLEMENT_AUTHORITY_SUPERSEDED")

def completeEntitlementExpiry : Tx TransitionResult := do
  let (version, sources) ← lockSources C
  let view ← readSnapshot C S.cache
  let (current, at_) ← lockOwned C id worker token
  let (state, outcome) := expiryOutcome sources current.id
  let finished ← finishTransition C worker token current state outcome at_
  return { task := finished, sourceVersion := version,
           entitlementVersion := view.entitlementVersion }

/-- The subscription that a boundary is one of. -/
def bounds (id : Key) (raw : BaseSubscription) : Prop :=
  raw.id = id.authorityId ∧ raw.revision = id.authorityVersion ∧ raw.periodEnd = some id.dueAt

instance (id : Key) (raw : BaseSubscription) : Decidable (bounds id raw) :=
  inferInstanceAs (Decidable (_ ∧ _))

/-- What the end of its period makes of a subscription, with the outcome. The grace
period starts at the boundary, not when a worker notices it. -/
def pastBoundary (p : LifecyclePolicy) (raw : BaseSubscription) (due at_ : Instant) :
    BaseSubscription × String :=
  let after := { raw with revision := increment64 raw.revision, state := .restricted }
  if raw.renewalStopped then ({ after with state := .ended }, "RENEWAL_STOPPED_ENDED")
  else if raw.state ≠ .grace ∧ 0 < p.graceDuration then
    let graceEnd := canonicalTime (due + p.graceDuration)
    if at_ < graceEnd then
      ({ after with state := .grace, periodEnd := some graceEnd },
        if raw.state = .trial then "TRIAL_EXPIRED_GRACE"
        else "PAYMENT_OR_RENEWAL_CONFIRMATION_GRACE")
    else
      (after, if raw.state = .trial then "TRIAL_EXPIRED_GRACE_ELAPSED"
        else "PAYMENT_OR_RENEWAL_CONFIRMATION_GRACE_ELAPSED")
  else (after, "PAYMENT_OR_RENEWAL_CONFIRMATION_REQUIRED")

/-- The boundary at the end of the grace period. -/
def scheduleGraceEnd (after : BaseSubscription) (created : Instant) (timezone : String) :
    Tx Unit :=
  match after.state, after.periodEnd with
  | .grace, some ends =>
    scheduleTransition C .subscriptionBoundary after.id after.revision ends created timezone
  | _, _ => return ()

def completeSubscriptionBoundary : Tx TransitionResult := do
  let raw ← lockTenant C
  let view ← readSnapshot C S.cache
  let (current, at_) ← lockOwned C id worker token
  if ¬bounds current.id raw then do
    let finished ← finishTransition C worker token current .superseded
      "SUBSCRIPTION_REVISION_SUPERSEDED" at_
    return ⟨finished, raw.revision, view.sourceVersion, view.entitlementVersion, ""⟩
  else if raw.pendingChangeId ≠ "" then do
    let finished ← finishTransition C worker token current .applied
      "RIGHTS_EXPIRED_PENDING_APPROVED_CHANGE" at_
    return ⟨finished, raw.revision, view.sourceVersion, view.entitlementVersion, ""⟩
  else do
    let (past, outcome) := pastBoundary C.lifecycle raw current.id.dueAt at_
    let after := { past with entitlementSourceVersion := view.sourceVersion }
    saveCurrent raw after
    scheduleGraceEnd C after at_ current.businessTimezone
    let finished ← finishTransition C worker token current .applied outcome at_
    return ⟨finished, after.revision, view.sourceVersion, view.entitlementVersion, ""⟩

/-- A reserved change whose reservation still stands. -/
def reserves (id : Key) (raw : BaseSubscription) (receipt : Receipt) : Prop :=
  raw.pendingChangeId = id.authorityId ∧ raw.revision = id.authorityVersion ∧
    receipt.status = .scheduled ∧ receipt.mode = .scheduled ∧ receipt.effectiveAt = id.dueAt ∧
    receipt.after.revision = raw.revision

instance (id : Key) (raw : BaseSubscription) (receipt : Receipt) :
    Decidable (reserves id raw receipt) :=
  inferInstanceAs (Decidable (_ ∧ _))

variable (receipt : Receipt)

/-- The receipt of a change that has failed. -/
def failedReceipt (after : BaseSubscription) (view : Entitlement.Result)
    (reason : String) : Receipt :=
  ({ receipt with
    status := .failed, failureCode := reason, after,
    afterSourceVersion := after.entitlementSourceVersion,
    afterEntitlementVersion := view.entitlementVersion,
    quotaValidationRequired := false }).seal C.digests

variable (raw : BaseSubscription)

def failScheduledTransition (reason : String) : Tx TransitionResult := do
  let (current, at_) ← lockOwned C id worker token
  let after := released raw
  saveCurrent raw after
  let view ← readSnapshot C S.cache
  updateReceipt C receipt (failedReceipt C receipt after view reason)
  let finished ← finishTransition C worker token current .reconcileRequired reason at_
  return ⟨finished, after.revision, view.sourceVersion, view.entitlementVersion, ""⟩

/-- The receipt of a change that is carried out when it is due. -/
def duedReceipt (status : Status) (taskId : String)
    (after : BaseSubscription) (sourceVersion entitlementVersion : Nat)
    (report : List QuotaImpact) : Receipt :=
  ({ receipt with
    status, provisioningTaskId := taskId, after, afterSourceVersion := sourceVersion,
    afterEntitlementVersion := entitlementVersion, quotas := report,
    quotaValidationRequired := false }).seal C.digests

/-- A change with requirements starts its provisioning; until then the subscription is
restricted. -/
def startProvisioning (preview : Preview) (receipt : Receipt) (raw : BaseSubscription)
    (m : Material) (report : List QuotaImpact) (requirements : List Requirement)
    (current : Transition.Task) (at_ : Instant) : Tx TransitionResult := do
  let after := { raw with revision := increment64 raw.revision, state := .restricted }
  let t ← check (newTask C id.authorityId receipt.actorId preview.hash m after.revision m.version
    m.current.entitlementVersion requirements at_)
  insertTask C t
  saveCurrent raw after
  updateReceipt C receipt (duedReceipt C receipt .provisioning t.id after m.version
    m.current.entitlementVersion report)
  let finished ← finishTransition C worker token current .applied "PROVISIONING_STARTED" at_
  return ⟨finished, after.revision, m.version, m.current.entitlementVersion, t.id⟩

/-- The subscription of a reserved change that takes effect. -/
def duedSubscription (m : Material) : BaseSubscription :=
  { raw with
    revision := increment64 raw.revision, pendingChangeId := "",
    state := C.lifecycle.stateFor m.target.planCode m.target.number }

def takeScheduled (m : Material)
    (report : List QuotaImpact) (current : Transition.Task) (at_ : Instant) :
    Tx TransitionResult := do
  match ← attempt (applySources C S m (duedSubscription C raw m) id.authorityId receipt.effectiveAt
    receipt.entitlementExpiresAt) with
  | .error error =>
    match terminalTransitionError error with
    | some reason => failScheduledTransition C S id worker token receipt raw reason
    | none => check (.error error)
  | .ok (after, view) => do
    saveCurrent raw after
    updateReceipt C receipt (duedReceipt C receipt .applied receipt.provisioningTaskId after
      view.sourceVersion view.entitlementVersion report)
    let finished ← finishTransition C worker token current .applied "SCHEDULED_CHANGE_APPLIED" at_
    return ⟨finished, after.revision, view.sourceVersion, view.entitlementVersion, ""⟩

/-- The rest of a reserved change after its material was captured. -/
def executeScheduled (preview : Preview) (receipt : Receipt) (raw : BaseSubscription)
    (m : Material) : Tx TransitionResult := do
  let requested := quotasOf preview.input.action m
  let report ← check (S.quotas .immediate id.dueAt requested)
  if checkQuotaReport requested report .immediate ≠ .ok false then
    failScheduledTransition C S id worker token receipt raw "QUOTA_REVALIDATION_REQUIRED"
  else do
    let requirements ← check (preparationRequirements S preview.input.action m.target)
    if C.digests.requirements requirements ≠
        C.digests.requirements preview.provisioningRequirements then
      failScheduledTransition C S id worker token receipt raw "PREPARATION_REQUIREMENTS_CHANGED"
    else do
      let (current, at_) ← lockOwned C id worker token
      demand (.transition .lease) (current.id.dueAt ≤ at_)
      if requirements ≠ [] then
        startProvisioning C id worker token preview receipt raw m report requirements current at_
      else takeScheduled C S id worker token receipt raw m report current at_

def completeScheduledChange : Tx TransitionResult := do
  let raw ← lockTenant C
  let preview ← read (getPreview C id.authorityId)
  let receipt ← read (getReceipt C id.authorityId)
  let preview ← check (found .corrupt preview)
  let receipt ← check (found .corrupt receipt)
  if ¬reserves id raw receipt then do
    let (current, at_) ← lockOwned C id worker token
    let finished ← finishTransition C worker token current .superseded
      "SCHEDULED_CHANGE_AUTHORITY_SUPERSEDED" at_
    return { task := finished, subscriptionRevision := raw.revision,
             sourceVersion := raw.entitlementSourceVersion }
  else do
    match ← attempt (capture C S raw preview.input) with
    | .error error =>
      match terminalTransitionError error with
      | some reason => failScheduledTransition C S id worker token receipt raw reason
      | none => check (.error error)
    | .ok m => executeScheduled C S id worker token preview receipt raw m

/-- `CompleteCommercialTimeTransition`. The rows are those of the tenant, and a
transition keeps what identifies it, so its identity tells its kind. -/
def completeTransition : Tx TransitionResult := do
  demand (.transition .invalid) (Text.key worker ∧ token ≠ 0)
  let hint ← read (getTransition C id)
  match hint.id.kind with
  | .entitlementExpiry => completeEntitlementExpiry C S id worker token
  | .subscriptionBoundary => completeSubscriptionBoundary C S id worker token
  | .scheduledChange => completeScheduledChange C S id worker token

end Complete

end Biz.Change
