import Biz.Change.Apply

/-!
# Bootstrapping and confirming

`BootstrapBaseSubscription` of `subscriptionmanagement` gives a new tenant the plan of
the first rule that fits. `confirm` of `subscriptionchanges` turns a preview into a
receipt: the change takes effect at once, waits for its provisioning, or is reserved
for a later instant.

The confirmation is cut at its last reading of the clock: `admission` decides and writes
nothing, `settle` writes.
-/

namespace Biz.Change

open Time Checks Transaction Subscription
open Entitlement (Source)
open Provisioning (Requirement increment64)

section Bootstrap

variable (C : Setting) (S : Services) (rule : Rule)

/-- The eligibility of the plan of a rule; a plan that does not exist is passed over. -/
def ruleEligibility (scope : String) (store : Store) : Except Err (Option (Plan.Version × Bool)) :=
  match checkPlanEligibility C S rule.planCode rule.planVersion scope store with
  | .ok answer => .ok (some answer)
  | .error error => if error = .status .notFound then .ok none else .error error

/-- Whether a default subscription may have the plan: nothing to prepare, and an end
if it is a trial. -/
def offersDefault (version : Plan.Version) (requirements : List Requirement) : Bool :=
  requirements.isEmpty &&
    !(C.lifecycle.stateFor rule.planCode rule.planVersion = .trial &&
      version.terms.validityMode ≠ .fixedDays)

/-- The loop over the rules: the first one that matches and whose plan may be sold. -/
def chooseRule (scope : String) : List Rule → Tx (Option (Rule × Plan.Version))
  | [] => return none
  | rule :: rest =>
    if rule.matches scope then do
      match ← read (ruleEligibility C S rule scope) with
      | some (v, true) => do
        let version ← check (project C v)
        let requirements ← check (requirementsOf S version)
        if offersDefault C rule version requirements then return some (rule, version)
        else chooseRule scope rest
      | _ => chooseRule scope rest
    else chooseRule scope rest

/-- The explanation that a default subscription carries. -/
def explanation : String :=
  "rule=" ++ rule.ruleId ++ "@" ++ toString rule.version ++ " priority=" ++
    toString rule.priority ++ " scope=" ++ rule.salesScope

/-- The subscription of a new tenant. -/
def defaultSubscription (version : Plan.Version) (scope : String)
    (sourceVersion : Nat) (now : Instant) : BaseSubscription :=
  { origin := .defaultRule, id := subscriptionId C.digests.source C.tenant, tenantId := C.tenant,
    kind := .base, state := C.lifecycle.stateFor rule.planCode rule.planVersion,
    planCode := rule.planCode, planVersion := rule.planVersion, ruleId := rule.ruleId,
    ruleVersion := rule.version, salesScope := scope, entitlementSourceVersion := sourceVersion,
    createdAt := now, matchExplanation := explanation rule, revision := 1, periodStart := now,
    periodEnd := if version.terms.validityMode = .fixedDays then
      some (addDays now version.terms.validityDays) else none,
    renewalStopped := false, pendingChangeId := "",
    sourceNamespace := subscriptionId C.digests.source C.tenant }

/-- A source of a new subscription. -/
def grantSource (v : Source) : Tx Unit := do
  check (v.validateShape.mapError .source)
  insertSource C v

/-- What a tenant without a subscription gets. -/
def grantDefault (scope : String) : Tx BaseSubscription := do
  check ((S.rules.forM Rule.validate).mapError .subscription)
  let some (rule, version) ← chooseRule C S scope (orderedRules S.rules)
    | check (.error (.subscription .noEligibleDefault))
  let start ← now
  let (sourceVersion, _) ← lockSources C
  (sources C.digests.source C.tenant (subscriptionId C.digests.source C.tenant) start
    version.terms).forM (grantSource C)
  advance C sourceVersion
  let b := defaultSubscription C rule version scope (sourceVersion + 1) start
  check (b.validate.mapError .subscription)
  saveBase C b
  return b

/-- `BootstrapBaseSubscription`. A request of a tenant that has a subscription gets it. -/
def bootstrap (requestId scope : String) : Tx BaseSubscription := do
  demand (.subscription .invalid) (requestId ≠ "" ∧ C.tenant ≠ "" ∧ validCode scope)
  let _ ← read fun store => (Snapshot.lockCatalog store.entitlements).mapError .entitlement
  match ← read (optionalBase C) with
  | some existing => do
    demand (.subscription .requestConflict) (existing.salesScope = scope)
    return existing
  | none => grantDefault C S scope

end Bootstrap

/-- What a confirmation is called with. -/
structure Confirmation where
  actorId : String
  changeId : String
  requestId : String
  previewHash : String
  reason : String
  tenantSelfService : Bool

/-- What the checks of a confirmation have established. -/
structure Admission where
  preview : Preview
  material : Material
  mode : Mode
  start : Instant
  ends : Option Instant
  quotas : List QuotaImpact
  deferred : Bool
  requirements : List Requirement
  admitted : Instant

section Confirm

variable (C : Setting) (S : Services) (r : Confirmation)

def Confirmation.fingerprint : String :=
  C.digests.strings [r.actorId, C.tenant, r.requestId, r.changeId, r.previewHash,
    Text.trimSpace r.reason]

/-- The preview that a confirmation is for, with the checks of who confirms it. -/
def confirmedPreview (store : Store) : Except Err Preview := do
  let already ← getReceipt C r.changeId store
  require .requestConflict (already = none)
  let preview ← getPreview C r.changeId store
  let preview ← found .notFound preview
  require .scope (preview.actorId = r.actorId ∧ preview.input.tenantId = C.tenant)
  require .conflict (preview.hash = r.previewHash)
  require .externalApproval (r.tenantSelfService ∨ preview.input.action = .initial →
    preview.pricingBasis = .noPriceReference)
  return preview

/-- The material of a confirmation, after the checks of the subscription. -/
def confirmedMaterial (i : Input) (current : Option BaseSubscription) : Tx Material :=
  if i.action = .initial then do
    demand .conflict (current = none)
    check (validateInitialTenant S)
    captureInitial C S i
  else do
    let raw := current.getD .zero
    demand .pending (raw.pendingChangeId = "")
    capture C S raw i

def quotasOf (action : Action) (m : Material) : List QuotaImpact :=
  if action = .stopRenewal then [] else quotaChanges m.old.terms m.target.terms

/-- All checks of a confirmation. An immediate change has its period from the reading
of the clock that admits it. -/
def admission (current : Option BaseSubscription) : Tx Admission := do
  let preview ← read (confirmedPreview C r)
  let first ← now
  demand .expired (first < preview.expiresAt)
  let m ← confirmedMaterial C S preview.input current
  demand .conflict (C.digests.subscription m.before = C.digests.subscription preview.before ∧
    m.current.sourceVersion = preview.current.sourceVersion ∧
    m.current.entitlementVersion = preview.current.entitlementVersion ∧
    m.current.catalogRevision = preview.current.catalogRevision ∧
    m.target.contentSha256 = preview.target.contentSha256)
  let (mode, start, ends) ← check (period preview.input m.before preview.classification first
    m.target.terms)
  demand .conflict (mode = preview.mode ∧ (mode = .scheduled → start = preview.effectiveAt))
  demand .expired (mode = .scheduled → first < start)
  let requested := quotasOf preview.input.action m
  let quotas ← check (S.quotas mode start requested)
  let deferred ← check (checkQuotaReport requested quotas mode)
  let requirements ← check (preparationRequirements S preview.input.action m.target)
  demand .conflict (C.digests.requirements requirements =
    C.digests.requirements preview.provisioningRequirements)
  let admitted ← now
  demand .expired (admitted < preview.expiresAt)
  if mode = .immediate then do
    let (_, start, ends) ← check (period preview.input m.before preview.classification admitted
      m.target.terms)
    return { preview, material := m, mode, start, ends, quotas, deferred, requirements, admitted }
  else
    return { preview, material := m, mode, start, ends, quotas, deferred, requirements, admitted }

variable (a : Admission)

/-- The subscription of a first activation. -/
def initialSubscription : BaseSubscription :=
  { origin := .initialActivation, id := subscriptionId C.digests.source C.tenant,
    tenantId := C.tenant, kind := .base,
    state := C.lifecycle.stateFor a.material.target.planCode a.material.target.number,
    planCode := a.material.target.planCode, planVersion := a.material.target.number, ruleId := "",
    ruleVersion := 0, salesScope := a.preview.input.salesScope,
    entitlementSourceVersion := a.material.version, createdAt := a.admitted,
    matchExplanation := "initial activation " ++ r.changeId, revision := 1,
    periodStart := a.start, periodEnd := a.ends, renewalStopped := false, pendingChangeId := "",
    sourceNamespace := r.changeId }

/-- The subscription that all branches of a confirmation start from. The state is set
here, before the branches. -/
def confirmedSubscription : BaseSubscription :=
  if a.preview.input.action = .initial then initialSubscription C r a
  else
    { a.material.before with
      revision := increment64 a.material.before.revision,
      entitlementSourceVersion := a.material.version,
      state := if a.preview.input.action = .stopRenewal then a.material.before.state
        else C.lifecycle.stateFor a.material.target.planCode a.material.target.number }

/-- The receipt that all branches start from. -/
def confirmedReceipt : Receipt :=
  { provisioningTaskId := "", failureCode := "", changeId := r.changeId, tenantId := C.tenant,
    actorId := r.actorId, requestId := r.requestId, fingerprint := r.fingerprint C,
    previewHash := a.preview.hash, hash := "", action := a.preview.input.action,
    status := .applied, mode := a.mode, confirmedAt := a.admitted, effectiveAt := a.start,
    entitlementExpiresAt := a.ends, reason := Text.trimSpace r.reason, before := a.material.before,
    after := .zero, beforeSourceVersion := a.material.version,
    afterSourceVersion := a.material.version,
    beforeEntitlementVersion := a.material.current.entitlementVersion,
    afterEntitlementVersion := a.material.current.entitlementVersion,
    quotaValidationRequired := a.deferred, quotas := a.quotas,
    pricingAuthority := if r.tenantSelfService then .tenantSelfServiceNoPriceReference
      else .platformManualApproval }

/-- The task of a change that has to be prepared. -/
def newTask (changeId actorId previewHash : String) (m : Material) (revision sourceVersion : Nat)
    (entitlementVersion : Nat) (requirements : List Requirement) (created : Instant) :
    Except Err Provisioning.Task :=
  match Provisioning.new C.digests.task C.tenant
    { changeId, actorId, previewHash, targetHash := m.target.contentSha256,
      targetPlanCode := m.target.planCode, targetPlanVersion := m.target.number,
      subscriptionRevision := revision, sourceVersion, entitlementVersion,
      catalogRevision := m.current.catalogRevision } requirements created with
  | (t, none) => .ok t
  | (_, some error) => .error (.provisioning error)

/-- The branch of a change that waits for its provisioning. -/
def provision : Tx (Receipt × BaseSubscription) := do
  let after := { confirmedSubscription C r a with pendingChangeId := r.changeId }
  let t ← check (newTask C r.changeId r.actorId a.preview.hash a.material after.revision
    a.material.version a.material.current.entitlementVersion a.requirements a.admitted)
  insertTask C t
  return ({ confirmedReceipt C r a with status := .provisioning, provisioningTaskId := t.id },
    after)

/-- The same for a first activation. It reserves a generation of sources first, since
an approval needs a version, and its task cannot be cancelled. -/
def provisionInitial : Tx (Receipt × BaseSubscription) := do
  advance C a.material.version
  let after := { confirmedSubscription C r a with
    pendingChangeId := r.changeId, state := .provisioning,
    entitlementSourceVersion := a.material.version + 1 }
  let baseline ← readSnapshot C S.cache
  demand .corrupt (baseline.sourceVersion = after.entitlementSourceVersion ∧
    a.material.current.entitlementVersion < baseline.entitlementVersion)
  let t ← check (newTask C r.changeId r.actorId a.preview.hash a.material after.revision
    baseline.sourceVersion baseline.entitlementVersion a.requirements a.admitted)
  let t := ({ t with cancellationDisabled := true }).seal C.digests.task
  demand (.provisioning .corrupt) (t.integrity C.digests.task = none)
  insertTask C t
  return ({ confirmedReceipt C r a with
    status := .provisioning, provisioningTaskId := t.id,
    afterSourceVersion := baseline.sourceVersion,
    afterEntitlementVersion := baseline.entitlementVersion }, after)

/-- The branch of a change that is reserved for its instant. -/
def reserve : Tx (Receipt × BaseSubscription) := do
  let (sourceVersion, entitlementVersion, after) ← installTimeFence C S a.material
    { confirmedSubscription C r a with pendingChangeId := r.changeId } a.start
  return ({ confirmedReceipt C r a with
    status := .scheduled, afterSourceVersion := sourceVersion,
    afterEntitlementVersion := entitlementVersion }, after)

/-- The branch of a change that takes effect. -/
def take : Tx (Receipt × BaseSubscription) := do
  let (after, view) ← applyChange C S a.preview.input.action a.material
    (confirmedSubscription C r a) r.changeId a.start a.ends
  return ({ confirmedReceipt C r a with
    afterSourceVersion := view.sourceVersion, afterEntitlementVersion := view.entitlementVersion },
    after)

/-- The branches of a confirmation. -/
def execute : Tx (Receipt × BaseSubscription) :=
  if a.mode = .immediate ∧ a.requirements ≠ [] then
    if a.preview.input.action = .initial then provisionInitial C S r a else provision C r a
  else if a.mode = .scheduled then reserve C S r a
  else if a.preview.input.action = .stopRenewal then
    return (confirmedReceipt C r a, { confirmedSubscription C r a with renewalStopped := true })
  else take C S r a

def saveConfirmed (after : BaseSubscription) : Tx Unit :=
  if a.preview.input.action = .initial then createCurrent C after
  else saveCurrent a.material.before after

/-- The writes of a confirmation. -/
def settle : Tx Receipt := do
  let (receipt, after) ← execute C S r a
  saveConfirmed C a after
  let receipt := ({ receipt with after }).seal C.digests
  complete C receipt
  return receipt

omit a

/-- The subscription that a confirmation locks: a first activation finds none. -/
def lockCurrent (i : Input) : Tx (Option BaseSubscription) :=
  if i.action = .initial then do
    demand .scope (r.tenantSelfService = false)
    lockTenantOptional C
  else do
    let raw ← lockTenant C
    return some raw

def confirm : Tx Receipt := do
  demand .invalid (Provisioning.tenant C.tenant ∧ Text.key r.changeId ∧ Text.key r.requestId ∧
    r.previewHash.utf8ByteSize = 64 ∧ validReason r.reason)
  match ← read (getPreview C r.changeId) with
  | none => do
    -- A used key still belongs to its request, whatever change it names now.
    let replay ← read (receiptForRequest C r.actorId r.requestId (r.fingerprint C))
    check (found .notFound replay)
  | some hint => do
    let current ← lockCurrent C r hint.input
    match ← read (receiptForRequest C r.actorId r.requestId (r.fingerprint C)) with
    | some replay => return replay
    | none => do
      let a ← admission C S r current
      settle C S r a

end Confirm

end Biz.Change
