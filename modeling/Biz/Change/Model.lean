import Biz.Snapshot.Store
import Biz.Subscription.Materialize
import Biz.Subscription.Model
import Biz.Transition.Task

/-!
# Subscription changes

The types and decisions of `domain/subscriptionchange/model.go`: what a change asks
for, the preview that an operator confirms and the receipt of its execution, the period
that a change gives a subscription and the check of a quota report.

`Digest` is SHA-256 of a JSON text; `Digests` has one arbitrary function for each type
that the code digests. Fields of a preview that nothing here reads are left out: the
projected rights, the dependencies, the quotas and the texts of its impacts.
-/

namespace Biz.Change

open Time Checks Subscription
open Entitlement (Limit)
open Provisioning (Requirement increment64)

/-- The codes of `google.golang.org/grpc/codes` that the called applications return. -/
inductive Code
  | notFound | failedPrecondition | invalidArgument | aborted | dataLoss | permissionDenied
  | unavailable
  deriving DecidableEq

/-- The errors of the package, then those of the packages it uses; `stale` is the one
of provisioning and `externalApproval` the one of the use cases. -/
inductive Err
  | invalid | conflict | requestConflict | expired | notFound | target | scope | pending | period
  | quota | corrupt | stale | externalApproval | duplicateKey
  | subscription (error : Subscription.Err)
  | entitlement (error : Snapshot.Err)
  | source (error : Entitlement.Err)
  | plan (error : Plan.Err)
  | provisioning (error : Provisioning.Err)
  | transition (error : Transition.Err)
  | status (code : Code)
  deriving DecidableEq

inductive Action
  | initial | switch | renew | stopRenewal
  | unrecognised (text : String)
  deriving DecidableEq

inductive Mode
  | immediate | scheduled
  deriving DecidableEq

inductive Status
  | applied | scheduled | provisioning | failed
  deriving DecidableEq

/-- `Classify` for a switch, the action itself for any other change. -/
inductive Classification
  | upgrade | downgrade | sameTier
  | action (action : Action)
  deriving DecidableEq

inductive PricingBasis
  | noPriceReference | platformManualApprovalRequired
  deriving DecidableEq

inductive PricingAuthority
  | platformManualApproval | tenantSelfServiceNoPriceReference
  deriving DecidableEq

/-- `Reason`. -/
def validReason (s : String) : Bool := Text.trimSpace s ≠ "" && s.utf8ByteSize ≤ 512

structure Input where
  tenantId : String
  requestId : String
  action : Action
  targetPlanCode : String
  targetPlanVersion : Nat
  salesScope : String
  effectiveAt : Option Instant
  reason : String

def Input.validate (i : Input) : Except Err Unit := do
  require .invalid (∀ t ∈ i.effectiveAt, ¬isZero t ∧ 1970 ≤ Calendar.year t ∧
    Calendar.year t ≤ 9999 ∧ t % microsecond = 0)
  require .invalid (Provisioning.tenant i.tenantId ∧ Text.key i.requestId ∧ validReason i.reason)
  match i.action with
  | .initial =>
    require .invalid (Plan.code i.targetPlanCode ∧ i.targetPlanVersion ≠ 0 ∧
      validCode i.salesScope ∧ i.effectiveAt = none)
  | .switch | .renew =>
    require .invalid (Plan.code i.targetPlanCode ∧ i.targetPlanVersion ≠ 0 ∧ i.salesScope = "")
  | .stopRenewal =>
    require .invalid (i.targetPlanCode = "" ∧ i.targetPlanVersion = 0 ∧ i.salesScope = "" ∧
      i.effectiveAt = none)
  | .unrecognised _ => .error .invalid

section Quotas

structure QuotaImpact where
  moduleCode : String
  key : String
  before : Limit
  after : Limit
  usageKnown : Bool := false
  used : UInt64 := 0
  overLimit : Bool := false
  policy : String := ""
  evidence : String := ""
  deriving DecidableEq

def less (a b : Limit) : Bool := !a.unlimited && (b.unlimited || a.value < b.value)

theorem less_irrefl (l : Limit) : less l l = false := by simp [less]

/-- The quotas of terms under the texts that identify them. -/
def quotaEntries (t : Plan.Terms) : List (String × Plan.Module × Plan.Quota) :=
  t.modules.flatMap fun m => m.quotas.map fun q => (m.code ++ "/" ++ q.key, m, q)

/-- The entry that a Go map has for a text: the last one written. -/
def lastEntry {α : Type} (entries : List (String × α)) (text : String) : Option α :=
  (entries.reverse.find? fun entry => entry.1 = text).map Prod.snd

def quotaLimit (t : Plan.Terms) (text : String) : Limit :=
  match lastEntry (quotaEntries t) text with
  | some (_, q) => q.limit
  | none => {}

def quotaChanges (a b : Plan.Terms) : List QuotaImpact :=
  let entries := quotaEntries a ++ quotaEntries b
  let texts := (entries.map Prod.fst).dedup.insertionSort fun x y => x ≤ y
  texts.filterMap fun text =>
    match lastEntry entries text with
    | some (m, q) =>
      let impact : QuotaImpact :=
        { moduleCode := m.code, key := q.key, before := quotaLimit a text,
          after := quotaLimit b text }
      if impact.before ≠ impact.after then some impact else none
    | none => none

/-- The loop of `CheckQuotaReport`, with whether an item so far is deferred. -/
def checkReports (mode : Mode) : Bool → List (QuotaImpact × QuotaImpact) → Except Err Bool
  | deferred, [] => .ok deferred
  | deferred, (expected, q) :: rest => do
    require .corrupt (q.moduleCode = expected.moduleCode ∧ q.key = expected.key ∧
      q.before = expected.before ∧ q.after = expected.after ∧ q.policy ≠ "" ∧
      (q.usageKnown ∨ (q.used = 0 ∧ ¬q.overLimit)))
    if less q.after q.before then
      require .corrupt (q.usageKnown → q.evidence ≠ "")
      let beyond := q.usageKnown && !q.after.unlimited && q.after.value < q.used
      require .corrupt (q.overLimit = beyond)
      if !q.usageKnown || beyond then
        require .quota (mode ≠ .immediate)
        checkReports mode true rest
      else checkReports mode deferred rest
    else checkReports mode deferred rest

def checkQuotaReport (requested report : List QuotaImpact) (mode : Mode) : Except Err Bool := do
  require .corrupt (requested.length = report.length)
  checkReports mode false (requested.zip report)

end Quotas

inductive Severity
  | info | warning | danger
  | unrecognised (text : String)
  deriving DecidableEq

structure Impact where
  code : String
  severity : Severity
  subject : String
  blocking : Bool
  actionRequired : String
  messageKey : String
  messageParameters : List String

/-- The parameters of the message are its keys; `Valid` does not look at their values. -/
def Impact.valid (i : Impact) : Bool :=
  Text.key i.code && Text.key i.subject && Text.key i.messageKey &&
    (i.severity = .info || i.severity = .warning || i.severity = .danger) &&
    (!i.blocking || i.actionRequired ≠ "") && i.messageParameters.all Text.key

structure Preview where
  provisioningRequirements : List Requirement
  changeId : String
  actorId : String
  input : Input
  fingerprint : String
  hash : String
  before : BaseSubscription
  target : Plan.Version
  current : Entitlement.Result
  classification : Classification
  mode : Mode
  createdAt : Instant
  expiresAt : Instant
  effectiveAt : Instant
  impactDetails : List Impact
  pricingBasis : PricingBasis

structure Receipt where
  provisioningTaskId : String
  failureCode : String
  changeId : String
  tenantId : String
  actorId : String
  requestId : String
  fingerprint : String
  previewHash : String
  hash : String
  action : Action
  status : Status
  mode : Mode
  confirmedAt : Instant
  effectiveAt : Instant
  entitlementExpiresAt : Option Instant
  reason : String
  before : BaseSubscription
  after : BaseSubscription
  beforeSourceVersion : Nat
  afterSourceVersion : Nat
  beforeEntitlementVersion : Nat
  afterEntitlementVersion : Nat
  quotaValidationRequired : Bool
  pricingAuthority : PricingAuthority
  quotas : List QuotaImpact

/-- What the code digests. `source` keeps twelve bytes of a digest of a text. -/
structure Digests where
  source : String → String
  strings : List String → String
  input : Input → String
  subscription : BaseSubscription → String
  requirements : List Requirement → String
  preview : Preview → String
  receipt : Receipt → String
  plan : String → Plan.Terms → String
  task : Provisioning.Digestible → String

section Integrity

variable (D : Digests)

/-- `ID`. -/
def changeIdOf (actor tenant key : String) : String :=
  "chg-" ++ Text.short (D.strings [actor, tenant, key])

variable (p : Preview)

def Preview.seal : Preview := { p with hash := D.preview { p with hash := "" } }

def Preview.beforeValid : Prop :=
  if p.input.action = .initial then p.before = .zero
  else p.before.tenantId = p.input.tenantId ∧ p.before.revision ≠ 0

/-- A tenant without a subscription may have no sources yet. -/
def Preview.currentValid : Prop :=
  if p.input.action = .initial then p.current.entitlementVersion ≠ 0
  else p.current.sourceVersion ≠ 0 ∧ p.current.entitlementVersion ≠ 0

instance (p : Preview) : Decidable p.beforeValid := by
  unfold Preview.beforeValid
  infer_instance

instance (p : Preview) : Decidable p.currentValid := by
  unfold Preview.currentValid
  infer_instance

def Preview.integrity : Except Err Unit := do
  require .corrupt (Provisioning.validateRequirements p.provisioningRequirements = none ∧
    p.input.validate = .ok () ∧ p.actorId ≠ "" ∧
    p.changeId = changeIdOf D p.actorId p.input.tenantId p.input.requestId ∧
    p.fingerprint = D.input p.input ∧ p.createdAt < p.expiresAt ∧ p.hash = (p.seal D).hash ∧
    p.beforeValid ∧ p.currentValid ∧ p.target.integrity D.plan = .ok ())
  require .corrupt (∀ impact ∈ p.impactDetails, impact.valid)

def Receipt.seal (r : Receipt) : Receipt := { r with hash := D.receipt { r with hash := "" } }

def Receipt.transitionValid (r : Receipt) : Prop :=
  match r.action with
  | .initial => r.before = .zero ∧ r.after.tenantId = r.tenantId ∧ 1 ≤ r.after.revision ∧
      r.after.origin = .initialActivation ∧ r.mode = .immediate
  | .switch | .renew | .stopRenewal => r.before.tenantId = r.tenantId ∧
      r.after.tenantId = r.tenantId ∧ increment64 r.before.revision ≤ r.after.revision ∧
      r.after.revision ≠ 0
  | .unrecognised _ => False

instance (r : Receipt) : Decidable r.transitionValid := by
  unfold Receipt.transitionValid
  split <;> infer_instance

/-- The checks of statuses and modes against other texts are the types of the fields. -/
def Receipt.integrity (r : Receipt) : Except Err Unit :=
  require .corrupt (Provisioning.tenant r.tenantId ∧ Text.key r.requestId ∧ Text.key r.changeId ∧
    r.actorId ≠ "" ∧ r.hash = (r.seal D).hash ∧ r.transitionValid ∧ ¬isZero r.confirmedAt ∧
    r.previewHash.utf8ByteSize = 64 ∧ (r.status = .failed → Text.key r.failureCode) ∧
    (r.status ≠ .failed → r.failureCode = "") ∧
    (r.status = .provisioning →
      r.provisioningTaskId = Provisioning.taskId D.task r.changeId ∧
        r.after.pendingChangeId = r.changeId))

end Integrity

/-- `Normalize`: a version and a period for the payloads that are older than both. -/
def normalize (s : BaseSubscription) (p : Plan.Version) : Except Err BaseSubscription := do
  require .corrupt (s.planCode = p.planCode ∧ s.planVersion = p.number ∧ s.validate = .ok ())
  let s :=
    if s.revision = 0 then
      { s with
        revision := 1, periodStart := s.createdAt,
        periodEnd := if p.terms.validityMode = .fixedDays then
          some (addDays s.createdAt p.terms.validityDays) else s.periodEnd }
    else s
  let s := if s.sourceNamespace = "" then { s with sourceNamespace := s.id } else s
  require .corrupt (¬isZero s.periodStart ∧ ∀ ends ∈ s.periodEnd, s.periodStart < ends)
  return s

/-- `AddDate(years, 0, 0)` in UTC: the twenty-ninth of February of a year that has
none is the first of March, as its day number is. -/
def addYears (t : Instant) (years : Int) : Instant :=
  Calendar.instant { Calendar.date t with year := (Calendar.date t).year + years }

/-- The mode of a change and when it takes effect. -/
def periodStart (i : Input) (before : BaseSubscription) (classification : Classification)
    (now : Instant) : Except Err (Mode × Instant) :=
  match i.effectiveAt with
  | some t => do
    require .invalid (now < t ∧ t ≤ addYears now 100)
    return (.scheduled, t)
  | none =>
    if i.action = .switch ∧ classification = .downgrade then do
      let ends ← found .period before.periodEnd
      return if now < ends then (.scheduled, ends) else (.immediate, now)
    else return (.immediate, now)

def period (i : Input) (before : BaseSubscription) (classification : Classification)
    (now : Instant) (target : Plan.Terms) : Except Err (Mode × Instant × Option Instant) := do
  let (mode, start) ← periodStart i before classification now
  if i.action = .stopRenewal then return (.immediate, now, before.periodEnd)
  else if i.action = .renew then do
    require .period (target.validityMode = .fixedDays)
    let ends ← found .period before.periodEnd
    return (mode, start, some (addDays (max start ends) target.validityDays))
  else if target.validityMode = .fixedDays then
    return (mode, start, some (addDays start target.validityDays))
  else return (mode, start, none)

end Biz.Change
