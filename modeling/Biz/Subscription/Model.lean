import Biz.Library.Checks
import Biz.Library.Time
import Biz.Text

/-!
# Base subscriptions

The types of `domain/subscription/model.go` and `lifecycle.go` with their checks: the
base subscription of a tenant, the rules that select the plan of a new tenant, and the
policy that names the trial plans and the grace period.

Counters of 64 bits are natural numbers. A state, an origin or a kind that the package
does not name is `unrecognised`; the checks reject it.
-/

namespace Biz.Subscription

open Time Checks

inductive Err
  | invalid | conflict | requestConflict | notFound | noEligibleDefault | scope
  deriving DecidableEq

inductive Kind
  | base
  | unrecognised (text : String)
  deriving DecidableEq

inductive State
  | trial | active | grace | restricted | provisioning | ended
  | unrecognised (text : String)
  deriving DecidableEq

/-- Where a subscription comes from; payloads older than the field have none. -/
inductive Origin
  | none | defaultRule | initialActivation
  | unrecognised (text : String)
  deriving DecidableEq

def validCode (v : String) : Bool := 0 < v.utf8ByteSize && v.utf8ByteSize ≤ 96 && Text.code v

def State.valid : State → Bool
  | .unrecognised _ => false
  | _ => true

structure Rule where
  ruleId : String
  version : Nat
  priority : Int
  salesScope : String
  planCode : String
  planVersion : Nat
  enabled : Bool
  reason : String
  actorId : String
  updatedAt : Instant

def Rule.validate (r : Rule) : Except Err Unit :=
  require .invalid (validCode r.ruleId ∧ r.version ≠ 0 ∧
    (r.salesScope = "*" ∨ validCode r.salesScope) ∧ validCode r.planCode ∧ r.planVersion ≠ 0 ∧
    Text.trimSpace r.reason ≠ "" ∧ r.reason.utf8ByteSize ≤ 512 ∧ r.actorId ≠ "" ∧
    ¬isZero r.updatedAt)

def Rule.matches (r : Rule) (scope : String) : Bool :=
  r.enabled && (r.salesScope = "*" || r.salesScope = scope)

/-- The order of `Ordered`: higher priority first, a named scope before the wildcard,
then by identity. -/
def Rule.precedes (a b : Rule) : Bool :=
  if a.priority ≠ b.priority then b.priority < a.priority
  else if decide (a.salesScope = "*") ≠ decide (b.salesScope = "*") then a.salesScope ≠ "*"
  else a.ruleId < b.ruleId

/-- Identities of rules are distinct, so an order that is not stable gives this list. -/
def orderedRules (rules : List Rule) : List Rule :=
  rules.insertionSort fun a b => b.precedes a = false

structure BaseSubscription where
  revision : Nat
  periodStart : Instant
  periodEnd : Option Instant
  renewalStopped : Bool
  pendingChangeId : String
  sourceNamespace : String
  origin : Origin
  id : String
  tenantId : String
  kind : Kind
  state : State
  planCode : String
  planVersion : Nat
  ruleId : String
  ruleVersion : Nat
  salesScope : String
  entitlementSourceVersion : Nat
  createdAt : Instant
  matchExplanation : String
  deriving DecidableEq

/-- `subscription.Subscription{}`. -/
def BaseSubscription.zero : BaseSubscription :=
  { revision := 0, periodStart := 0, periodEnd := none, renewalStopped := false,
    pendingChangeId := "", sourceNamespace := "", origin := .none, id := "", tenantId := "",
    kind := .unrecognised "", state := .unrecognised "", planCode := "", planVersion := 0,
    ruleId := "", ruleVersion := 0, salesScope := "", entitlementSourceVersion := 0,
    createdAt := 0, matchExplanation := "" }

variable (s : BaseSubscription)

def BaseSubscription.validOrigin : Bool :=
  match s.origin with
  | .none | .defaultRule => validCode s.ruleId && s.ruleVersion ≠ 0
  | .initialActivation => s.ruleId = "" && s.ruleVersion = 0
  | .unrecognised _ => false

/-- A first activation that is waiting for its provisioning. -/
def BaseSubscription.pendingInitial : Bool :=
  s.origin = .initialActivation && s.state = .provisioning && s.pendingChangeId ≠ ""

def BaseSubscription.validate : Except Err Unit := do
  require .invalid (s.revision ≠ 0 → ¬isZero s.periodStart ∧
    (∀ ends ∈ s.periodEnd, s.periodStart < ends) ∧ s.sourceNamespace ≠ "" ∧
    s.sourceNamespace.utf8ByteSize ≤ 64 ∧ s.pendingChangeId.utf8ByteSize ≤ 64)
  require .invalid (s.id ≠ "" ∧ s.tenantId ≠ "" ∧ s.kind = .base ∧ s.state.valid ∧
    validCode s.planCode ∧ s.planVersion ≠ 0 ∧ s.validOrigin ∧
    (s.salesScope = "*" ∨ validCode s.salesScope) ∧
    (s.pendingInitial ∨ s.entitlementSourceVersion ≠ 0) ∧ ¬isZero s.createdAt ∧
    s.matchExplanation ≠ "")
  require .invalid (s.state = .provisioning → s.pendingInitial)

structure PlanReference where
  planCode : String
  version : Nat
  deriving DecidableEq

structure LifecyclePolicy where
  trialPlans : List PlanReference
  graceDuration : Duration
  businessTimezone : String

namespace LifecyclePolicy

def stateFor (p : LifecyclePolicy) (planCode : String) (version : Nat) : State :=
  if ⟨planCode, version⟩ ∈ p.trialPlans then .trial else .active

def timezone (p : LifecyclePolicy) : String :=
  if p.businessTimezone = "" then "UTC" else p.businessTimezone

theorem stateFor_cases (p : LifecyclePolicy) (planCode : String) (version : Nat) :
    p.stateFor planCode version = .trial ∨ p.stateFor planCode version = .active := by
  unfold stateFor
  split
  · exact .inl rfl
  · exact .inr rfl

end LifecyclePolicy

/-- What a valid subscription with a revision has. -/
theorem BaseSubscription.namespace_of_validate {s : BaseSubscription} (valid : s.validate = .ok ())
    (revised : s.revision ≠ 0) :
    s.sourceNamespace ≠ "" := by
  simp only [validate, bind_ok, require_ok] at valid
  obtain ⟨-, shape, -⟩ := valid
  exact (shape revised).2.2.1

theorem BaseSubscription.validate_error {s : BaseSubscription} {error : Err}
    (refused : s.validate = .error error) : error = .invalid := by
  simp only [validate, bind_error, require_error] at refused
  obtain ⟨-, rfl⟩ | ⟨-, -, ⟨-, rfl⟩ | ⟨-, -, -, rfl⟩⟩ := refused <;> rfl

end Biz.Subscription
