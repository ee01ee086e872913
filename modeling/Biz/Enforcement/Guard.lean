import Biz.CapabilityMap.Documents
import Biz.Entitlement.Resolve

/-!
# The commercial guard

`enforcement/guard.go` applies the compiled capability map after the authorizer. A guard holds
the operations of a document; `check` asks the entitlement reader for the capabilities that an
operation needs on every path and admits it when the answer allows all of them.

Since the compiled capabilities are a closure, an operation that is always reached needs no
capability that its root does not need, and a result that admits the root admits it too.

The reader and the auditor are parameters; a call returns the event that it records next to
its outcome. Errors of the reader are told apart as `check` tells them apart.
-/

namespace Biz.Enforcement

open Checks CapabilityMap
open Entitlement (Result)

inductive ReaderErr
  | retryRequired | transient | stale | stateLost | other

abbrev Reader := List String → Except ReaderErr Result

/-- The reasons of the guard; those of decisions are passed on. -/
inductive Reason
  | explicitCommercialExemption | sourceUnavailable | retryRequired | snapshotStale
  | authorityStateLost | contextInvalid
  | decision (reason : Entitlement.Reason)

/-- What the guard reads of a request: its correlation, its principal and the root operation,
which is empty outside a root. -/
structure Context where
  correlationId : String
  tenantId : String
  subject : String
  root : String

structure AuditEvent where
  correlationId : String
  tenantId : String
  subject : String
  rootOperation : String
  operation : String
  stage : String
  allowed : Bool
  reason : Reason
  sourceVersion : Nat
  mappingVersion : String

structure Failure where
  code : Reason
  operation : String
  correlationId : String
  unavailable : Bool

structure Guard where
  version : String
  operations : List CompiledOperation

section Checking

variable (g : Guard) (ctx : Context) (stage : String)

def record (id : String) (allowed : Bool) (reason : Reason) (revision : Nat) : AuditEvent :=
  { correlationId := ctx.correlationId, tenantId := ctx.tenantId, subject := ctx.subject,
    rootOperation := if ctx.root = "" then id else ctx.root, operation := id, stage, allowed,
      reason,
    sourceVersion := revision, mappingVersion := g.version }

def fail (id : String) (reason : Reason) (revision : Nat) (unavailable : Bool) :
    AuditEvent × Except Failure Unit :=
  (record g ctx stage id false reason revision,
    .error ⟨reason, id, ctx.correlationId, unavailable⟩)

def readerReason : ReaderErr → Reason
  | .retryRequired | .transient => .retryRequired
  | .stale => .snapshotStale
  | .stateLost => .authorityStateLost
  | .other => .sourceUnavailable

/-- The first decision on a capability. -/
def decisionOn (result : Result) (code : String) : Option Entitlement.Decision :=
  result.decisions.find? fun d => d.kind = .capability ∧ d.key = code

/-- The loop over the required capabilities: the reason of the first that is not allowed. -/
def refusal (result : Result) : List String → Option Entitlement.Reason
  | [] => none
  | code :: rest =>
    match decisionOn result code with
    | none => some .moduleNotEntitled
    | some d => if d.allowed then refusal result rest else some d.reason

def check (reader : Reader) (o : CompiledOperation) : AuditEvent × Except Failure Unit :=
  if o.classification ≠ .tenantBusiness then
    (record g ctx stage o.operationId true .explicitCommercialExemption 0, .ok ())
  else
    let required := sorted o.alwaysRequiredCapabilityCodes
    match reader required with
    | .error error => fail g ctx stage o.operationId (readerReason error) 0 true
    | .ok result =>
      if result.tenantId ≠ ctx.tenantId then
        fail g ctx stage o.operationId .contextInvalid 0 true
      else
        match refusal result required with
        | some reason =>
          fail g ctx stage o.operationId (.decision reason) result.sourceVersion false
        | none =>
          (record g ctx stage o.operationId true (.decision .allowed) result.sourceVersion, .ok ())

end Checking

section Admission

variable {g : Guard} {ctx : Context} {stage : String} {reader : Reader} {o : CompiledOperation}
  {result : Result}

/-- A result allows a capability. -/
def Allows (result : Result) (code : String) : Prop :=
  ∃ d, decisionOn result code = some d ∧ d.allowed = true

theorem refusal_none {codes : List String} :
    refusal result codes = none ↔ ∀ code ∈ codes, Allows result code := by
  induction codes with
  | nil => simp [refusal]
  | cons code rest ih =>
    rw [List.forall_mem_cons, ← ih, refusal]
    cases found : decisionOn result code with
    | none => simp [Allows, found]
    | some d =>
      by_cases allowed : d.allowed = true
      · simp [Allows, found, allowed]
      · simp [Allows, found, allowed]

/-- A tenant operation is admitted exactly when the answer of the reader is for the tenant and
allows everything that the operation needs. -/
theorem check_ok (business : o.classification = .tenantBusiness) :
    (check g ctx stage reader o).2 = .ok () ↔
      ∃ result, reader (sorted o.alwaysRequiredCapabilityCodes) = .ok result ∧
        result.tenantId = ctx.tenantId ∧
        ∀ code ∈ o.alwaysRequiredCapabilityCodes, Allows result code := by
  rw [check, if_neg (not_not.mpr business)]
  dsimp only
  cases reader (sorted o.alwaysRequiredCapabilityCodes) with
  | error error => simp [fail]
  | ok result =>
    dsimp only
    by_cases tenant : result.tenantId = ctx.tenantId
    · have loop : refusal result (sorted o.alwaysRequiredCapabilityCodes) = none ↔ _ := refusal_none
      cases refused : refusal result (sorted o.alwaysRequiredCapabilityCodes) with
      | some reason =>
        rw [refused] at loop
        simpa [tenant, fail] using loop
      | none =>
        rw [refused] at loop
        simpa [tenant] using loop
    · simp [tenant, fail]

end Admission

section Compiled

variable {plans : Plans} {manifest : Manifest} {declaration : Declaration}
  {lookup : Option LookupModule} {d : Document}

/-- An accepted compilation lists the planned operations once, in the order of their ids; no
operation reaches itself; every operation lists the capabilities of what it always reaches; and
the order of the plan, of the declaration and of the children does not matter. A guard that
admits a tenant operation under some result admits the tenant operations that it always
reaches under the same result. -/
theorem compiled_closure (accepted : compile plans manifest declaration lookup = .ok d) :
    d.operations.map (·.operationId) = sorted (plans.operations.map (·.id)) ∧
    (d.operations.map (·.operationId)).Pairwise (· < ·) ∧
    (∀ id, ¬Relation.TransGen d.Calls id id) ∧
    (∀ o ∈ d.operations, o.alwaysRequiredCapabilityCodes.Pairwise (· < ·) ∧
      ∀ code, code ∈ o.alwaysRequiredCapabilityCodes ↔ ∃ reached ∈ d.operations,
        Relation.ReflTransGen d.AlwaysCalls o.operationId reached.operationId ∧
          code ∈ reached.requiredCapabilityCodes) ∧
    (∀ ops' ms', plans.operations.Perm ops' → Reordered declaration.operations ms' →
      compile { plans with operations := ops' } manifest { declaration with operations := ms' }
        lookup = .ok d) ∧
    ∀ g ctx stage reader result, ∀ root ∈ d.operations, root.classification = .tenantBusiness →
      reader (sorted root.alwaysRequiredCapabilityCodes) = .ok result →
      (check g ctx stage reader root).2 = .ok () →
      ∀ o ∈ d.operations, o.classification = .tenantBusiness →
        Relation.ReflTransGen d.AlwaysCalls root.operationId o.operationId →
        ∀ stage' reader', reader' (sorted o.alwaysRequiredCapabilityCodes) = .ok result →
          (check g ctx stage' reader' o).2 = .ok () := by
  obtain ⟨_, built⟩ := built_of_compile accepted
  have closed : ∀ o ∈ d.operations, o.alwaysRequiredCapabilityCodes.Pairwise (· < ·) ∧
      ∀ code, code ∈ o.alwaysRequiredCapabilityCodes ↔ ∃ reached ∈ d.operations,
        Relation.ReflTransGen d.AlwaysCalls o.operationId reached.operationId ∧
          code ∈ reached.requiredCapabilityCodes := by
    intro o member
    obtain ⟨-, -, exact', -⟩ := built.of_mem member
    exact ⟨exact'.ordered, fun code => (exact'.needed code).trans built.needs_iff⟩
  refine ⟨built.ids_eq, built.ids_eq ▸ built.ordered, built.acyclic, closed, ?_, ?_⟩
  · intro ops' ms' perm reordered
    exact compile_reordered accepted perm reordered
  · intro g ctx stage reader result root member business answer admitted o member' business' path
      stage' reader' answer'
    obtain ⟨_, same, tenant, allowed⟩ := (check_ok business).mp admitted
    rw [answer] at same
    cases same
    refine (check_ok business').mpr ⟨result, answer', tenant, fun code needed => allowed code ?_⟩
    -- What the operation reaches, its root reaches through it.
    obtain ⟨reached, present, further, required⟩ := ((closed o member').2 code).mp needed
    exact ((closed root member).2 code).mpr ⟨reached, present, path.trans further, required⟩

/-- An operation of the sample; only the root has a transport binding. -/
def sampleOperation (id rpc : String) (requires : List String) : Operation :=
  { id, domain := "device", application := "devices", requires
    security := { tenantRequired := true, permissions := [], permissionMode := "all",
                  authentication := ["session"] }
    bindings := { rpc, http := [] } }

/-- A root that always reads and sometimes audits. -/
def samplePlans : Plans :=
  ⟨2, [sampleOperation "device.sync" "/device.Devices/Sync" ["device.audit", "device.read"],
    sampleOperation "device.read" "" [], sampleOperation "device.audit" "" []]⟩

def sampleManifest : Manifest :=
  ⟨3, [{ fullName := "device.Devices", domain := "device",
         methods := [⟨"Sync", ⟨"device.sync", true, ["device.read", "device.audit"]⟩, []⟩]
         application := ⟨"devices", [⟨"device.read", true, []⟩, ⟨"device.audit", true, []⟩]⟩ }]⟩

def sampleMapping (operationId code : String) (children : List Child) : Mapping :=
  { operationId, classification := .tenantBusiness, moduleCode := "device", capabilityCodes :=
    [code],
    children }

def sampleDeclaration : Declaration :=
  ⟨1, "1", [], [sampleMapping "device.read" "device.view" [],
    sampleMapping "device.audit" "device.trace" [],
    sampleMapping "device.sync" "device.sync"
      [⟨"device.read", .always, "", "sync.go#Sync"⟩,
        ⟨"device.audit", .conditional, "when traced", "sync.go#Sync"⟩]]⟩

def sampleLookup : LookupModule := fun code =>
  if code = "device" then some ["device.view", "device.trace", "device.sync"] else none

/-- The root needs the capability of what it reads and not that of the audit. -/
theorem compiled_closure_sample :
    ∃ d, compile samplePlans sampleManifest sampleDeclaration (some sampleLookup) = .ok d ∧
      d.operations.map (·.operationId) = ["device.audit", "device.read", "device.sync"] ∧
      d.operations.map (·.alwaysRequiredCapabilityCodes) =
        [["device.trace"], ["device.view"], ["device.sync", "device.view"]] ∧
      ∀ id, ¬Relation.TransGen d.Calls id id := by
  have closures :
      ((compile samplePlans sampleManifest sampleDeclaration (some sampleLookup)).map fun d =>
        d.operations.map (·.alwaysRequiredCapabilityCodes)) =
        .ok [["device.trace"], ["device.view"], ["device.sync", "device.view"]] := by
    decide +kernel
  cases accepted : compile samplePlans sampleManifest sampleDeclaration (some sampleLookup) with
  | error failure =>
    rw [accepted] at closures
    cases closures
  | ok d =>
    obtain ⟨ids, -, acyclic, -⟩ := compiled_closure accepted
    rw [accepted] at closures
    exact ⟨d, rfl, ids.trans (by decide +kernel), Except.ok.inj closures, acyclic⟩

end Compiled

end Biz.Enforcement
