import Biz.Entitlement.Resolve
import Biz.Library.Codec
import Biz.Library.Table

/-!
# The module catalogue

The commands of `modulecatalog/service.go`. Each one checks its caller and its request,
locks the row of the catalogue's version and then works in one transaction; an error rolls
the transaction back. A request that was served before is answered from its stored response,
before anything else is looked at.

The registry of definitions is an arbitrary partial function. The tables of the other
authorities that may refer to a module are one flag of the call, and so is the principal of
its context. JSON is a codec for the stored responses; the sales scope of a row is its list.
Audit rows, and columns that nothing reads, are left out.
-/

namespace Biz.ModuleCatalog

open Time Checks
open Entitlement (TechnicalStatus sortStrings)

inductive SalesStatus
  | sellable | retired
  | unrecognised (text : String)
  deriving DecidableEq

inductive Err
  | notFound | conflict | unknownDefinition | implementationUnavailable | dependencyMissing
  | referenced | codeRetired | platformPrincipalRequired | invalidRequest
  | runtimeAdmissionRequired | runtimeVerifierRequired
  | stateLost | duplicateKey | foreignKey | outOfRange | json

structure Definition where
  code : String
  capabilityCodes : List String
  quotaSchemaKeys : List String
  fieldPolicySchemaKeys : List String
  dependencies : List String
  implementationReady : Bool

abbrev Registry := String → Option Definition

structure Module where
  code : String
  name : String
  category : String
  salesScope : List String
  technicalStatus : TechnicalStatus
  salesStatus : SalesStatus
  capabilityCodes : List String
  quotaSchemaKeys : List String
  fieldPolicySchemaKeys : List String
  dependencies : List String
  version : Nat
  createdAt : Instant
  updatedAt : Instant

structure ModuleRow where
  code : String
  name : String
  category : String
  salesScope : List String
  technicalStatus : TechnicalStatus
  salesStatus : SalesStatus
  version : Nat
  createdAt : Instant
  updatedAt : Instant

structure DependencyRow where
  moduleCode : String
  dependsOn : String

def DependencyRow.key (row : DependencyRow) : String × String := (row.moduleCode, row.dependsOn)

inductive Operation
  | create | update | salesStatus | technicalStatus | delete
  deriving DecidableEq

structure IdempotencyRow where
  requestId : String
  operation : Operation
  moduleCode : String
  response : String

structure RuntimeVerificationRow where
  moduleCode : String
  moduleVersion : Nat
  evidenceDigest : String
  sourceTree : String
  actor : String

def RuntimeVerificationRow.key (row : RuntimeVerificationRow) : String × Nat :=
  (row.moduleCode, row.moduleVersion)

structure Store where
  catalogVersion : Option Nat
  modules : Table ModuleRow.code
  dependencies : Table DependencyRow.key
  retiredCodes : Table (id : String → String)
  idempotency : Table IdempotencyRow.requestId
  verifications : Table RuntimeVerificationRow.key

/-- The stored response of a deletion. -/
structure Deleted where
  moduleCode : String

structure Encoding where
  modules : Codec Module
  deleted : Codec Deleted

structure Principal where
  authenticated : Bool
  subject : String
  tenantId : String
  roles : List String
  apiKey : Bool

/-- What a call meets outside the catalogue: the principal of its context, the clock, and
whether another authority refers to the module. -/
structure Surroundings where
  principal : Option Principal
  clock : Instant
  referenced : Bool

structure CreateCommand where
  requestId : String
  code : String
  name : String
  category : String
  reason : String
  salesScope : List String

structure UpdateCommand extends CreateCommand where
  version : Nat

structure StatusCommand where
  requestId : String
  code : String
  reason : String
  version : Nat
  technical : TechnicalStatus
  sales : SalesStatus

structure DeleteCommand where
  requestId : String
  code : String
  reason : String
  version : Nat

structure RuntimeVerificationCommand where
  moduleCode : String
  evidenceDigest : String
  sourceTree : String
  moduleVersion : Nat

def maxUint64 : Nat := 2 ^ 64 - 1

/-- Trimmed, without blank and repeated values, in order. -/
def normalized (values : List String) : List String :=
  sortStrings ((values.map Text.trimSpace).filter (· ≠ "")).dedup

def rowToModule (row : ModuleRow) (d : Definition) : Module :=
  { code := row.code, name := row.name, category := row.category, salesScope := row.salesScope,
    technicalStatus := row.technicalStatus, salesStatus := row.salesStatus,
    capabilityCodes := d.capabilityCodes, quotaSchemaKeys := d.quotaSchemaKeys,
    fieldPolicySchemaKeys := d.fieldPolicySchemaKeys, dependencies := d.dependencies,
    version := row.version, createdAt := row.createdAt, updatedAt := row.updatedAt }

def platformActor (principal : Option Principal) : Except Err String := do
  let p ← found .platformPrincipalRequired principal
  require .platformPrincipalRequired (p.authenticated ∧ p.subject ≠ "" ∧ p.tenantId = "")
  return p.subject

def runtimeVerifier (principal : Option Principal) : Except Err String := do
  let p ← found .runtimeVerifierRequired principal
  require .runtimeVerifierRequired (p.authenticated ∧ "signed-service-api" ∈ p.roles ∧
    "ci-verifier:".toList <+: p.subject.toList ∧ p.tenantId = "" ∧ p.apiKey)
  return p.subject

def validWrite (requestId reason : String) : Bool :=
  Text.trimSpace requestId ≠ "" && Text.trimSpace reason ≠ ""

/-- `transact`: the catalogue is locked before the body runs. -/
def transact {Result : Type} (body : Store → Except Err (Result × Store)) (store : Store) :
    Except Err (Result × Store) := do
  let version ← found .stateLost store.catalogVersion
  require .stateLost (version ≠ 0)
  body store

def advanceCatalog (store : Store) : Except Err Store := do
  let version ← found .stateLost store.catalogVersion
  require .stateLost (version < maxUint64)
  return { store with catalogVersion := some (version + 1) }

/-- A JSON text; the error of the encoder is dropped. -/
def encode {Value : Type} (codec : Codec Value) (value : Value) : String :=
  (codec.encode value).getD ""

def saveIdempotent (requestId : String) (operation : Operation) (code response : String)
    (store : Store) : Except Err Store := do
  let idempotency ← found .duplicateKey
    (store.idempotency.insert? ⟨requestId, operation, code, response⟩)
  return { store with idempotency }

/-- The stored response to a request, which must be one to the same operation. -/
def loadIdempotent {Value : Type} (codec : Codec Value) (requestId : String)
    (operation : Operation) (code : String) (store : Store) : Except Err (Option Value) :=
  match store.idempotency.find? requestId with
  | none => .ok none
  | some row => do
    require .invalidRequest (row.operation = operation ∧ row.moduleCode = code)
    let value ← found .json (codec.decode row.response)
    return some value

section Commands

variable (registry : Registry) (E : Encoding)

def insertDependency (code : String) (dependencies : Table DependencyRow.key) (dep : String) :
    Except Err (Table DependencyRow.key) :=
  found .duplicateKey (dependencies.insert? ⟨code, dep⟩)

/-- The row of a new module, which is not on sale. -/
def newRow (c : CreateCommand) (d : Definition) (now : Instant) : ModuleRow :=
  { code := c.code, name := c.name, category := c.category,
    salesScope := normalized c.salesScope,
    technicalStatus := if d.implementationReady then .ready else .notReady,
    salesStatus := .retired, version := 1, createdAt := now, updatedAt := now }

variable (around : Surroundings)

/-- The part of `Create` that serves a new request. -/
def createModule (c : CreateCommand) (d : Definition) (store : Store) :
    Except Err (Module × Store) := do
  require .codeRetired (store.retiredCodes.find? c.code = none)
  require .dependencyMissing (∀ dep ∈ d.dependencies, store.modules.find? dep ≠ none)
  let row := newRow c d around.clock
  let modules ← found .duplicateKey (store.modules.insert? row)
  let dependencies ← d.dependencies.foldlM (insertDependency c.code) store.dependencies
  let out := rowToModule row d
  let store ← advanceCatalog { store with modules, dependencies }
  let store ← saveIdempotent c.requestId .create c.code (encode E.modules out) store
  return (out, store)

def create (c : CreateCommand) (store : Store) : Except Err (Module × Store) := do
  let _ ← platformActor around.principal
  require .invalidRequest (validWrite c.requestId c.reason ∧ Text.trimSpace c.code ≠ "" ∧
    Text.trimSpace c.name ≠ "")
  let d ← found .unknownDefinition (registry c.code)
  transact (fun store => do
    let replay ← loadIdempotent E.modules c.requestId .create c.code store
    match replay with
    | some out => return (out, store)
    | none => createModule E around c d store) store

/-- A row as a command leaves it: a new version of a module is not on sale until it is
verified again, and only a change of the sales status keeps the version. -/
def revised (operation : Operation) (row : ModuleRow) (now : Instant) : ModuleRow :=
  let row := if operation = .update ∨ operation = .technicalStatus then
    { row with salesStatus := .retired } else row
  let row := if operation ≠ .salesStatus then { row with version := row.version + 1 } else row
  { row with updatedAt := now }

theorem revised_version (operation : Operation) (row : ModuleRow) (now : Instant) :
    (revised operation row now).version =
      if operation = .salesStatus then row.version else row.version + 1 := by
  cases operation <;> rfl

/-- Only a change of the sales status leaves a module on sale. -/
theorem revised_sellable {operation : Operation} {row : ModuleRow} {now : Instant}
    (sold : (revised operation row now).salesStatus = .sellable) :
    operation ≠ .update ∧ operation ≠ .technicalStatus ∧ row.salesStatus = .sellable := by
  cases operation with
  | update => cases sold
  | technicalStatus => cases sold
  | create | salesStatus | delete => exact ⟨nofun, nofun, sold⟩

/-- The columns that an update writes. -/
def ModuleRow.written (next row : ModuleRow) : ModuleRow := { next with code := row.code }

theorem ModuleRow.written_code (next row : ModuleRow) : (next.written row).code = row.code := rfl

/-- The part of `mutate` that serves a new request. -/
def mutateModule (requestId code : String) (version : Nat)
    (operation : Operation) (requireRuntimeAdmission : Bool)
    (change : ModuleRow → Definition → Except Err ModuleRow) (d : Definition) (store : Store) :
    Except Err (Module × Store) := do
  let row ← found .notFound (store.modules.find? code)
  require .conflict (row.version = version)
  require .runtimeAdmissionRequired
    (requireRuntimeAdmission → store.verifications.find? (code, version) ≠ none)
  let changed ← change row d
  require .outOfRange (operation ≠ .salesStatus → version < maxUint64)
  let next := revised operation changed around.clock
  -- The row has the version that the statement asks for, so exactly one row is affected.
  let store := { store with
    modules := store.modules.update code next.written next.written_code }
  let out := rowToModule next d
  let store ← advanceCatalog store
  let store ← saveIdempotent requestId operation code (encode E.modules out) store
  return (out, store)

def mutate (requestId code reason : String) (version : Nat)
    (operation : Operation) (requireRuntimeAdmission : Bool)
    (change : ModuleRow → Definition → Except Err ModuleRow) (store : Store) :
    Except Err (Module × Store) := do
  let _ ← platformActor around.principal
  require .invalidRequest (validWrite requestId reason ∧ version ≠ 0)
  let d ← found .unknownDefinition (registry code)
  transact (fun store => do
    let replay ← loadIdempotent E.modules requestId operation code store
    match replay with
    | some out => return (out, store)
    | none =>
      mutateModule E around requestId code version operation requireRuntimeAdmission change d
        store) store

/-- The change of an update. -/
def renamed (c : UpdateCommand) (row : ModuleRow) (_ : Definition) : Except Err ModuleRow := do
  require .invalidRequest (Text.trimSpace c.name ≠ "")
  return { row with name := c.name, category := c.category, salesScope := normalized c.salesScope }

def update (c : UpdateCommand) (store : Store) : Except Err (Module × Store) :=
  mutate registry E around c.requestId c.code c.reason c.version .update false (renamed c) store

def setSalesStatus (c : StatusCommand) (store : Store) : Except Err (Module × Store) := do
  require .invalidRequest (c.sales = .sellable ∨ c.sales = .retired)
  mutate registry E around c.requestId c.code c.reason c.version .salesStatus
    (c.sales = .sellable) (fun row _ => .ok { row with salesStatus := c.sales }) store

/-- The change of the technical status. -/
def technicallyChanged (technical : TechnicalStatus) (row : ModuleRow) (d : Definition) :
    Except Err ModuleRow := do
  require .implementationUnavailable (¬(technical = .ready ∧ !d.implementationReady))
  return { row with technicalStatus := technical }

def setTechnicalStatus (c : StatusCommand) (store : Store) : Except Err (Module × Store) := do
  require .invalidRequest (c.technical = .notReady ∨ c.technical = .ready ∨
    c.technical = .disabled)
  mutate registry E around c.requestId c.code c.reason c.version .technicalStatus false
    (technicallyChanged c.technical) store

def recordRuntimeVerification (c : RuntimeVerificationCommand)
    (store : Store) : Except Err (Unit × Store) := do
  let actor ← runtimeVerifier around.principal
  require .invalidRequest (Text.trimSpace c.moduleCode ≠ "" ∧ c.moduleVersion ≠ 0 ∧
    c.evidenceDigest.utf8ByteSize = 64 ∧ c.sourceTree.utf8ByteSize = 64)
  require .unknownDefinition (registry c.moduleCode ≠ none)
  transact (fun store => do
    let row ← found .notFound (store.modules.find? c.moduleCode)
    require .conflict (row.version = c.moduleVersion)
    match store.verifications.find? (c.moduleCode, c.moduleVersion) with
    | some prior => do
      require .invalidRequest (prior.evidenceDigest = c.evidenceDigest ∧
        prior.sourceTree = c.sourceTree ∧ prior.actor = actor)
      return ((), store)
    | none => do
      let verifications ← found .duplicateKey (store.verifications.insert?
        ⟨c.moduleCode, c.moduleVersion, c.evidenceDigest, c.sourceTree, actor⟩)
      return ((), { store with verifications })) store

/-- The part of `Delete` that serves a new request. A verification refers to its module,
so the database refuses to delete a module that has one. -/
def deleteModule (c : DeleteCommand) (store : Store) : Except Err (Unit × Store) := do
  let row ← found .notFound (store.modules.find? c.code)
  require .conflict (row.version = c.version)
  require .referenced (∀ dependency ∈ store.dependencies.rows, dependency.dependsOn ≠ c.code)
  require .referenced (!around.referenced)
  require .foreignKey (∀ verified ∈ store.verifications.rows, verified.moduleCode ≠ c.code)
  let retiredCodes ← found .duplicateKey (store.retiredCodes.insert? c.code)
  let store ← advanceCatalog { store with
    dependencies := store.dependencies.keep fun dependency => dependency.moduleCode ≠ c.code
    modules := store.modules.keep fun row => row.code ≠ c.code
    retiredCodes }
  let store ← saveIdempotent c.requestId .delete c.code (encode E.deleted ⟨c.code⟩) store
  return ((), store)

def delete (c : DeleteCommand) (store : Store) : Except Err (Unit × Store) := do
  let _ ← platformActor around.principal
  require .invalidRequest (validWrite c.requestId c.reason ∧ c.version ≠ 0)
  require .unknownDefinition (registry c.code ≠ none)
  transact (fun store => do
    let replay ← loadIdempotent E.deleted c.requestId .delete c.code store
    match replay with
    | some _ => return ((), store)
    | none => deleteModule E around c store) store

end Commands

end Biz.ModuleCatalog
