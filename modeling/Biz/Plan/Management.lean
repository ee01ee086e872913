import Biz.Library.Codec
import Biz.Library.Table
import Biz.Plan.Projection

/-!
# Plan management

The commands of `planmanagement` and the plan repository of `persistence/plan.go`. A command
checks its caller and its request, reads the catalogue, and then works in one transaction: it
locks the head of the plan, answers a request that was served before from its receipt, and
otherwise prepares a version, saves it and stores a receipt.

The repository guards itself a second time: `save` checks the revisions, the states and the
content hash of what it is given. `encoding/json` is a codec for versions, the fingerprint
of a request an arbitrary partial function, and the answers of the catalogue capability and
the database clock are whatever a call meets. Audit rows and the rows that list the modules
and features of a version are left out; nothing here reads them.
-/

namespace Biz.Plan

open Time Checks

namespace Management

/-- The errors of the commands; those of terms and versions are passed on. -/
inductive Err
  | conflict | requestConflict | notFound | immutable | scope
  | plan (error : Plan.Err)
  | capability | json | duplicateKey
  deriving DecidableEq

structure PlanRow where
  planCode : String
  revision : Nat
  latestVersion : Nat
  deriving DecidableEq

structure VersionRow where
  planCode : String
  version : Nat
  revision : Nat
  state : VersionState
  contentSha256 : String
  payload : String

def VersionRow.key (row : VersionRow) : String × Nat := (row.planCode, row.version)

structure ReceiptRow where
  planCode : String
  requestId : String
  fingerprint : String
  payload : String

def ReceiptRow.key (row : ReceiptRow) : String × String := (row.planCode, row.requestId)

structure Store where
  plans : Table PlanRow.planCode
  versions : Table VersionRow.key
  receipts : Table ReceiptRow.key

inductive Operation
  | create | clone | update | publish | retire
  deriving DecidableEq

/-- The requests of the five commands. -/
inductive Request
  | createPlanDraft (requestId planCode name : String) (terms : Option PlanTerms) (reason : String)
  | createPlanVersion (requestId planCode : String) (fromVersion expectedPlanRevision : Nat)
      (reason : String)
  | updatePlanDraft (requestId planCode : String) (version expectedRevision : Nat) (name : String)
      (terms : Option PlanTerms) (reason : String)
  | publishPlanVersion (requestId planCode : String) (version expectedRevision : Nat)
      (reason : String)
  | retirePlanVersion (requestId planCode : String) (version expectedRevision : Nat)
      (reason : String)

structure Command where
  operation : Operation
  key : String
  code : String
  name : String := ""
  reason : String
  number : Nat := 0
  expected : Nat := 0
  terms : Option PlanTerms := none

def Request.command : Request → Command
  | .createPlanDraft requestId planCode name terms reason =>
    { operation := .create, key := requestId, code := planCode, name, terms, reason }
  | .createPlanVersion requestId planCode fromVersion expectedPlanRevision reason =>
    { operation := .clone, key := requestId, code := planCode, number := fromVersion,
      expected := expectedPlanRevision, reason }
  | .updatePlanDraft requestId planCode version expectedRevision name terms reason =>
    { operation := .update, key := requestId, code := planCode, number := version,
      expected := expectedRevision, name, terms, reason }
  | .publishPlanVersion requestId planCode version expectedRevision reason =>
    { operation := .publish, key := requestId, code := planCode, number := version,
      expected := expectedRevision, reason }
  | .retirePlanVersion requestId planCode version expectedRevision reason =>
    { operation := .retire, key := requestId, code := planCode, number := version,
      expected := expectedRevision, reason }

structure Encoding where
  versions : Codec Version
  digest : String → Terms → String
  fingerprint : String → Request → Option String

structure Principal where
  authenticated : Bool
  subject : String
  tenantId : String

structure Feature where
  featureCode : String
  published : Bool
  sellable : Bool

/-- What a call meets outside the tables; a capability that fails has no answer. -/
structure Surroundings where
  principal : Option Principal
  readPlanCatalog : Option Catalog
  readPlanFeatureCatalog : Option (List Feature)
  now : Instant

def maxUint64 : Nat := 2 ^ 64 - 1

def actor (principal : Option Principal) : Except Err String := do
  let p ← found .scope principal
  require .scope (p.authenticated ∧ p.subject ≠ "" ∧ p.subject.utf8ByteSize ≤ 200 ∧ p.tenantId = "")
  return p.subject

def readCatalog (around : Surroundings) : Except Err Catalog := do
  let catalog ← found .capability around.readPlanCatalog
  (Entitlement.Catalog.validate (catalog.map (·.toModuleDefinition))).mapError
    fun _ => .plan .catalog
  return catalog

def validatePlanFeatures (around : Surroundings) (terms : Terms) : Except Err Unit :=
  if terms.featureCodes = [] then .ok ()
  else do
    let features ← found (.plan .catalog) around.readPlanFeatureCatalog
    require (.plan .catalog) (∀ code ∈ terms.featureCodes,
      ∃ feature ∈ features, feature.featureCode = code ∧ feature.published ∧ feature.sellable)

section Repository

variable (E : Encoding)

/-- `Lock`: the head of a plan, which is created when it is missing. -/
def lock (code : String) (store : Store) : Except Err (PlanRow × Store) :=
  match store.plans.find? code with
  | some head => .ok (head, store)
  | none => do
    let plans ← found .duplicateKey (store.plans.insert? ⟨code, 0, 0⟩)
    return (⟨code, 0, 0⟩, { store with plans })

def decodePlan (row : VersionRow) : Except Err Version := do
  let v ← found (.plan .corrupt) (E.versions.decode row.payload)
  require (.plan .corrupt) (v.planCode = row.planCode ∧ v.number = row.version ∧
    v.revision = row.revision ∧ v.state = row.state ∧ v.contentSha256 = row.contentSha256)
  (v.integrity E.digest).mapError .plan
  return v

def get (code : String) (number : Nat) (store : Store) : Except Err Version := do
  let head ← found .notFound (store.plans.find? code)
  let row ← found .notFound (store.versions.find? (code, number))
  let v ← decodePlan E row
  require (.plan .corrupt) (v.planRevision ≤ head.revision)
  return { v with planRevision := head.revision }

/-- The version that a request has stored before. -/
def receipt (code key hash : String) (store : Store) : Except Err (Option Version) :=
  match store.receipts.find? (code, key) with
  | none => .ok none
  | some row => do
    require .requestConflict (row.fingerprint = hash)
    let out ← found (.plan .corrupt) (E.versions.decode row.payload)
    require (.plan .corrupt) (out.planCode = code)
    (out.integrity E.digest).mapError .plan
    return some out

/-- The columns that an update writes. -/
def VersionRow.revised (next row : VersionRow) : VersionRow :=
  { next with planCode := row.planCode, version := row.version }

theorem VersionRow.revised_key (next row : VersionRow) : (next.revised row).key = row.key := rfl

def PlanRow.advanced (latest : Nat) (row : PlanRow) : PlanRow :=
  { row with revision := row.revision + 1, latestVersion := latest }

theorem PlanRow.advanced_planCode (latest : Nat) (row : PlanRow) :
    (row.advanced latest).planCode = row.planCode := rfl

/-- The guards of `Save`. -/
def checkSave (head : PlanRow) (before : Option Version) (v : Version) : Except Err Unit := do
  (v.integrity E.digest).mapError .plan
  require .conflict (head.planCode = v.planCode ∧ head.revision ≠ maxUint64 ∧
    v.planRevision = head.revision + 1)
  match before with
  | some before => do
    require .conflict (before.revision ≠ maxUint64 ∧ v.revision = before.revision + 1)
    require .immutable (before.state = .draft ∨ (before.state = .published ∧ v.state = .retired ∧
      before.contentSha256 = v.contentSha256))
  | none =>
    require .conflict (head.latestVersion ≠ maxUint64 ∧ v.number = head.latestVersion + 1 ∧
      v.revision = 1 ∧ v.state = .draft)

/-- Write the row of a version: insert a new one, or update one that is as it was read. -/
def saveVersion (before : Option Version) (row : VersionRow) (store : Store) : Except Err Store :=
  match before with
  | none => do
    let versions ← found .duplicateKey (store.versions.insert? row)
    return { store with versions }
  | some before => do
    let stored ← found .conflict (store.versions.find? row.key)
    require .conflict (stored.revision = before.revision ∧ stored.state = before.state)
    return { store with
      versions := store.versions.update row.key row.revised row.revised_key }

def save (head : PlanRow) (before : Option Version) (v : Version) (store : Store) :
    Except Err Store := do
  checkSave E head before v
  let payload ← found .json (E.versions.encode v)
  let store ← saveVersion before
    ⟨v.planCode, v.number, v.revision, v.state, v.contentSha256, payload⟩ store
  let stored ← found .conflict (store.plans.find? head.planCode)
  require .conflict (stored.revision = head.revision)
  return { store with
    plans := store.plans.update head.planCode (PlanRow.advanced (max head.latestVersion v.number))
      (PlanRow.advanced_planCode _) }

/-- The receipt that `Complete` stores. -/
def complete (key hash : String) (v : Version) (store : Store) : Except Err Store := do
  let payload ← found .json (E.versions.encode v)
  let receipts ← found .duplicateKey (store.receipts.insert? ⟨v.planCode, key, hash, payload⟩)
  return { store with receipts }

end Repository

section Commands

variable (E : Encoding)

/-- What an operation on a stored version makes of it. -/
def changed (c : Command) (now : Instant) (current : Version) : Except Err Version :=
  let v := { current with revision := current.revision + 1 }
  match c.operation with
  | .update => do
    require .immutable (current.state = .draft)
    let terms ← (fromTerms c.terms).mapError .plan
    return { v with name := c.name, terms }
  | .publish => do
    require .immutable (current.state = .draft)
    return { v with state := .published, publishedAt := some now }
  | .retire => do
    require .immutable (current.state = .published)
    return { v with state := .retired, retiredAt := some now }
  | _ => .error (.plan .invalid)

/-- A draft, before the fields that every operation fills in. -/
def newDraft (code : String) (number : Nat) (name : String) (terms : Terms) (now : Instant) :
    Version :=
  { planCode := code, number, revision := 1, planRevision := 0, state := .draft, name, terms,
    contentSha256 := "", createdAt := now, publishedAt := none, retiredAt := none, actorId := "",
    reason := "" }

/-- The switch over the operations: the stored version, if there is one, and the new one. -/
def prepare (c : Command) (head : PlanRow) (now : Instant) (store : Store) :
    Except Err (Option Version × Version) :=
  match c.operation with
  | .create => do
    require .conflict (head.latestVersion = 0)
    let terms ← (fromTerms c.terms).mapError .plan
    return (none, newDraft c.code 1 c.name terms now)
  | .clone => do
    require .conflict (c.expected ≠ 0 ∧ head.revision = c.expected)
    let previous ← get E c.code c.number store
    require .immutable (previous.state ≠ .draft)
    return (none, newDraft c.code (head.latestVersion + 1) previous.name previous.terms.canonical
      now)
  | _ => do
    let current ← get E c.code c.number store
    require .conflict (c.expected ≠ 0 ∧ current.revision = c.expected ∧
      current.revision ≠ maxUint64)
    let v ← changed c now current
    return (some current, v)

/-- A plan can be retired whatever the catalogue says of its terms. -/
def checkTerms (operation : Operation) (terms : Terms) (catalog : Catalog) : Except Err Unit :=
  if operation = .retire then .ok () else (terms.validate catalog).mapError .plan

/-- The checks and the fields that all operations share. -/
def sealed (around : Surroundings) (c : Command) (subject : String) (catalog : Catalog)
    (head : PlanRow) (v : Version) : Except Err Version := do
  require (.plan .invalid) (Text.trimSpace v.name ≠ "" ∧ v.name.utf8ByteSize ≤ 160)
  checkTerms c.operation v.terms catalog
  let terms := v.terms.canonical
  validatePlanFeatures around terms
  return { v with
    terms, contentSha256 := hash E.digest v.name terms, actorId := subject, reason := c.reason,
    planRevision := head.revision + 1 }

/-- The part of `mutate` that serves a new request. -/
def serve (around : Surroundings) (c : Command) (subject hash : String) (catalog : Catalog)
    (head : PlanRow) (store : Store) : Except Err (Version × Store) := do
  require .conflict (head.revision ≠ maxUint64 ∧ head.latestVersion ≠ maxUint64)
  let (before, v) ← prepare E c head around.now store
  let v ← sealed E around c subject catalog head v
  let store ← save E head before v store
  let store ← complete E c.key hash v store
  return (v, store)

/-- The checks of a command before its transaction: the actor, the fingerprint and the
catalogue. -/
def admitted (around : Surroundings) (request : Request) :
    Except Err (String × String × Catalog) := do
  let c := request.command
  let subject ← actor around.principal
  require (.plan .invalid) (code c.code ∧ Text.key c.key ∧ Text.trimSpace c.reason ≠ "" ∧
    c.reason.utf8ByteSize ≤ 512)
  let hash ← found (.plan .invalid) (E.fingerprint subject request)
  let catalog ← readCatalog around
  return (subject, hash, catalog)

def mutate (around : Surroundings) (request : Request) (store : Store) :
    Except Err (Version × Store) := do
  let c := request.command
  let (subject, hash, catalog) ← admitted E around request
  let (head, store) ← lock c.code store
  let replay ← receipt E c.code c.key hash store
  match replay with
  | some v => return (v, store)
  | none => serve E around c subject hash catalog head store

end Commands

end Management

end Biz.Plan
