import Biz.Library.Codec
import Biz.Library.Table
import Biz.Entitlement.Resolve

/-!
# Stored entitlement views

The source repository of `persistence/entitlement.go`, the snapshot store of
`persistence/entitlement_snapshot.go` and the checks of `domain/snapshot`. Every
function is one transaction on the tables; one that returns an error is rolled back.
The catalogue row and the state row of the tenant are locked first, so transactions
of one tenant, and those that change the catalogue, take place one after the other.

Identifiers compare as exact strings. `encoding/json` is a codec for sources and one
for results, and the text of the inputs is an arbitrary partial function; `digest` is
the hexadecimal SHA-256 of a text. A cache is an arbitrary lookup of bytes by key.
-/

namespace Biz.Snapshot

open Time Checks Entitlement

/-- Errors of the store; those of the entitlement package and of JSON are passed on. -/
inductive Err
  | stale | invalid | stateLost | conflict | duplicateKey | json
  | entitlement (error : Entitlement.Err)
  deriving DecidableEq

structure StateRow where
  tenantId : String
  version : Nat

structure SourceRow where
  tenantId : String
  id : String
  moduleCode : String
  version : Nat
  payload : String

def SourceRow.key (row : SourceRow) : String × String := (row.tenantId, row.id)

structure Head where
  tenantId : String
  version : Nat
  sourceVersion : Nat
  catalogRevision : Nat
  inputHash : String
  payloadSha256 : String
  invalidated : Bool

structure Row where
  tenantId : String
  version : Nat
  payload : String
  payloadSha256 : String
  createdAt : Instant
  deriving DecidableEq

def Row.key (row : Row) : String × Nat := (row.tenantId, row.version)

/-- The tables; `catalog` is what the module catalogue projects from its own ones. -/
structure Store where
  catalogVersion : Option Nat
  catalog : Catalog
  states : Table StateRow.tenantId
  sources : Table SourceRow.key
  heads : Table Head.tenantId
  snapshots : Table Row.key

/-- The encodings that the store depends on. -/
structure Encoding where
  sources : Codec Source
  results : Codec Result
  inputs : Catalog → List Source → Option String
  digest : String → String

/-- A cache that is missing, or the bytes it returns for a key. -/
abbrev Cache := Option (String → Option String)

def maxUint64 : Nat := 2 ^ 64 - 1

/-- The database time `UTC_TIMESTAMP(6)`, which is after year one. -/
structure DatabaseTime where
  instant : Instant
  positive : 0 < instant

section Sources

variable (E : Encoding)

def lockCatalog (store : Store) : Except Err Nat := do
  let version ← found .stateLost store.catalogVersion
  require .stateLost (version ≠ 0)
  return version

def advanceCatalog (store : Store) : Except Err Store := do
  let version ← found .stateLost store.catalogVersion
  require .stateLost (version < maxUint64)
  return { store with catalogVersion := some (version + 1) }

variable (tenant : String)

/-- The source of one row, with the checks of its columns. -/
def decodeSource (row : SourceRow) : Except Err Source := do
  let source ← found .json (E.sources.decode row.payload)
  require (.entitlement .scope) (source.moduleCode = row.moduleCode ∧ source.tenantId = tenant ∧
    source.id = row.id ∧ source.version = row.version ∧
    (source.sourceKind = .override ∨ source.sourceKind = .plan ∨ source.sourceKind = .addon))
  source.validateShape.mapError .entitlement
  return source

/-- The rows of a tenant in the order of their identity. -/
def Store.rowsOf (store : Store) (tenant : String) : List SourceRow :=
  (store.sources.rows.filter fun row => row.tenantId = tenant).insertionSort fun a b => a.id ≤ b.id

def decodeSources (rows : List SourceRow) : Except Err (List Source) :=
  rows.mapM (decodeSource E tenant)

/-- The state row of a tenant. A missing one is created unless a source or a snapshot
of the tenant has survived it. -/
def lockState (store : Store) : Except Err (Nat × Store) :=
  match store.states.find? tenant with
  | some state => .ok (state.version, store)
  | none => do
    require .stateLost (¬∃ row ∈ store.sources.rows, row.tenantId = tenant)
    require .stateLost (¬∃ row ∈ store.snapshots.rows, row.tenantId = tenant)
    let states ← found .duplicateKey (store.states.insert? ⟨tenant, 0⟩)
    return (0, { store with states })

/-- `Lock`: the version and the sources of a tenant. -/
def lock (store : Store) : Except Err (Nat × List Source × Store) := do
  let _ ← lockCatalog store
  let (version, store) ← lockState tenant store
  let sources ← decodeSources E tenant (store.rowsOf tenant)
  return (version, sources, store)

def insert (s : Source) (store : Store) : Except Err Store := do
  let payload ← found .json (E.sources.encode s)
  let sources ← found .duplicateKey (store.sources.insert?
    ⟨s.tenantId, s.id, s.moduleCode, s.version, payload⟩)
  return { store with sources }

/-- The columns that `Revoke` updates. -/
def SourceRow.revised (s : Source) (payload : String) (row : SourceRow) : SourceRow :=
  { row with payload, version := s.version }

theorem SourceRow.revised_key (s : Source) (payload : String) (row : SourceRow) :
    (row.revised s payload).key = row.key := rfl

def revoke (s : Source) (expected : Nat) (store : Store) : Except Err Store := do
  let payload ← found .json (E.sources.encode s)
  let row ← found (.conflict) (store.sources.find? (s.tenantId, s.id))
  require .conflict (row.version = expected)
  return { store with
    sources := store.sources.update (s.tenantId, s.id) (SourceRow.revised s payload)
      (SourceRow.revised_key s payload) }

def StateRow.advanced (row : StateRow) : StateRow := { row with version := row.version + 1 }

theorem StateRow.advanced_tenantId (row : StateRow) : row.advanced.tenantId = row.tenantId := rfl

def Head.invalid (head : Head) : Head := { head with invalidated := true }

theorem Head.invalid_tenantId (head : Head) : head.invalid.tenantId = head.tenantId := rfl

/-- `Advance`: the next version of the sources of a tenant; its view is invalid. -/
def advance (expected : Nat) (store : Store) : Except Err Store := do
  require .conflict (expected ≠ maxUint64)
  let state ← found .conflict (store.states.find? tenant)
  require .conflict (state.version = expected)
  return { store with
    states := store.states.update tenant StateRow.advanced StateRow.advanced_tenantId
    heads := store.heads.update tenant Head.invalid Head.invalid_tenantId }

/-- A write of the sources of a tenant. -/
inductive SourceWrite
  | insert (source : Source)
  | revoke (source : Source) (expected : Nat)

def SourceWrite.tenantId : SourceWrite → String
  | .insert source => source.tenantId
  | .revoke source _ => source.tenantId

def SourceWrite.apply (store : Store) : SourceWrite → Except Err Store
  | .insert source => Snapshot.insert E source store
  | .revoke source expected => Snapshot.revoke E source expected store

/-- A transaction that writes sources of a tenant: it locks the tenant, writes and
advances the version that it has locked. -/
def writeSources (writes : List SourceWrite) (store : Store) : Except Err Store := do
  let (version, _, store) ← lock E tenant store
  let store ← writes.foldlM (SourceWrite.apply E) store
  advance tenant version store

/-- A transaction that changes the module catalogue. -/
def writeCatalog (catalog : Catalog) (store : Store) : Except Err Store := do
  let _ ← lockCatalog store
  advanceCatalog { store with catalog }

end Sources

section Views

variable (E : Encoding)

/-- `ValidAt`. -/
def validAt (r : Result) (now : Instant) : Bool :=
  r.evaluatedAt ≤ now && r.validUntil.all fun until_ => now < until_

/-- `Decode`: a stored view with its stamps. -/
def decodeView (payload : String) (tenant : String) (version source catalog : Nat) (digest : String)
    (now : Instant) : Except Err Result := do
  require .invalid (E.digest payload = digest)
  let r ← found .invalid (E.results.decode payload)
  require .invalid (r.tenantId = tenant ∧ r.entitlementVersion = version ∧ version ≠ 0 ∧
    r.sourceVersion = source ∧ r.catalogRevision = catalog ∧ r.resolverVersion = 1 ∧
    r.permissionVersion = "" ∧ r.permissionSubject = "")
  require .stale (validAt r now)
  return r

/-- `Requested`: unknown keys are appended as denials. -/
def requestedKeys : List String → List String → List Decision
  | _, [] => []
  | seen, key :: rest =>
    if key ∈ seen then requestedKeys seen rest
    else unknownDecision key :: requestedKeys (key :: seen) rest

def requested (r : Result) (keys : List String) : Result :=
  let seen := (r.decisions.filter fun d => d.kind = .capability).map (·.key)
  { r with decisions := r.decisions ++ requestedKeys seen keys }

def cacheKey (tenant : String) (version : Nat) (digest : String) : String :=
  tenant ++ "/" ++ toString version ++ "/" ++ digest

variable (cache : Cache)

/-- The bytes that a cache returns, if any. -/
def Cache.get (key : String) : Option String :=
  match cache with
  | none => none
  | some lookup => (lookup key).filter fun bytes => bytes ≠ ""

def Head.view (h : Head) (payload : String) (now : Instant) : Except Err Result :=
  decodeView E payload h.tenantId h.version h.sourceVersion h.catalogRevision h.payloadSha256 now

/-- The view of a head: from the cache if its bytes pass all checks, or from the row. -/
def decode (h : Head) (row : Row) (now : Instant) : Except Err Result := do
  require .invalid (row.tenantId = h.tenantId ∧ row.version = h.version ∧
    row.payloadSha256 = h.payloadSha256)
  match cache.get (cacheKey h.tenantId h.version h.payloadSha256) with
  | none => h.view E row.payload now
  | some bytes =>
    match h.view E bytes now with
    | .ok r => .ok r
    | .error _ => h.view E row.payload now

/-- The newest snapshot row of a tenant. -/
def Store.latest (store : Store) (tenant : String) : Option Row :=
  ((store.snapshots.rows.filter fun row => row.tenantId = tenant).insertionSort
    fun a b => b.version ≤ a.version).head?

def readSnapshotCatalog (store : Store) : Except Err Catalog := do
  store.catalog.validate.mapError .entitlement
  return store.catalog

/-- The stored view, if it is current and still valid. -/
def reuse (head : Option Head) (latest : Option Row) (version epoch : Nat)
    (input : String) (now : Instant) : Except Err (Option Result) :=
  match head, latest with
  | some h, some row =>
    if !h.invalidated ∧ h.sourceVersion = version ∧ h.catalogRevision = epoch ∧
        h.inputHash = input then
      match decode E cache h row now with
      | .ok r => .ok (some r)
      | .error .stale => .ok none
      | .error error => .error error
    else .ok none
  | _, _ => .ok none

/-- The columns that a new view changes in the head. -/
def Head.moved (next head : Head) : Head := { next with tenantId := head.tenantId }

theorem Head.moved_tenantId (next head : Head) : (next.moved head).tenantId = head.tenantId := rfl

/-- Insert or update the head of a tenant. -/
def saveHead (next : Head) (store : Store) : Except Err Store :=
  match store.heads.find? next.tenantId with
  | none => do
    let heads ← found .duplicateKey (store.heads.insert? next)
    return { store with heads }
  | some _ =>
    return { store with
      heads := store.heads.update next.tenantId next.moved next.moved_tenantId }

/-- Evaluate the sources and store the view under the next version. -/
def rebuild (tenant : String) (version epoch : Nat) (catalog : Catalog) (sources : List Source)
    (input : String) (now : Instant) (store : Store) : Except Err (Result × Store) := do
  let current := (store.heads.find? tenant).elim 0 (·.version)
  require .stateLost (current ≠ maxUint64)
  let fresh ← (resolve tenant version now catalog sources []).mapError .entitlement
  let result := { fresh with entitlementVersion := current + 1, catalogRevision := epoch }
  let payload ← found .json (E.results.encode result)
  let snapshots ← found .duplicateKey (store.snapshots.insert?
    ⟨tenant, current + 1, payload, E.digest payload, now⟩)
  let store ← saveHead
    { tenantId := tenant, version := current + 1, sourceVersion := version,
      catalogRevision := epoch, inputHash := input, payloadSha256 := E.digest payload,
      invalidated := false } { store with snapshots }
  return (result, store)

/-- The stamps of a stored head against the current ones. -/
def stamped (head : Option Head) (latest : Option Row) (version epoch : Nat) : Prop :=
  match head, latest with
  | none, none => True
  | some h, some row => h.version = row.version ∧ h.sourceVersion ≤ version ∧
      h.catalogRevision ≤ epoch
  | _, _ => False

instance (head : Option Head) (latest : Option Row) (version epoch : Nat) :
    Decidable (stamped head latest version epoch) := by
  unfold stamped
  split <;> infer_instance

def locked (tenant : String) (now : DatabaseTime) (store : Store) :
    Except Err (Result × Store) := do
  let epoch ← lockCatalog store
  let (version, sources, store) ← lock E tenant store
  let catalog ← readSnapshotCatalog store
  let text ← found .json (E.inputs catalog sources)
  let input := E.digest text
  let head := store.heads.find? tenant
  let latest := store.latest tenant
  require .stateLost (stamped head latest version epoch)
  let stored ← reuse E cache head latest version epoch input now.instant
  match stored with
  | some result => return (result, store)
  | none => rebuild E tenant version epoch catalog sources input now.instant store

/-- The row that the one statement of the read-only path joins. -/
structure Joined where
  head : Head
  payload : String
  currentSource : Nat
  currentCatalog : Nat

def joined (tenant : String) (store : Store) : Option Joined := do
  let head ← store.heads.find? tenant
  let row ← store.snapshots.find? (head.tenantId, head.version)
  let state ← store.states.find? head.tenantId
  let catalog ← store.catalogVersion
  if row.payloadSha256 = head.payloadSha256 then
    some ⟨head, row.payload, state.version, catalog⟩
  else none

def readOnly (tenant : String) (keys : List String) (now : DatabaseTime) (store : Store) :
    Except Err Result := do
  let row ← found .stale (joined tenant store)
  require .stale (¬row.head.invalidated ∧ row.head.sourceVersion = row.currentSource ∧
    row.head.catalogRevision = row.currentCatalog)
  let result ← decodeView E row.payload tenant row.head.version row.head.sourceVersion
    row.head.catalogRevision row.head.payloadSha256 now.instant
  return requested result keys

end Views

end Biz.Snapshot
