import Biz.Library.Rfc3339
import Biz.Snapshot.History
import Biz.Snapshot.Rows

/-!
# Entitlement overrides

The commands of `entitlementmanagement` that create and revoke the overrides of a tenant.
A call checks its request outside of the transaction, locks the tenant, answers a request
that was served before from its receipt, and otherwise compares the version of the sources,
writes one source, advances the version and stores a receipt.

The answers of the two child capabilities, the clock and the random bytes are whatever a
call meets; nothing is assumed of them, and clocks may run backwards. The fingerprint of a
request is an arbitrary partial function. Audit rows are left out: nothing reads them.
-/

namespace Biz.Overrides

open Time Checks Entitlement Snapshot Runs

/-- The errors of the commands; those of the entitlement package are passed on. -/
inductive Err
  | quotaConflict | conflict | requestConflict | notFound | revoked
  | entitlement (error : Entitlement.Err)
  | capability | random | fingerprint | json | duplicateKey
  | store (error : Snapshot.Err)

def Err.ofAppend : AppendErr → Err
  | .quotaConflict => .quotaConflict
  | .entitlement error => .entitlement error

def Err.ofStore : Snapshot.Err → Err
  | .conflict => .conflict
  | .duplicateKey => .duplicateKey
  | .json => .json
  | .entitlement error => .entitlement error
  | error => .store error

inductive EntitlementTarget
  | unspecified | module | capability | quota | field
  | unrecognised (number : Int)

inductive EntitlementEffect
  | unspecified | grant | deny | quotaAdd | quotaReplace | safetyDeny | safetyMask
  | unrecognised (number : Int)

def kinds : EntitlementTarget → Option Kind
  | .module => some .module
  | .capability => some .capability
  | .quota => some .quota
  | .field => some .field
  | .unspecified | .unrecognised _ => none

def effects : EntitlementEffect → Option Effect
  | .grant => some .grant
  | .deny => some .deny
  | .quotaAdd => some .quotaAdd
  | .quotaReplace => some .quotaReplace
  | .safetyDeny => some .safetyDeny
  | .safetyMask => some .safetyMask
  | .unspecified | .unrecognised _ => none

/-- The text of the field action is read as an `Action`. -/
structure CreateRequest where
  requestId : String
  tenantId : String
  expectedVersion : Nat
  moduleCode : String
  target : EntitlementTarget
  key : String
  fieldAction : Action := .none
  effect : EntitlementEffect
  limit : Option Limit := none
  effectiveAt : String := ""
  expiresAt : String := ""
  reason : String

structure RevokeRequest where
  requestId : String
  tenantId : String
  id : String
  expectedVersion : Nat
  reason : String

inductive Request
  | create (request : CreateRequest)
  | revoke (request : RevokeRequest)

structure OverrideReceipt where
  source : Source
  sourceVersion : Nat
  deriving DecidableEq

structure ReceiptRow where
  tenantId : String
  requestId : String
  fingerprint : String
  payload : String

def ReceiptRow.key (row : ReceiptRow) : String × String := (row.tenantId, row.requestId)

structure State where
  tables : Store
  receipts : Table ReceiptRow.key

structure Encoding where
  tables : Snapshot.Encoding
  receipts : Codec OverrideReceipt
  fingerprint : String → Request → Option String

structure Principal where
  authenticated : Bool
  subject : String
  tenantId : String

/-- What a call meets outside the tables: the principal of its context, the answers of the
tenant and of the module catalogue, the clock, and random bytes in hexadecimal. -/
structure Surroundings where
  principal : Option Principal
  getTenant : Except Err (Option String)
  readEntitlementCatalog : Except Err Catalog
  clock : Instant
  random : Option String

def validWrite (key reason : String) : Bool :=
  Text.token key 128 && Text.trimSpace reason ≠ "" && reason.utf8ByteSize ≤ 512

/-- `actor` for a platform operation. -/
def actor (principal : Option Principal) : Except Err Principal := do
  let p ← found (.entitlement .scope) principal
  require (.entitlement .scope) (p.authenticated ∧ p.subject ≠ "")
  require (.entitlement .scope) (p.tenantId = "")
  return p

def checkTenant (around : Surroundings) (tenant : String) : Except Err Unit := do
  require (.entitlement .invalid) (Text.token tenant 64)
  let value ← around.getTenant
  require (.entitlement .scope) (value = some tenant)

def readCatalog (around : Surroundings) : Except Err Catalog := do
  let catalog ← around.readEntitlementCatalog
  catalog.validate.mapError .entitlement
  return catalog

def now (clock : Instant) : Instant := clock - clock % microsecond

/-- An instant of a request; the empty text stands for none. -/
def requestedInstant (text : String) : Except Err (Option Instant) :=
  if text = "" then .ok none
  else (found (.entitlement .invalid) (Rfc3339.parse text)).map some

def requestedLimit (limit : Option Limit) (kind : Kind) : Except Err Limit :=
  match limit with
  | some limit => .ok limit
  | none => if kind = .quota then .error (.entitlement .invalid) else .ok {}

def fromCreate (req : CreateRequest) (actor : String) (at_ : Instant) (newId : Option String) :
    Except Err Source := do
  let kind ← found (.entitlement .invalid) (kinds req.target)
  let effect ← found (.entitlement .invalid) (effects req.effect)
  let start ← requestedInstant req.effectiveAt
  let expires ← requestedInstant req.expiresAt
  let limit ← requestedLimit req.limit kind
  let id ← found .random newId
  let s : Source := {
    id, tenantId := req.tenantId, sourceKind := .override, moduleCode := req.moduleCode, kind,
    key := req.key, action := req.fieldAction, effect, limit, effectiveAt := start.getD at_,
    expiresAt := expires, revokedAt := none, reason := req.reason, actorId := actor, version := 1 }
  s.validateShape.mapError .entitlement
  return s

section Commands

variable (E : Encoding)

/-- The receipt of a request that was served before. -/
def receipt (tenant key hash : String) (state : State) : Except Err (Option OverrideReceipt) :=
  match state.receipts.find? (tenant, key) with
  | none => .ok none
  | some row => do
    require .requestConflict (row.fingerprint = hash)
    let receipt ← found .json (E.receipts.decode row.payload)
    require (.entitlement .scope) (receipt.source.tenantId = tenant)
    return some receipt

def saveReceipt (tenant key hash : String) (receipt : OverrideReceipt)
    (receipts : Table ReceiptRow.key) : Except Err (Table ReceiptRow.key) := do
  let payload ← found .json (E.receipts.encode receipt)
  found .duplicateKey (receipts.insert? ⟨tenant, key, hash, payload⟩)

/-- The part of `CreateEntitlementOverride` after the lock that serves a new request. -/
def appendOverride (around : Surroundings) (req : CreateRequest) (subject hash : String)
    (catalog : Catalog) (version : Nat) (sources : List Source) (state : State) :
    Except Err (OverrideReceipt × State) := do
  require .conflict (version = req.expectedVersion)
  let source ← fromCreate req subject (now around.clock) around.random
  (validateAppend sources source catalog).mapError .ofAppend
  let tables ← (Snapshot.insert E.tables source state.tables).mapError .ofStore
  let tables ← (advance source.tenantId version tables).mapError .ofStore
  let result : OverrideReceipt := ⟨source, version + 1⟩
  let receipts ← saveReceipt E source.tenantId req.requestId hash result state.receipts
  return (result, ⟨tables, receipts⟩)

def createEntitlementOverride (around : Surroundings) (req : CreateRequest) (state : State) :
    Except Err (OverrideReceipt × State) := do
  let p ← actor around.principal
  require (.entitlement .invalid) (validWrite req.requestId req.reason)
  checkTenant around req.tenantId
  let catalog ← readCatalog around
  let hash ← found .fingerprint (E.fingerprint p.subject (.create req))
  let (version, sources, tables) ← (lock E.tables req.tenantId state.tables).mapError .ofStore
  let replay ← receipt E req.tenantId req.requestId hash state
  match replay with
  | some served => return (served, { state with tables })
  | none =>
    appendOverride E around req p.subject hash catalog version sources { state with tables }

/-- A source revoked at an instant, with its next version in 64 bits. -/
def revokedAt (current : Source) (at_ : Instant) : Source :=
  { current with revokedAt := some at_, version := (current.version + 1) % 2 ^ 64 }

/-- The part of `RevokeEntitlementOverride` after the lock that serves a new request. -/
def revokeOverride (around : Surroundings) (req : RevokeRequest) (hash : String)
    (version : Nat) (sources : List Source) (state : State) :
    Except Err (OverrideReceipt × State) := do
  require .conflict (version = req.expectedVersion)
  let current ← found .notFound
    (sources.find? fun s => s.id = req.id && s.sourceKind = .override)
  require .revoked (current.revokedAt = none)
  let revoked := revokedAt current (now around.clock)
  let tables ← (Snapshot.revoke E.tables revoked current.version state.tables).mapError .ofStore
  let tables ← (advance req.tenantId version tables).mapError .ofStore
  let result : OverrideReceipt := ⟨revoked, version + 1⟩
  let receipts ← saveReceipt E req.tenantId req.requestId hash result state.receipts
  return (result, ⟨tables, receipts⟩)

def revokeEntitlementOverride (around : Surroundings) (req : RevokeRequest) (state : State) :
    Except Err (OverrideReceipt × State) := do
  let p ← actor around.principal
  require (.entitlement .invalid) (validWrite req.requestId req.reason ∧ Text.token req.id 128)
  checkTenant around req.tenantId
  let hash ← found .fingerprint (E.fingerprint p.subject (.revoke req))
  let (version, sources, tables) ← (lock E.tables req.tenantId state.tables).mapError .ofStore
  let replay ← receipt E req.tenantId req.requestId hash state
  match replay with
  | some served => return (served, { state with tables })
  | none => revokeOverride E around req hash version sources { state with tables }

end Commands

section Writes

variable {E : Snapshot.Encoding} {store after : Store}

/-- No tenant has two overrides that replace one quota at one instant. -/
def AllExclusive (E : Snapshot.Encoding) (store : Store) : Prop :=
  ∀ tenant, Exclusive (stored E tenant store)

theorem AllExclusive.congr (exclusive : AllExclusive E store)
    (same : after.sources = store.sources) : AllExclusive E after := by
  intro tenant
  rw [stored_congr same]
  exact exclusive tenant

def writtenSource : SourceWrite → Source
  | .insert source => source
  | .revoke source _ => source

/-- A write changes the map of its tenant at one identity, and no other map. -/
theorem stored_apply {write : SourceWrite} (applied : write.apply E store = .ok after) :
    stored E write.tenantId after = Function.update (stored E write.tenantId store)
        (writtenSource write).id (some (writtenSource write)) ∧
      ∀ tenant, tenant ≠ write.tenantId → stored E tenant after = stored E tenant store := by
  refine ⟨?_, fun tenant other => ?_⟩
  · cases write with
    | insert source => exact (insert_ok applied).2
    | revoke source expected => exact (revoke_ok applied).2
  · exact stored_of_rowsOf ((SourceWrite.apply_ok applied).2 tenant other)

/-- A write keeps all tenants exclusive if its source is apart from the others of its
tenant. -/
theorem AllExclusive.apply {write : SourceWrite} (exclusive : AllExclusive E store)
    (applied : write.apply E store = .ok after)
    (apart : ∀ other t, other ≠ (writtenSource write).id →
      stored E write.tenantId store other = some t → t.competes (writtenSource write) = true →
      ∀ now, t.active now = true → (writtenSource write).active now = false) :
    AllExclusive E after := by
  obtain ⟨own, others⟩ := stored_apply applied
  intro tenant
  by_cases mine : tenant = write.tenantId
  · rw [mine, own]
    exact (exclusive write.tenantId).update apart
  · rw [others tenant mine]
    exact exclusive tenant

/-- Writing sources of other kinds keeps all tenants exclusive. -/
theorem AllExclusive.applyAll {writes : List SourceWrite} (exclusive : AllExclusive E store)
    (plain : ∀ write ∈ writes, (writtenSource write).sourceKind ≠ .override)
    (applied : writes.foldlM (SourceWrite.apply E) store = .ok after) : AllExclusive E after := by
  induction writes generalizing store with
  | nil =>
    cases applied
    exact exclusive
  | cons write rest ih =>
    rw [List.foldlM_cons, bind_ok] at applied
    obtain ⟨_, first, later⟩ := applied
    refine ih ?_ (fun other member => plain other (List.mem_cons_of_mem _ member))
      later
    refine exclusive.apply first fun other t different listed competes => ?_
    obtain ⟨-, -, -, -, -, kind, -⟩ := competes_iff.mp competes
    exact absurd kind (plain write List.mem_cons_self)

end Writes

section Steps

variable {E : Encoding} {state after : State} {around : Surroundings} {result : OverrideReceipt}
  {version : Nat} {sources : List Source} {req : CreateRequest} {s : Source}

/-- What a new source has of its request. -/
theorem fromCreate_ok {subject : String} {at_ : Instant} {newId : Option String}
    (made : fromCreate req subject at_ newId = .ok s) :
    s.tenantId = req.tenantId ∧ s.revokedAt = none := by
  simp only [fromCreate, bind_ok, pure_ok] at made
  obtain ⟨_, -, _, -, _, -, _, -, _, -, _, -, -, -, rfl⟩ := made
  exact ⟨rfl, rfl⟩

/-- A revocation only ends a source earlier. -/
theorem active_of_revokedAt {at_ now : Instant} (active : (revokedAt s at_).active now = true)
    (unrevoked : s.revokedAt = none) : s.active now = true := by
  rw [active_iff_window] at active ⊢
  refine ⟨active.1, lt_stop_iff.mpr ⟨by simp [unrevoked], ?_⟩⟩
  exact (lt_stop_iff.mp active.2).2

/-- A lock returns every stored source of its tenant. -/
theorem mem_of_lock {tenant : String} {store tables : Store}
    (taken : lock E.tables tenant store = .ok (version, sources, tables)) {id : String} :
    stored E.tables tenant tables id = some s ↔ s ∈ sources ∧ s.id = id := by
  obtain ⟨shape, decoded, -⟩ := lock_frame taken
  have lists := lists_of_decodeSources decoded
  have same : stored E.tables tenant tables = stored E.tables tenant store :=
    stored_congr (by rw [shape])
  rw [same]
  constructor
  · intro known
    have named := lists.named id s known
    exact ⟨(lists.mem s).mpr (named ▸ known), named⟩
  · rintro ⟨member, rfl⟩
    exact (lists.mem s).mp member

theorem AllExclusive.lock {tenant : String} {store tables : Store}
    (exclusive : AllExclusive E.tables store)
    (taken : lock E.tables tenant store = .ok (version, sources, tables)) :
    AllExclusive E.tables tables := by
  obtain ⟨shape, -⟩ := lock_frame taken
  exact exclusive.congr (by rw [shape])

variable (exclusive : AllExclusive E.tables state.tables)

include exclusive

/-- An append keeps all tenants exclusive: the new source has been compared with every
stored one of its tenant. -/
theorem AllExclusive.appendOverride {subject hash : String} {catalog : Catalog}
    (all : ∀ id s, stored E.tables req.tenantId state.tables id = some s → s ∈ sources)
    (served : appendOverride E around req subject hash catalog version sources state =
      .ok (result, after)) : AllExclusive E.tables after.tables := by
  simp only [Overrides.appendOverride, bind_ok, require_ok, mapError_ok, pure_ok,
    Prod.mk.injEq] at served
  obtain ⟨-, -, source, made, _, checked, inserted, written, _, moved, _, -, -,
    rfl⟩ := served
  obtain ⟨tenant, -⟩ := fromCreate_ok made
  have apply : (SourceWrite.insert source).apply E.tables state.tables = .ok inserted := written
  refine AllExclusive.congr ?_ (advance_frame moved).1
  refine exclusive.apply apply fun other t different listed competes now active => ?_
  have member : t ∈ sources := all other t (tenant ▸ listed)
  exact apart_of_checkExisting ((validateAppend_ok.mp checked).2 t member) competes active

/-- A revocation keeps all tenants exclusive: the source was apart from the others before,
and now ends earlier. -/
theorem AllExclusive.revokeOverride {req : RevokeRequest} {hash : String}
    (own : ∀ s ∈ sources, s.tenantId = req.tenantId)
    (all : ∀ s ∈ sources, stored E.tables req.tenantId state.tables s.id = some s)
    (served : revokeOverride E around req hash version sources state = .ok (result, after)) :
    AllExclusive E.tables after.tables := by
  simp only [Overrides.revokeOverride, bind_ok, found_ok, require_ok, mapError_ok, pure_ok,
    Prod.mk.injEq] at served
  obtain ⟨-, -, current, located, -, unrevoked, inserted, written, _, moved, _, -, -,
    rfl⟩ := served
  have member : current ∈ sources := List.mem_of_find?_eq_some located
  have apply : (SourceWrite.revoke (revokedAt current (now around.clock)) current.version).apply
      E.tables state.tables = .ok inserted := written
  refine AllExclusive.congr ?_ (advance_frame moved).1
  refine exclusive.apply apply fun other t different listed competes instant active => ?_
  refine Bool.eq_false_iff.mpr fun also => different ?_
  have known := all current member
  rw [← own current member] at known
  exact exclusive current.tenantId other current.id t current listed known competes instant active
    (active_of_revokedAt also unrevoked)

theorem AllExclusive.create
    (served : createEntitlementOverride E around req state = .ok (result, after)) :
    AllExclusive E.tables after.tables := by
  simp only [createEntitlementOverride, bind_ok, found_ok, require_ok, mapError_ok] at served
  obtain ⟨p, -, -, -, -, -, _, -, _, -, ⟨_, _, _⟩, taken, replay, -,
    served⟩ := served
  cases replay with
  | some answered =>
    cases served
    exact exclusive.lock taken
  | none =>
    exact (exclusive.lock taken).appendOverride
      (fun id s known => ((mem_of_lock taken).mp known).1) served

theorem AllExclusive.revoke {req : RevokeRequest}
    (served : revokeEntitlementOverride E around req state = .ok (result, after)) :
    AllExclusive E.tables after.tables := by
  simp only [revokeEntitlementOverride, bind_ok, found_ok, require_ok, mapError_ok] at served
  obtain ⟨p, -, -, -, -, -, _, -, ⟨_, sources, _⟩, taken, replay, -, served⟩ := served
  cases replay with
  | some answered =>
    cases served
    exact exclusive.lock taken
  | none =>
    have own : ∀ s ∈ sources, s.tenantId = req.tenantId := by
      intro s member
      obtain ⟨_, -, read⟩ := (mem_of_mapM (lock_frame taken).2.1 s).mp member
      exact (decodeSource_ok read).2.2
    exact (exclusive.lock taken).revokeOverride own
      (fun s member => (mem_of_lock taken).mpr ⟨member, rfl⟩) served

end Steps

/-- A call of one of the commands, or a transaction on the tables by another component. -/
inductive Event
  | create (around : Surroundings) (request : CreateRequest)
  | revoke (around : Surroundings) (request : RevokeRequest)
  | other (event : Snapshot.Event)

/-- Overrides are written by the commands only. -/
def WritesNoOverride : Snapshot.Event → Prop
  | .write _ writes => ∀ write ∈ writes, (writtenSource write).sourceKind ≠ .override
  | .catalogue _ | .read .. => True

/-- The state after a transaction; one that fails is rolled back. -/
def settled (before : State) : Except Err (OverrideReceipt × State) → State
  | .ok (_, after) => after
  | .error _ => before

inductive Step (E : Encoding) : State → Event → State → Prop
  | create (state : State) (around : Surroundings) (request : CreateRequest) :
      Step E state (.create around request)
        (settled state (createEntitlementOverride E around request state))
  | revoke (state : State) (around : Surroundings) (request : RevokeRequest) :
      Step E state (.revoke around request)
        (settled state (revokeEntitlementOverride E around request state))
  | other {state : State} {event : Snapshot.Event} {tables : Store}
      (taken : Snapshot.Step E.tables state.tables event tables) (plain : WritesNoOverride event) :
      Step E state (.other event) { state with tables }

section Runs

variable {E : Encoding} {first state after : State} {event : Event} {history : List Event}

theorem Step.allExclusive (taken : Step E state event after)
    (exclusive : AllExclusive E.tables state.tables) : AllExclusive E.tables after.tables := by
  cases taken with
  | create around request =>
    cases served : createEntitlementOverride E around request state with
    | error _ => exact exclusive
    | ok outcome => exact exclusive.create served
  | revoke around request =>
    cases served : revokeEntitlementOverride E around request state with
    | error _ => exact exclusive
    | ok outcome => exact exclusive.revoke served
  | other taken plain =>
    cases taken with
    | write own written =>
      simp only [writeSources, bind_ok] at written
      obtain ⟨⟨_, _, _⟩, locked, written, applied, advanced⟩ := written
      exact ((exclusive.lock locked).applyAll plain applied).congr (advance_frame advanced).1
    | catalogue written =>
      simp only [writeCatalog, advanceCatalog, bind_ok, found_ok, require_ok, pure_ok] at written
      obtain ⟨-, -, -, -, -, -, rfl⟩ := written
      exact exclusive
    | read returned => exact exclusive.congr (locked_ok returned).1

theorem allExclusive_of_run (blank : first.tables.sources = Table.empty)
    (run : Run (Step E) first history state) : AllExclusive E.tables state.tables := by
  refine run.invariant (fun _ _ _ exclusive taken => taken.allExclusive exclusive) ?_
  intro tenant a b s t known
  rw [stored, blank, Table.find?_empty] at known
  cases known

/-- In every history of commands and of transactions of other components that starts
without sources, at most one override replaces a quota of a tenant at any instant, and a
conflict that the resolver reports is one between sources of other kinds. An append that
reports a conflict would have made two replacements active at some instant, since a new
source is not revoked. -/
theorem overrides_exclusive (blank : first.tables.sources = Table.empty)
    (run : Run (Step E) first history state) :
    (∀ tenant moduleCode key now id id' s s', stored E.tables tenant state.tables id = some s →
        stored E.tables tenant state.tables id' = some s' →
        s.sourceKind = .override → s'.sourceKind = .override →
        s.Sets moduleCode key now → s'.Sets moduleCode key now → id = id') ∧
      (∀ tenant version sources tables,
        lock E.tables tenant state.tables = .ok (version, sources, tables) →
        ∀ now catalog requested result,
          resolve tenant version now catalog sources requested = .ok result →
          ∀ d ∈ result.decisions, d.reason = .quotaConfigurationConflict →
            (∀ s ∈ sources, s.Sets d.moduleCode d.key now → s.sourceKind ≠ .override) ∧
              ∃ s ∈ sources, ∃ t ∈ sources, s.id ≠ t.id ∧ s.Sets d.moduleCode d.key now ∧
                t.Sets d.moduleCode d.key now) ∧
      (∀ existing incoming catalog,
        validateAppend existing incoming catalog = .error .quotaConflict →
        incoming.revokedAt = none →
          ∃ s ∈ existing, s.competes incoming = true ∧
            ∃ now, s.active now = true ∧ incoming.active now = true) ∧
      ∀ req subject at_ newId incoming, fromCreate req subject at_ newId = .ok incoming →
        incoming.revokedAt = none := by
  have exclusive := allExclusive_of_run blank run
  refine ⟨?_, ?_, fun _ _ _ failed new => common_of_validateAppend failed new,
    fun _ _ _ _ _ made => (fromCreate_ok made).2⟩
  · rintro tenant moduleCode key now id id' s s' known known' kind kind'
      ⟨quota, module, named, effect, active⟩ ⟨quota', module', named', effect', active'⟩
    refine exclusive tenant id id' s s' known known' (competes_iff.mpr ?_) now active active'
    exact ⟨quota, quota', named.trans named'.symm, module.trans module'.symm, kind, kind', effect,
      effect'⟩
  · intro tenant version sources tables taken now catalog requested result resolved d member
      conflict
    have apart := exclusive.lock taken tenant
    obtain ⟨-, decoded, -⟩ := lock_frame taken
    refine conflict_of_exclusive (lists_of_decodeSources decoded).distinct
      (fun s listed t listed' competes active active' => ?_) resolved member conflict
    exact apart s.id t.id s t ((mem_of_lock taken).mpr ⟨listed, rfl⟩)
      ((mem_of_lock taken).mpr ⟨listed', rfl⟩) competes now active active'

end Runs

section Sample

/-- A call of an operator a number of hours after the start. -/
def sampleCall (hours : Int) (random : String) : Surroundings :=
  { principal := some ⟨true, "operator", ""⟩, getTenant := .ok (some "tenant"),
    readEntitlementCatalog := .ok sampleCatalog, clock := sampleStart + hours * hour,
    random := some random }

/-- A request to replace the number of seats from now on. -/
def sampleReplace (requestId : String) (version : Nat) : CreateRequest :=
  { requestId, tenantId := "tenant", expectedVersion := version, moduleCode := "reports",
    target := .quota, key := "seats", effect := .quotaReplace, limit := some ⟨false, 5⟩,
    reason := "trial" }

def sampleRevoke : RevokeRequest :=
  { requestId := "second", tenantId := "tenant", id := "aa", expectedVersion := 1,
    reason := "ended" }

def sampleOverride (id : String) (hours : Int) : Source :=
  { id, tenantId := "tenant", sourceKind := .override, moduleCode := "reports", kind := .quota,
    key := "seats", action := .none, effect := .quotaReplace, limit := ⟨false, 5⟩,
    effectiveAt := sampleStart + hours * hour, expiresAt := none, revokedAt := none,
    reason := "trial", actorId := "operator", version := 1 }

def sampleEnded : Source := revokedAt (sampleOverride "aa" 0) (sampleStart + hour)

def sampleEncoding : Encoding where
  tables := { Snapshot.sampleEncoding with
    sources := Codec.ofList [sampleOverride "aa" 0, sampleEnded, sampleOverride "bb" 1] }
  receipts := Codec.ofList
    [⟨sampleOverride "aa" 0, 1⟩, ⟨sampleEnded, 2⟩, ⟨sampleOverride "bb" 1, 3⟩]
  fingerprint _ _ := some ""

def sampleState : State := ⟨Snapshot.sampleStore, Table.empty⟩

/-- The override is created, cannot be created again, is revoked and replaced. -/
def sampleHistory : List Event :=
  [.create (sampleCall 0 "aa") (sampleReplace "first" 0),
    .create (sampleCall 1 "bb") (sampleReplace "again" 1),
    .revoke (sampleCall 1 "") sampleRevoke,
    .create (sampleCall 1 "bb") (sampleReplace "third" 2)]

def sampleCreated : State :=
  settled sampleState (createEntitlementOverride sampleEncoding (sampleCall 0 "aa")
    (sampleReplace "first" 0) sampleState)

def sampleRefused : State :=
  settled sampleCreated (createEntitlementOverride sampleEncoding (sampleCall 1 "bb")
    (sampleReplace "again" 1) sampleCreated)

def sampleRevoked : State :=
  settled sampleRefused (revokeEntitlementOverride sampleEncoding (sampleCall 1 "") sampleRevoke
    sampleRefused)

def sampleLast : State :=
  settled sampleRevoked (createEntitlementOverride sampleEncoding (sampleCall 1 "bb")
    (sampleReplace "third" 2) sampleRevoked)

theorem sample_run : Run (Step sampleEncoding) sampleState sampleHistory sampleLast :=
  .step (.create _ _ _) (.step (.create _ _ _) (.step (.revoke _ _ _)
    (.step (.create _ _ _) (.done _))))

/-- Both overrides are stored at the end, and the second one is active alone. -/
theorem overrides_exclusive_sample :
    Run (Step sampleEncoding) sampleState sampleHistory sampleLast ∧
      stored sampleEncoding.tables "tenant" sampleLast.tables "aa" = some sampleEnded ∧
      stored sampleEncoding.tables "tenant" sampleLast.tables "bb" = some (sampleOverride "bb" 1) ∧
      (∀ id s, stored sampleEncoding.tables "tenant" sampleLast.tables id = some s →
        s.sourceKind = .override → s.Sets "reports" "seats" (sampleStart + hour) → "bb" = id) ∧
      validateAppend [sampleOverride "aa" 0] (sampleOverride "bb" 1) sampleCatalog =
        .error .quotaConflict ∧
      ∃ now, (sampleOverride "aa" 0).active now = true ∧ (sampleOverride "bb" 1).active now := by
  have last : stored sampleEncoding.tables "tenant" sampleLast.tables "bb" =
      some (sampleOverride "bb" 1) := by decide +kernel
  have refused : validateAppend [sampleOverride "aa" 0] (sampleOverride "bb" 1) sampleCatalog =
      .error .quotaConflict := by decide +kernel
  have sets : (sampleOverride "bb" 1).Sets "reports" "seats" (sampleStart + hour) := by
    refine ⟨rfl, rfl, rfl, rfl, ?_⟩
    decide +kernel
  obtain ⟨one, -, conflict, -⟩ := overrides_exclusive rfl sample_run
  obtain ⟨s, member, -, common⟩ := conflict _ _ _ refused rfl
  rw [List.mem_singleton] at member
  subst member
  refine ⟨sample_run, by decide +kernel, last, fun id s known kind also => ?_, refused, common⟩
  exact one "tenant" "reports" "seats" (sampleStart + hour) "bb" id _ s last known rfl kind sets
    also

end Sample

end Biz.Overrides
