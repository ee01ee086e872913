import Biz.Devices.Visibility
import Biz.Library.Footprint

/-!
# Writing devices

The calls that create, update, transfer and delete a device. Each is one transaction:
the guard resolves the scope of the caller, the service reads what it changes through
the scope, and a new site is first put to the site service. A child operation runs in the
scope of its root and repeats no guard. An update ends with a scoped read, so that a
device that has left the scope takes the transaction back. A creation does not; the guard
has checked the site that it names.
-/

namespace Biz.Devices

open Checks Isolation Text
open Access (Db Principal)
open Time (Instant)

abbrev Tx := Isolation.Code Row Failure

abbrev read {α : Type} (f : Tables → Except Failure α) : Tx α := Isolation.Code.read f

abbrev modify {α : Type} (f : Tables → Except Failure (α × List (Isolation.Write Row))) : Tx α :=
  Isolation.Code.modify f

abbrev lift {α : Type} (outcome : Except Failure α) : Tx α := Isolation.Code.lift outcome

abbrev demand (failure : Failure) (condition : Prop) [Decidable condition] : Tx Unit :=
  Isolation.Code.require failure condition

inductive Operation
  | list
  | get
  | create
  | update
  | delete
  | transfer
  | validateTransferTarget
  | localTransfer
  | remoteProvision

/-- The permission whose scope an operation is held to. -/
def Operation.permission : Operation → String
  | .list | .get => "device.read"
  | .create | .remoteProvision => "device.create"
  | .update | .transfer | .localTransfer => "device.update"
  | .delete => "device.delete"
  | .validateTransferTarget => "site.read"

/-- `Guard.Prepare`, for a request that names a site or a blank one. -/
def prepare (access : Db) (now : Instant) (principal : Principal) (operation : Operation)
    (siteId : String) : Except Failure Scope := do
  let scope ← currentScope access now principal operation.permission
  require .denied (trimSpace siteId ≠ "" → scope.allowsSite (trimSpace siteId) = true)
  return scope

/-! ## The repositories -/

/-- `SiteRepository.Get`, of which only the identifier is used. -/
def getSite (tables : Tables) (principal : Principal) (id : String) : Except Failure String := do
  let tenant ← trustedTenant principal
  let _ ← found Failure.notFound ((tables.lookup (.site id)).filter fun row =>
    row.tenantId = tenant && row.deletedAt.isNone)
  return id

/-- The unique index on the serial of a tenant's devices; a deleted device keeps its own. -/
def Tables.serialFree (tables : Tables) (tenant serial : String) : Bool :=
  tables.devices.all fun device => decide (device.2.tenantId ≠ tenant ∨ device.2.serial ≠ serial)

variable (principal : Principal)

/-- `DeviceRepository.Create`. -/
def insertDevice (device : Device) (now : Instant) : Tx Unit := do
  let tenant ← lift (trustedTenant principal)
  modify fun tables => do
    require .duplicateKey (Key.device device.id ∉ tables ∧
      tables.serialFree tenant device.serial = true)
    return ((), [⟨.device device.id, some ⟨tenant, device.siteId, device.name, device.serial,
      device.createdBy, 1, now, none⟩⟩])

/-- The one row that an update or a delete of a version meets. -/
def Tables.versioned (tables : Tables) (tenant id : String) (expectedVersion : Nat) :
    Except Failure DeviceRecord :=
  found .conflict ((tables.lookup (.device id)).filter fun row =>
    row.tenantId = tenant && row.deletedAt.isNone && row.version = expectedVersion)

/-- `DeviceRepository.Update`. -/
def storeDevice (device : Device) (expectedVersion : Nat) : Tx Unit := do
  let tenant ← lift (trustedTenant principal)
  modify fun tables => do
    let row ← tables.versioned tenant device.id expectedVersion
    return ((), [⟨.device device.id, some { row with
      createdBy := device.createdBy
      name := device.name
      serial := device.serial
      siteId := device.siteId
      version := row.version + 1 }⟩])

/-- `DeviceRepository.Delete`. -/
def removeDevice (id : String) (expectedVersion : Nat) (now : Instant) : Tx Unit := do
  let tenant ← lift (trustedTenant principal)
  modify fun tables => do
    let row ← tables.versioned tenant id expectedVersion
    return ((), [⟨.device id, some { row with deletedAt := some now }⟩])

/-! ## The services -/

structure CreateRequest where
  siteId : String
  name : String
  serial : String

structure UpdateRequest where
  id : String
  name : String
  siteId : String
  version : Nat

structure TransferRequest where
  id : String
  targetSiteId : String
  version : Nat

structure DeleteRequest where
  id : String
  version : Nat

section Services

variable (access : Db) (now : Instant) (principal : Principal) (scope : Scope)

/-- `CreateDevice`, with the identifier that the service draws. -/
def createDevice (id : String) (request : CreateRequest) : Tx Unit := do
  let siteId := trimSpace request.siteId
  let name := trimSpace request.name
  let serial := trimSpace request.serial
  demand .invalid (siteId ≠ "" ∧ name ≠ "" ∧ serial ≠ "")
  demand .scopeMissing (trimSpace scope.userId ≠ "")
  let _ ← read fun tables => getSite tables principal siteId
  insertDevice principal ⟨id, "", scope.userId, name, serial, siteId, 0⟩ now

/-- `ValidateTransferTarget`, called as a child operation. -/
def validateTransferTarget (siteId : String) : Tx String := do
  demand .invalid (trimSpace siteId ≠ "")
  read fun tables => getSite tables principal (trimSpace siteId)

/-- A new site is one that the site service knows. -/
def validateMove (siteId : String) : Tx Unit := do
  let target ← validateTransferTarget principal siteId
  demand .invalid (target = siteId)

/-- `UpdateDevice`. -/
def updateDevice (request : UpdateRequest) : Tx Unit := do
  demand .invalid (trimSpace request.id ≠ "" ∧ request.version ≠ 0)
  let current ← read fun tables => getVisible tables principal scope (trimSpace request.id)
  let name := if trimSpace request.name = "" then current.name else trimSpace request.name
  let siteId := if trimSpace request.siteId = "" then current.siteId else trimSpace request.siteId
  Code.whenever (siteId ≠ current.siteId) (validateMove principal siteId)
  storeDevice principal { current with name := name, siteId := siteId } request.version
  let _ ← read fun tables => getVisible tables principal scope current.id

/-- `DeleteDevice`. -/
def deleteDevice (request : DeleteRequest) : Tx Unit := do
  demand .invalid (trimSpace request.id ≠ "" ∧ request.version ≠ 0)
  let current ← read fun tables => getVisible tables principal scope (trimSpace request.id)
  removeDevice principal current.id request.version now

/-- `TransferDevice`: the target is validated, and the device is updated, each as a child
operation in the scope of the transfer. -/
def transferDevice (request : TransferRequest) : Tx Unit := do
  let site := trimSpace request.targetSiteId
  demand .invalid (trimSpace request.id ≠ "" ∧ site ≠ "" ∧ request.version ≠ 0)
  let target ← validateTransferTarget principal site
  demand .invalid (trimSpace target ≠ "" ∧ target = site)
  updateDevice principal scope ⟨trimSpace request.id, "", target, request.version⟩

/-- A call that writes a device. -/
inductive WriteOp
  | create (id : String) (request : CreateRequest)
  | update (request : UpdateRequest)
  | transfer (request : TransferRequest)
  | delete (request : DeleteRequest)

def WriteOp.operation : WriteOp → Operation
  | .create .. => .create
  | .update _ => .update
  | .transfer _ => .transfer
  | .delete _ => .delete

/-- The root transaction of a call. -/
def writeProgram : WriteOp → Tx Unit
  | .create id request => do
    let scope ← lift (prepare access now principal .create request.siteId)
    createDevice now principal scope id request
  | .update request => do
    let scope ← lift (prepare access now principal .update request.siteId)
    updateDevice principal scope request
  | .transfer request => do
    let scope ← lift (prepare access now principal .transfer request.targetSiteId)
    transferDevice principal scope request
  | .delete request => do
    let scope ← lift (prepare access now principal .delete "")
    deleteDevice now principal scope request

/-- The tables after a call; one that fails is rolled back. -/
def serve (tables : Tables) (op : WriteOp) : Tables :=
  match (writeProgram access now principal op).run tables with
  | .ok (_, after) => after
  | .error _ => tables

end Services

/-! ## What a call does -/

/-- One device of the tenant changes, within the scope. -/
structure Change (tenant : String) (scope : Scope) (op : WriteOp) (before after : Tables)
    (id : String) (row : DeviceRecord) : Prop where
  stored : after.lookup (.device id) = some row
  changed : before.lookup (.device id) ≠ some row
  only : ∀ key, key ≠ .device id → after.lookup key = before.lookup key
  home : row.tenantId = tenant
  /-- A device that was there was visible, and keeps its tenant, serial and creator. -/
  known : ∀ old, before.lookup (.device id) = some old → before.visible tenant scope old = true ∧
    row.tenantId = old.tenantId ∧ row.serial = old.serial ∧ row.createdBy = old.createdBy
  /-- Only a creation makes a device, and only a deletion deletes one. -/
  new : before.lookup (.device id) = none ↔ op.operation = .create
  deleted : row.deletedAt ≠ none ↔ op.operation = .delete
  visible : row.deletedAt = none → after.visible tenant scope row = true
  ceiling : row.deletedAt = none → scope.policyBound = true → row.siteId ∈ scope.policySiteIds
  /-- A new device, or one that has moved, is at a site of the tenant. -/
  placed : (∀ old, before.lookup (.device id) = some old → old.siteId ≠ row.siteId) →
    after.SiteExists tenant row.siteId

section Parts

variable {access : Db} {now : Instant} {principal : Principal} {tables : Tables}
  {scope : Scope} {row : DeviceRecord} {id tenant : String}

theorem prepare_ok {operation : Operation} {siteId : String}
    (prepared : prepare access now principal operation siteId = .ok scope) :
    currentScope access now principal operation.permission = .ok scope ∧
      (trimSpace siteId ≠ "" → scope.allowsSite (trimSpace siteId) = true) := by
  obtain ⟨_, current, rest⟩ := bind_ok.mp prepared
  obtain ⟨_, allowed, returned⟩ := bind_ok.mp rest
  cases returned
  exact ⟨current, require_ok.mp allowed⟩

theorem trustedTenant_ok (trusted : trustedTenant principal = .ok tenant) :
    tenant = principal.tenantId ∧ principal.tenantId ≠ "" := by
  obtain ⟨_, checked, returned⟩ := bind_ok.mp trusted
  cases returned
  exact ⟨rfl, (require_ok.mp checked).2⟩

theorem getVisible_ok {device : Device} (got : getVisible tables principal scope id = .ok device) :
    ∃ row, tables.lookup (.device id) = some row ∧
      tables.visible principal.tenantId scope row = true ∧ device = row.domain id := by
  obtain ⟨_, trusted, rest⟩ := bind_ok.mp got
  obtain ⟨row, seen, returned⟩ := bind_ok.mp rest
  cases returned
  obtain ⟨stored, visible⟩ := Option.filter_eq_some_iff.mp (found_ok.mp seen)
  exact ⟨row, stored, (trustedTenant_ok trusted).1 ▸ visible, rfl⟩

theorem getSite_ok {site : String} (got : getSite tables principal id = .ok site) :
    site = id ∧ tables.SiteExists principal.tenantId id := by
  obtain ⟨_, trusted, rest⟩ := bind_ok.mp got
  obtain ⟨row, seen, returned⟩ := bind_ok.mp rest
  cases returned
  obtain ⟨stored, live⟩ := Option.filter_eq_some_iff.mp (found_ok.mp seen)
  rw [Bool.and_eq_true, decide_eq_true_eq, Option.isNone_iff_eq_none] at live
  exact ⟨rfl, row, stored, live.1.trans (trustedTenant_ok trusted).1, live.2⟩

theorem versioned_ok {version : Nat} (met : tables.versioned tenant id version = .ok row) :
    tables.lookup (.device id) = some row ∧ row.tenantId = tenant ∧ row.deletedAt = none := by
  obtain ⟨stored, passes⟩ := Option.filter_eq_some_iff.mp (found_ok.mp met)
  simp only [Bool.and_eq_true, decide_eq_true_eq, Option.isNone_iff_eq_none] at passes
  exact ⟨stored, passes.1.1, passes.1.2⟩

/-- Writing a device moves no site. -/
theorem siteExists_stored {site : String} :
    Tables.SiteExists (overlay tables [⟨.device id, some row⟩]) tenant site ↔
      tables.SiteExists tenant site := by
  unfold Tables.SiteExists
  rw [lookup_overlay_one_of_ne _ Key.noConfusion]

theorem after_validateTransferTarget {siteId : String} {post : String → Tables → Prop}
    (holds : tables.SiteExists principal.tenantId (trimSpace siteId) →
      post (trimSpace siteId) tables) :
    After post (validateTransferTarget principal siteId) tables := by
  apply after_require
  intro _
  apply after_read_last
  intro site got
  obtain ⟨rfl, there⟩ := getSite_ok got
  exact holds there

end Parts

section Calls

variable {access : Db} {now : Instant} {principal : Principal} {tables : Tables}
  {scope : Scope} {id : String} {row : DeviceRecord}

/-- A visible device lies under the ceiling. -/
theorem ceiling_of_visible {tenant : String} (seen : tables.visible tenant scope row = true)
    (bound : scope.policyBound = true) : row.siteId ∈ scope.policySiteIds := by
  simp only [Tables.visible, inDeviceDataScope, bound, Bool.and_eq_true, Bool.not_true,
    Bool.false_or, decide_eq_true_eq] at seen
  exact seen.2.1.1.2

/-- A device that is stored where it was visible, and is visible afterwards. -/
theorem change_of_update {op : WriteOp} {name siteId : String} {old : DeviceRecord}
    (updates : op.operation = .update ∨ op.operation = .transfer)
    (stored : tables.lookup (.device id) = some old)
    (seen : tables.visible principal.tenantId scope old = true)
    (placed : old.siteId ≠ siteId → tables.SiteExists principal.tenantId siteId)
    (changed : row = { old with
      name := name, siteId := siteId, version := old.version + 1 })
    (still : Tables.visible (overlay tables [⟨.device id, some row⟩]) principal.tenantId scope
      row = true) :
    Change principal.tenantId scope op tables (overlay tables [⟨.device id, some row⟩]) id row := by
  simp only [Tables.visible, Bool.and_eq_true, decide_eq_true_eq, Option.isNone_iff_eq_none] at seen
  obtain ⟨⟨home, live⟩, inScope⟩ := seen
  subst changed
  constructor
  case stored => exact lookup_overlay_one _ _
  case changed =>
    intro same
    have version := congrArg DeviceRecord.version (Option.some.inj (stored.symm.trans same))
    simp at version
  case only => exact fun _ => lookup_overlay_one_of_ne _
  case home => exact home
  case known =>
    intro found there
    cases stored.symm.trans there
    refine ⟨?_, rfl, rfl, rfl⟩
    simp only [Tables.visible, Bool.and_eq_true, decide_eq_true_eq, Option.isNone_iff_eq_none]
    exact ⟨⟨home, live⟩, inScope⟩
  case new =>
    rw [stored]
    rcases updates with update | transfer
    · simp [update]
    · simp [transfer]
  case deleted =>
    rcases updates with update | transfer
    · simp [update, live]
    · simp [transfer, live]
  case visible => exact fun _ => still
  case ceiling => exact fun _ => ceiling_of_visible still
  case placed =>
    intro moved
    exact siteExists_stored.mpr (placed (moved old stored))

theorem after_updateDevice (op : WriteOp) {request : UpdateRequest}
    (updates : op.operation = .update ∨ op.operation = .transfer) :
    After (fun _ after => ∃ id row, Change principal.tenantId scope op tables after id row)
      (updateDevice principal scope request) tables := by
  apply after_require
  intro _
  apply after_read
  intro current got
  obtain ⟨old, stored, seen, rfl⟩ := getVisible_ok got
  apply after_bind
  -- The check of a new site reads and writes nothing.
  have moved : ∀ siteId, After (fun _ after => after = tables ∧
      (old.siteId ≠ siteId → tables.SiteExists principal.tenantId siteId))
      (Code.whenever (siteId ≠ old.siteId) (validateMove principal siteId)) tables := by
    intro siteId
    apply after_whenever
    · intro _
      apply after_bind
      apply after_validateTransferTarget
      intro there
      apply after_lift_last
      intro _ passed
      rw [require_ok.mp passed] at there
      exact ⟨rfl, fun _ => there⟩
    · intro stays
      exact ⟨rfl, fun differs => absurd (Ne.symm differs) stays⟩
  apply After.mono _ (moved _)
  rintro _ _ ⟨rfl, placed⟩
  apply after_bind
  apply after_lift
  intro tenant trusted
  apply after_modify_last
  intro _ writes outcome
  obtain ⟨_, met, returned⟩ := bind_ok.mp outcome
  cases returned
  cases (versioned_ok met).1.symm.trans stored
  apply after_read
  intro device again
  obtain ⟨_, written, still, _⟩ := getVisible_ok again
  have same := Option.some.inj ((lookup_overlay_one _ _).symm.trans written)
  rw [← same] at still
  apply after_pure
  exact ⟨_, _, change_of_update updates stored seen placed rfl still⟩

theorem after_deleteDevice (op : WriteOp) {request : DeleteRequest}
    (deletes : op.operation = .delete) :
    After (fun _ after => ∃ id row, Change principal.tenantId scope op tables after id row)
      (deleteDevice now principal scope request) tables := by
  apply after_require
  intro _
  apply after_read
  intro current got
  obtain ⟨old, stored, seen, rfl⟩ := getVisible_ok got
  apply after_lift
  intro tenant trusted
  apply after_modify_last
  intro _ writes outcome
  obtain ⟨_, met, returned⟩ := bind_ok.mp outcome
  cases returned
  obtain ⟨there, home, live⟩ := versioned_ok met
  cases there.symm.trans stored
  refine ⟨trimSpace request.id, { old with deletedAt := some now }, ?_⟩
  constructor
  case stored => exact lookup_overlay_one _ _
  case changed =>
    intro same
    have kept := congrArg DeviceRecord.deletedAt (Option.some.inj (stored.symm.trans same))
    rw [live] at kept
    cases kept
  case only => exact fun _ => lookup_overlay_one_of_ne _
  case home => exact home.trans (trustedTenant_ok trusted).1
  case known =>
    intro found same
    cases stored.symm.trans same
    exact ⟨seen, rfl, rfl, rfl⟩
  case new =>
    rw [deletes]
    exact iff_of_false (fun absent => nomatch stored.symm.trans absent) Operation.noConfusion
  case deleted => simp [deletes]
  case visible => exact fun kept => nomatch kept
  case ceiling => exact fun kept => nomatch kept
  case placed => exact fun moved => absurd rfl (moved old stored)

/-- A site that the guard allows makes a device of the caller visible there. -/
theorem visible_of_allowsSite (named : scope.tenantId ≠ "") (home : row.tenantId = scope.tenantId)
    (live : row.deletedAt = none) (own : row.createdBy = scope.userId)
    (there : tables.SiteExists scope.tenantId row.siteId)
    (allowed : scope.allowsSite row.siteId = true) :
    tables.visible scope.tenantId scope row = true := by
  simp only [Scope.allowsSite, Bool.and_eq_true, Bool.or_eq_true, Bool.not_eq_eq_eq_not,
    Bool.not_true, decide_eq_true_eq] at allowed
  obtain ⟨under, reached⟩ := allowed
  rw [Tables.visible, home, live, Bool.and_eq_true, inDeviceDataScope_iff named]
  refine ⟨by simp, ?_, ?_⟩
  · intro bound
    rcases under with free | listed
    · rw [bound] at free
      cases free
    · exact ⟨listed, siteRow_iff.mpr (.inl there)⟩
  · rcases reached with (all | self) | sites
    · exact .inl all
    · exact .inr (.inr ⟨self, own⟩)
    · exact .inr (.inl sites)

/-- A device that is made at a site that the guard allows. -/
theorem change_of_creation {request : CreateRequest} (absent : tables.lookup (.device id) = none)
    (named : scope.tenantId ≠ "") (home : row.tenantId = scope.tenantId)
    (live : row.deletedAt = none) (own : row.createdBy = scope.userId)
    (there : tables.SiteExists scope.tenantId row.siteId)
    (allowed : scope.allowsSite row.siteId = true) :
    Change scope.tenantId scope (.create id request) tables
      (overlay tables [⟨.device id, some row⟩]) id
      row := by
  have placed : Tables.SiteExists (overlay tables [⟨.device id, some row⟩]) scope.tenantId
    row.siteId :=
    siteExists_stored.mpr there
  have visible := visible_of_allowsSite named home live own placed allowed
  constructor
  case stored => exact lookup_overlay_one _ _
  case changed =>
    rw [absent]
    exact (Option.some_ne_none row).symm
  case only => exact fun _ => lookup_overlay_one_of_ne _
  case home => exact home
  case known => exact fun old found => nomatch absent.symm.trans found
  case new => exact iff_of_true absent rfl
  case deleted =>
    rw [live]
    exact iff_of_false (fun deleted => deleted rfl) Operation.noConfusion
  case visible => exact fun _ => visible
  case ceiling => exact fun _ => ceiling_of_visible visible
  case placed => exact fun _ => placed

theorem after_createDevice {request : CreateRequest} (home : scope.tenantId = principal.tenantId)
    (allowed : trimSpace request.siteId ≠ "" → scope.allowsSite (trimSpace request.siteId) = true) :
    After (fun _ after => ∃ row, Change scope.tenantId scope (.create id request) tables after
      id row) (createDevice now principal scope id request) tables := by
  apply after_require
  intro named
  apply after_require
  intro _
  apply after_read
  intro site got
  obtain ⟨_, there⟩ := getSite_ok got
  rw [← home] at there
  apply after_lift
  intro tenant trusted
  obtain ⟨same, tenantNamed⟩ := trustedTenant_ok trusted
  rw [← home] at same tenantNamed
  apply after_modify_last
  intro _ writes outcome
  obtain ⟨_, free, returned⟩ := bind_ok.mp outcome
  cases returned
  have absent : tables.lookup (.device id) = none :=
    AList.lookup_eq_none.mpr (require_ok.mp free).1
  exact ⟨_, change_of_creation absent tenantNamed same rfl rfl there (allowed named.1)⟩

/-- Every call that commits changes one device, within the scope of its permission. -/
theorem after_writeProgram (op : WriteOp) :
    After (fun _ after => ∃ scope id row,
      currentScope access now principal op.operation.permission = .ok scope ∧
        Change principal.tenantId scope op tables after id row)
      (writeProgram access now principal op) tables := by
  cases op with
  | create id request =>
    apply after_lift
    intro scope prepared
    obtain ⟨current, allowed⟩ := prepare_ok prepared
    have home : scope.tenantId = principal.tenantId := by
      obtain ⟨_, _, _, _, rfl⟩ := currentScope_ok.mp current
      rfl
    apply After.mono _ (after_createDevice home allowed)
    rintro _ after ⟨row, change⟩
    exact ⟨scope, id, row, current, home ▸ change⟩
  | update request =>
    apply after_lift
    intro scope prepared
    apply After.mono _ (after_updateDevice (.update request) (.inl rfl))
    rintro _ after ⟨id, row, change⟩
    exact ⟨scope, id, row, (prepare_ok prepared).1, change⟩
  | transfer request =>
    apply after_lift
    intro scope prepared
    apply after_require
    intro _
    apply after_bind
    apply after_validateTransferTarget
    intro _
    apply after_require
    intro _
    apply After.mono _ (after_updateDevice (.transfer request) (.inr rfl))
    rintro _ after ⟨id, row, change⟩
    exact ⟨scope, id, row, (prepare_ok prepared).1, change⟩
  | delete request =>
    apply after_lift
    intro scope prepared
    apply After.mono _ (after_deleteDevice (.delete request) rfl)
    rintro _ after ⟨id, row, change⟩
    exact ⟨scope, id, row, (prepare_ok prepared).1, change⟩

end Calls

/-- A call that fails changes nothing. One that commits changes exactly one device of the
caller's tenant, which was visible to the caller under the permission of the call
unless it is new, and is visible afterwards unless it is deleted. -/
theorem device_writes_confined (access : Db) (now : Instant) (principal : Principal)
    (tables : Tables) (op : WriteOp) :
    (∀ failure, (writeProgram access now principal op).run tables = .error failure →
      serve access now principal tables op = tables) ∧
    ∀ result, (writeProgram access now principal op).run tables = .ok result →
      ∃ scope id row, currentScope access now principal op.operation.permission = .ok scope ∧
        Change principal.tenantId scope op tables (serve access now principal tables op) id
          row := by
  constructor
  · intro failure failed
    simp only [serve, failed]
  · intro result ran
    simp only [serve, ran]
    exact (after_writeProgram op).run ran

section Sample

/-- A user with two sites, who may update devices there under a policy. -/
def supervised : Db :=
  overlay overseen [⟨.grant "t" "r" "device.update", some .sites⟩,
    ⟨.memberSite "t" "u" "s2", some ()⟩,
    ⟨.policySite "t" "p" "s2", some ()⟩]

def twoSites : Tables := overlay (deviceTables none) [⟨.site "s2", some ⟨"t", "s2", 1, none⟩⟩]

def relocation : WriteOp := .transfer ⟨"d", "s2", 1⟩

theorem relocation_commits :
    ((writeProgram supervised 0 reader.principal relocation).run twoSites).isOk = true := by
  decide +kernel

/-- A transfer within the scope. -/
theorem relocation_confined : ∃ scope id row,
    currentScope supervised 0 reader.principal "device.update" = .ok scope ∧
      Change "t" scope relocation twoSites (serve supervised 0 reader.principal twoSites relocation)
        id row := by
  cases ran : (writeProgram supervised 0 reader.principal relocation).run twoSites with
  | error failure =>
    have commits := relocation_commits
    rw [ran] at commits
    cases commits
  | ok result =>
    exact (device_writes_confined supervised 0 reader.principal twoSites relocation).2 result ran

end Sample

end Biz.Devices
