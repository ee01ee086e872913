import Biz.Access.Tables

/-!
# Roles of a tenant

The role repository and the role service, statement by statement. A service call is
one root transaction; the repository calls of one service call, and those of the
services it calls, run in it. Consecutive plain reads see one snapshot and are one
read here. The permissions of a role and its reference to a data policy are returned
to the caller and not read again by these calls, so a role does not carry them.
-/

namespace Biz.Access

open Checks Text

/-- The caller. -/
structure Principal where
  tenantId : String
  userId : String
  roles : List String
  authenticated : Bool

variable (principal : Principal)

def trustedTenantId : Except Failure String := do
  require .contextRequired (principal.authenticated = true ∧ trimSpace principal.tenantId ≠ "")
  return trimSpace principal.tenantId

def tenantOwnerRoleName : String := "owner"
def tenantAdminRoleName : String := "tenant_admin"
def tenantOwnerRoleCode : String := "tenant_owner"
def tenantAdminRoleCode : String := "tenant_admin"

/-- The names that only a system role has. -/
def reservedRoleNames : List String :=
  [tenantOwnerRoleName, tenantAdminRoleName, tenantOwnerRoleCode, tenantAdminRoleCode]

structure Role where
  id : String
  tenantId : String
  name : String
  description : String
  code : Option RoleCode
  system : Bool
  memberCount : Nat
  status : RoleStatus
  version : Nat

namespace Role

variable (role : Role)

def isOwner : Bool :=
  role.code = some .tenantOwner || (role.code = none && role.name = tenantOwnerRoleName)

def isSystemRole : Bool := role.system || role.code.isSome

def rename (name : String) : Except Failure Role := do
  require .invalidRoleTransition (role.status ≠ .disabled ∧ role.isSystemRole = false ∧
    trimSpace name ≠ "" ∧ trimSpace name ∉ reservedRoleNames)
  return { role with name := trimSpace name }

def updateDescription (description : String) : Except Failure Role := do
  require .protectedSystemRole (role.isSystemRole = false)
  require .invalidRoleTransition ((trimSpace description).length ≤ 120)
  return { role with description := trimSpace description }

def disable : Except Failure Role := do
  require .invalidRoleTransition (role.status = .active)
  require .protectedOwnerRole (role.isOwner = false)
  require .protectedSystemRole (role.isSystemRole = false)
  return { role with status := .disabled }

def enable : Except Failure Role := do
  require .invalidRoleTransition (role.status = .disabled)
  require .protectedSystemRole (role.isSystemRole = false)
  return { role with status := .active }

end Role

/-- `isOwnerRoleRecord`; the name stands in for the code of a role from before codes. -/
def RoleRecord.isOwner (row : RoleRecord) : Bool :=
  row.roleCode = some .tenantOwner || (row.roleCode = none && row.name = tenantOwnerRoleName)

namespace Db

variable (db : Db)

def memberCount (tenant role : String) : Nat := (db.holders tenant role).length

def roleFromRecord (id : String) (row : RoleRecord) : Role where
  id := id
  tenantId := row.tenantId
  name := row.name
  description := row.description
  code := row.roleCode
  system := row.systemRole
  memberCount := db.memberCount row.tenantId id
  status := row.status
  version := row.version

/-- `TenantRoleRepository.Get`. -/
def getRole (tenant id : String) : Except Failure Role := do
  let row ← found .roleNotFound (db.role? tenant id)
  return db.roleFromRecord id row

/-- The roles of the tenant that count as its owner role. -/
def ownerRoles (tenant : String) : List String :=
  db.select fun
    | .role id => if (db.role? tenant id).any RoleRecord.isOwner then some id else none
    | _ => none

/-- The first owner role by its primary key. -/
def ownerRole (tenant : String) : Option String := (db.ownerRoles tenant).min?

/-- Whether a user is an active member of the tenant. -/
def activeMember (tenant user : String) : Bool :=
  (db.membership? tenant user).any fun row => row.status = .active

/-- The holders of a role whose membership is active. -/
def activeHolders (tenant role : String) : List String :=
  (db.holders tenant role).filter (db.activeMember tenant)

end Db

theorem activeMember_iff {db : Db} {tenant user : String} : db.activeMember tenant user = true ↔
    ∃ row, db.membership? tenant user = some row ∧ row.status = .active := by
  simp [Db.activeMember, Option.any_eq_true]

theorem mem_ownerRoles {db : Db} {tenant id : String} :
    id ∈ db.ownerRoles tenant ↔ ∃ row, db.role? tenant id = some row ∧ row.isOwner = true := by
  simp only [Db.ownerRoles, Db.select, List.mem_filterMap]
  constructor
  · rintro ⟨key, _, picked⟩
    cases key with
    | role other =>
      simp only [Option.ite_none_right_eq_some, Option.any_eq_true, Option.some.injEq] at picked
      obtain ⟨⟨row, found, isOwner⟩, rfl⟩ := picked
      exact ⟨row, found, isOwner⟩
    | _ => cases picked
  · rintro ⟨_, found, isOwner⟩
    have present : Key.role id ∈ db :=
      AList.lookup_isSome.mp (Option.isSome_of_eq_some (role?_eq_some.mp found).1)
    refine ⟨.role id, present, ?_⟩
    simp [found, isOwner]

/-! ## The repository -/

variable (tenant id : String)

/-- A locking read of one role by its identifier. -/
def lockRole : Tx RoleRecord :=
  lock (fun db => db.present [.role id]) fun db => found .roleNotFound (db.role? tenant id)

/-- A role is disabled or deleted only while the plain count of its members is zero. -/
def checkUnused : Tx Unit := do
  let count ← read fun db => .ok (db.memberCount tenant id)
  demand .roleInUse (count = 0)

/-- `TenantRoleRepository.Update`. -/
def updateRole (role : Role) (expectedVersion : Nat) : Tx Unit := do
  demand .invalidRoleRequest (expectedVersion ≠ 0)
  let locked ← lockRole role.tenantId role.id
  demand .roleConflict (locked.version = expectedVersion)
  demand .roleProtected (locked.systemRole = true →
    locked.name = role.name ∧ locked.description = role.description ∧ locked.status = role.status)
  whenever (locked.status = .active ∧ role.status = .disabled)
    (checkUnused role.tenantId role.id)
  modify fun db => do
    let row ← found .roleConflict (db.role? role.tenantId role.id)
    require .roleConflict (row.version = expectedVersion)
    return ((), [⟨.role role.id, some { row with
      name := role.name
      description := role.description
      status := role.status
      version := row.version + 1 }⟩])

/-- `TenantRoleRepository.Delete`. -/
def deleteRole (expectedVersion : Nat) : Tx Unit := do
  demand .invalidRoleRequest (trimSpace tenant ≠ "" ∧ trimSpace id ≠ "" ∧ expectedVersion ≠ 0)
  let locked ← lockRole tenant id
  demand .roleConflict (locked.version = expectedVersion)
  demand .roleProtected (locked.systemRole = false ∧ locked.isOwner = false)
  checkUnused tenant id
  modify fun db => return ((), db.keys.filterMap fun
    | .grant tenant' role permission =>
      if tenant' = tenant ∧ role = id then some ⟨.grant tenant' role permission, none⟩ else none
    | _ => none)
  modify fun db => return ((), match db.role? tenant id with
    | some row => if row.version = expectedVersion then [⟨.role id, none⟩] else []
    | none => [])

variable (tenant role user : String)

/-- `TenantRoleRepository.AssignMember`. The membership is read without a lock. -/
def assignMember : Tx Role := do
  let _ ← lock (fun db => db.present [.role role]) fun db =>
    found Failure.roleNotFound ((db.role? tenant role).filter fun row => row.status = .active)
  let _ ← read fun db => found Failure.roleMember ((db.membership? tenant user).filter fun row =>
    row.status = .invited ∨ row.status = .active)
  -- An insert that ignores a duplicate leaves the row there either way.
  modify fun _ => return ((), [⟨.memberRole tenant user role, some ()⟩])
  read fun db => db.getRole tenant role

/-- `currentActiveOwners`: the joined rows, locked. -/
def currentActiveOwners (tenant role : String) : Tx Nat :=
  lock (fun db => (db.activeHolders tenant role).flatMap fun user =>
      [.memberRole tenant user role, .membership tenant user])
    fun db => .ok (db.activeHolders tenant role).length

/-- The last active owner stays. -/
def keepLastOwner (tenant role : String) : Tx Unit := do
  let activeOwners ← currentActiveOwners tenant role
  demand .lastTenantOwner (1 < activeOwners)

/-- A locking read of one assignment. -/
def lockAssignment : Tx Bool :=
  lock (fun db => db.present [.memberRole tenant user role]) fun db =>
    .ok (decide (Key.memberRole tenant user role ∈ db))

/-- The assignment goes, unless it is an owner's and the last. -/
def dropAssignment (owner : Bool) : Tx Unit := do
  whenever (owner = true) (keepLastOwner tenant role)
  modify fun _ => return ((), [⟨.memberRole tenant user role, none⟩])

/-- `TenantRoleRepository.RevokeMember`. -/
def revokeMember : Tx Role := do
  let row ← lockRole tenant role
  let assigned ← lockAssignment tenant role user
  whenever (assigned = true) (dropAssignment tenant role user row.isOwner)
  read fun db => db.getRole tenant role

/-- A holder of the owner role is not the last active one. -/
def assertNotLastOwner (tenant user : String) : Option String → Tx Unit
  | none => pure ()
  | some role => do
    let assigned ← lockAssignment tenant role user
    whenever (assigned = true) (keepLastOwner tenant role)

/-- `TenantRoleRepository.AssertMemberCanDeactivate`. -/
def assertMemberCanDeactivate (tenant user : String) : Tx Unit := do
  demand .invalidRoleRequest (trimSpace tenant ≠ "" ∧ trimSpace user ≠ "")
  let owner ← lock (fun db => (db.ownerRole tenant).toList.map .role) fun db =>
    .ok (db.ownerRole tenant)
  assertNotLastOwner tenant user owner

/-! ## The service -/

/-- A change that a request makes to a role. -/
inductive RoleChange
  | update (name description : String)
  | disable
  | enable

def RoleChange.apply (role : Role) : RoleChange → Except Failure Role
  | .update name description => do
    let renamed ← role.rename name
    renamed.updateDescription description
  | .disable => role.disable
  | .enable => role.enable

/-- A change keeps whose role it is, and only a disabling leaves it inactive. -/
theorem RoleChange.apply_ok {change : RoleChange} {before after : Role}
    (passed : change.apply before = .ok after) :
    after.id = before.id ∧ after.tenantId = before.tenantId ∧
      (change ≠ .disable → after.status = .active) := by
  cases change with
  | update name description =>
    obtain ⟨_, first, second⟩ := bind_ok.mp passed
    obtain ⟨_, checked, named⟩ := bind_ok.mp first
    cases named
    obtain ⟨_, _, described⟩ := bind_ok.mp second
    obtain ⟨_, _, returned⟩ := bind_ok.mp described
    cases returned
    refine ⟨rfl, rfl, fun _ => ?_⟩
    have enabled := (require_ok.mp checked).1
    cases status : before.status with
    | active => rfl
    | disabled => exact absurd status enabled
  | disable =>
    obtain ⟨_, _, first⟩ := bind_ok.mp passed
    obtain ⟨_, _, second⟩ := bind_ok.mp first
    obtain ⟨_, _, returned⟩ := bind_ok.mp second
    cases returned
    exact ⟨rfl, rfl, fun other => absurd rfl other⟩
  | enable =>
    obtain ⟨_, _, first⟩ := bind_ok.mp passed
    obtain ⟨_, _, returned⟩ := bind_ok.mp first
    cases returned
    exact ⟨rfl, rfl, fun _ => rfl⟩

/-- What the service checks of a change before it opens the transaction. -/
def RoleChange.valid : RoleChange → Bool
  | .update name description =>
    trimSpace name ≠ "" ∧ (trimSpace name).length ≤ 100 ∧ (trimSpace description).length ≤ 120
  | _ => true

/-- `UpdateTenantRole`, `DisableTenantRole` and `EnableTenantRole` through `mutateRole`:
the role is read without a lock before it is written. -/
def changeTenantRole (roleId : String) (version : Nat) (change : RoleChange) : Tx Unit := do
  demand .invalidRoleRequest (trimSpace roleId ≠ "" ∧ version ≠ 0 ∧ change.valid = true)
  let tenant ← lift (trustedTenantId principal)
  let current ← read fun db => db.getRole tenant (trimSpace roleId)
  demand .roleConflict (current.version = version)
  let changed ← lift (change.apply current)
  updateRole changed version

def deleteTenantRole (roleId : String) (version : Nat) : Tx Unit := do
  demand .invalidRoleRequest (trimSpace roleId ≠ "" ∧ version ≠ 0)
  let tenant ← lift (trustedTenantId principal)
  deleteRole tenant (trimSpace roleId) version

def assignTenantRoleMember (roleId userId : String) : Tx Unit := do
  demand .invalidRoleRequest (trimSpace roleId ≠ "" ∧ trimSpace userId ≠ "")
  let tenant ← lift (trustedTenantId principal)
  let _ ← assignMember tenant (trimSpace roleId) (trimSpace userId)

def revokeTenantRoleMember (roleId userId : String) : Tx Unit := do
  demand .invalidRoleRequest (trimSpace roleId ≠ "" ∧ trimSpace userId ≠ "")
  let tenant ← lift (trustedTenantId principal)
  let _ ← revokeMember tenant (trimSpace roleId) (trimSpace userId)

def assertTenantMemberDeactivationAllowed (userId : String) : Tx Unit := do
  demand .invalidRoleRequest (trimSpace userId ≠ "")
  let tenant ← lift (trustedTenantId principal)
  assertMemberCanDeactivate tenant (trimSpace userId)

end Biz.Access
