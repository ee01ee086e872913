import Biz.Access.BusinessScope
import Biz.Access.Footprints
import Biz.Library.Rfc3339

/-!
# Data policies and the roles under them

The calls that write a data policy, and those that create a role, replace its
permissions or set the policy it references. Every call that writes a role raises its
version, except those that give a role from before codes its code, and they leave the
reference alone. So along a run a role with one identifier and one version references
one policy, if no identifier is used twice.
-/

namespace Biz.Access

open Checks Runs Text Isolation
open Time (Instant)

/-! ## Data policies -/

/-- `normalizePolicySites`. -/
def normalizePolicySites (values : List String) : Except Failure (List String) := do
  let trimmed := values.map trimSpace
  require .invalidPolicy (∀ value ∈ trimmed, value ≠ "" ∧ value.utf8ByteSize ≤ 160)
  return trimmed.dedup.insertionSort (· ≤ ·)

/-- An optional moment of a request. -/
def parsePolicyTime (text : String) : Except Failure (Option Instant) :=
  if trimSpace text = "" then .ok none
  else (found .invalidPolicy (Rfc3339.parse (trimSpace text))).map some

/-- `policyWindow`. -/
def policyWindow (notBefore expiresAt : String) :
    Except Failure (Option Instant × Option Instant) := do
  let start ← parsePolicyTime notBefore
  let finish ← parsePolicyTime expiresAt
  require .invalidPolicy (∀ first ∈ start, ∀ last ∈ finish, first < last)
  return (start, finish)

/-- The content of a request to create or to update a policy. -/
structure PolicyRequest where
  name : String
  siteIds : List String
  notBefore : String
  expiresAt : String

/-- What the request says once it is checked: the sites and the window. -/
structure PolicyContent where
  siteIds : List String
  notBefore : Option Instant
  expiresAt : Option Instant

/-- The checks of the service before it opens the transaction. The directory answers
whether all of the sites may be assigned. -/
def PolicyRequest.check (directory : List String → Bool) (request : PolicyRequest) :
    Except Failure PolicyContent := do
  let sites ← normalizePolicySites request.siteIds
  require .policyUnavailable (sites = [] ∨ directory sites = true)
  let (notBefore, expiresAt) ← policyWindow request.notBefore request.expiresAt
  return ⟨sites, notBefore, expiresAt⟩

/-- `DataPolicy.Apply`; the sites and the window have passed its checks before. -/
def PolicyRequest.apply (request : PolicyRequest) (status : PolicyStatus) :
    Except Failure String := do
  require .invalidPolicy (status ≠ .revoked)
  require .invalidPolicy (trimSpace request.name ≠ "" ∧ (trimSpace request.name).length ≤ 100)
  return trimSpace request.name

/-- A policy of the tenant. -/
def Db.policy? (db : Db) (tenant id : String) : Option PolicyRecord := db.lookup (.policy tenant id)

/-- `TenantDataPolicyRepository.replaceSites`. -/
def replacePolicySites (tenant policy : String) (sites : List String) : Tx Unit := do
  deleteRows fun db => (db.policySitesOf tenant policy).map fun site =>
    .policySite tenant policy site
  modify fun _ => return ((), sites.map fun site => ⟨.policySite tenant policy site, some ()⟩)

/-- `CreateTenantDataPolicy`; a request may name the policy, else a new identifier is
drawn. -/
def createTenantDataPolicy (directory : List String → Bool) (principal : Principal)
    (policyId drawn : String) (request : PolicyRequest) : Tx Unit := do
  let tenant ← lift (trustedTenantId principal)
  let content ← lift (request.check directory)
  let id := if trimSpace policyId = "" then drawn else trimSpace policyId
  demand .invalidPolicy
    (trimSpace id ≠ "" ∧ (trimSpace id).utf8ByteSize ≤ 160 ∧ trimSpace tenant ≠ "")
  let name ← lift (request.apply .active)
  modify fun db => do
    require .duplicateKey (Key.policy tenant (trimSpace id) ∉ db)
    return ((), [⟨.policy tenant (trimSpace id),
      some ⟨name, .active, 1, content.notBefore, content.expiresAt, Nat.one_ne_zero⟩⟩])
  replacePolicySites tenant (trimSpace id) content.siteIds

variable (tenant id : String)

/-- A locking read of one policy. -/
def lockPolicy : Tx PolicyRecord :=
  lock (fun db => db.present [.policy tenant id]) fun db =>
    found .policyNotFound (db.policy? tenant id)

/-- A policy is written only in the version that was asked for. -/
def updatePolicy (expectedVersion : Nat) (change : PolicyRecord → PolicyRecord) : Tx Unit :=
  modify fun db => do
    let row ← found .policyConflict (db.policy? tenant id)
    require .policyConflict (row.version = expectedVersion)
    return ((), [⟨.policy tenant id, some (change row)⟩])

/-- `UpdateTenantDataPolicy`. -/
def updateTenantDataPolicy (directory : List String → Bool) (principal : Principal)
    (policyId : String) (version : Nat) (request : PolicyRequest) : Tx Unit := do
  demand .invalidRoleRequest (trimSpace policyId ≠ "" ∧ version ≠ 0)
  let tenant ← lift (trustedTenantId principal)
  let content ← lift (request.check directory)
  let id := trimSpace policyId
  let current ← read fun db => found .policyNotFound (db.policy? tenant id)
  demand .policyConflict (current.version = version)
  let name ← lift (request.apply current.status)
  let locked ← lockPolicy tenant id
  demand .policyConflict (locked.version = version)
  demand .policyUnavailable (locked.status = .active)
  updatePolicy tenant id version fun row => { row with
    name := name
    notBefore := content.notBefore
    expiresAt := content.expiresAt
    version := row.version + 1
    versioned := Nat.succ_ne_zero _ }
  replacePolicySites tenant id content.siteIds

variable (principal : Principal)

/-- `RevokeTenantDataPolicy`. -/
def revokeTenantDataPolicy (policyId : String) (version : Nat) : Tx Unit := do
  demand .invalidRoleRequest (trimSpace policyId ≠ "" ∧ version ≠ 0)
  let tenant ← lift (trustedTenantId principal)
  let id := trimSpace policyId
  let locked ← lockPolicy tenant id
  demand .policyConflict (locked.version = version)
  demand .policyUnavailable (locked.status = .active)
  updatePolicy tenant id version fun row => { row with
    status := .revoked
    version := row.version + 1
    versioned := Nat.succ_ne_zero _ }

/-! ## Roles -/

/-- `CreateTenantRole`. The receipt under which a repeated request finds its first result
is not a row here; a request that finds one writes nothing. -/
def createTenantRole (id name description : String) : Tx Unit := do
  demand .invalidRoleRequest (trimSpace name ≠ "" ∧ (trimSpace name).length ≤ 100 ∧
    (trimSpace description).length ≤ 120 ∧ trimSpace name ∉ reservedRoleNames)
  let tenant ← lift (trustedTenantId principal)
  demand .invalidRoleRequest (principal.tenantId = tenant)
  insertRole id ⟨tenant, trimSpace name, trimSpace description, none, false, none, .active, 1⟩

/-- `permissionGrantInputs`; a scope that the request leaves open is none. -/
def permissionGrantInputs (inputs : List (String × Option DataScope)) :
    Except Failure (List (String × DataScope)) := do
  let grants ← inputs.mapM fun (permission, scope) => do
    require Failure.invalidRoleRequest (trimSpace permission ≠ "")
    let scope ← found .invalidRoleRequest scope
    return (trimSpace permission, scope)
  require .invalidRoleRequest (grants.map Prod.fst).Nodup
  return grants.insertionSort fun first second => first.1 ≤ second.1

variable (grants : List (String × DataScope))

/-- `containsOwnerRequiredPermissions`. -/
def containsOwnerRequiredPermissions : Bool :=
  ownerRequiredPermissions.all fun permission => decide ((permission, DataScope.all) ∈ grants)

/-- The grants of a role. -/
def Db.grantsOf (db : Db) (tenant role : String) : List (String × DataScope) :=
  db.entries.filterMap fun
    | ⟨.grant home id permission, scope⟩ =>
      if home = tenant ∧ id = role then some (permission, scope) else none
    | _ => none

/-- One grant of the loop of `ReplacePermissions`. -/
def replaceGrant (tenant role : String) (existing : List (String × DataScope))
    (grant : String × DataScope) : Tx Unit :=
  match existing.lookup grant.1 with
  | none => modify fun db => do
      require .duplicateKey (Key.grant tenant role grant.1 ∉ db)
      return ((), [⟨.grant tenant role grant.1, some grant.2⟩])
  | some scope => whenever (scope ≠ grant.2) <| modify fun db =>
      return ((), if Key.grant tenant role grant.1 ∈ db then
        [⟨.grant tenant role grant.1, some grant.2⟩] else [])

/-- A role is written only in the version that was asked for. -/
def reviseRole (expectedVersion : Nat) (change : RoleRecord → RoleRecord) : Tx Unit :=
  modify fun db => do
    let row ← found .roleConflict (db.role? tenant id)
    require .roleConflict (row.version = expectedVersion)
    return ((), [⟨.role id, some { change row with version := row.version + 1 }⟩])

/-- `TenantRoleRepository.ReplacePermissions`. -/
def replacePermissions (expectedVersion : Nat) : Tx Unit := do
  demand .invalidRoleRequest (expectedVersion ≠ 0)
  let locked ← lockRole tenant id
  demand .roleConflict (locked.version = expectedVersion)
  let existing ← lock (fun db => (db.grantsOf tenant id).map fun grant => .grant tenant id grant.1)
    fun db => .ok (db.grantsOf tenant id)
  let removed := (existing.map Prod.fst).filter fun permission => permission ∉ grants.map Prod.fst
  deleteRows fun _ => removed.map fun permission => .grant tenant id permission
  forM grants (replaceGrant tenant id existing)
  reviseRole tenant id expectedVersion fun row => row

/-- `SetTenantRolePermissions`. -/
def setTenantRolePermissions (roleId : String) (version : Nat)
    (permissions : List (String × Option DataScope)) : Tx Unit := do
  demand .invalidRoleRequest (trimSpace roleId ≠ "" ∧ version ≠ 0)
  let tenant ← lift (trustedTenantId principal)
  let grants ← lift (permissionGrantInputs permissions)
  let current ← read fun db => db.getRole tenant (trimSpace roleId)
  demand .roleConflict (current.version = version)
  demand .protectedOwnerRole
    (current.isOwner = true → containsOwnerRequiredPermissions grants = true)
  replacePermissions tenant (trimSpace roleId) grants version

/-- The policy that a role is to reference, locked and in effect. -/
def acceptPolicy (tenant policyId : String) (policyVersion : Nat) (now : Instant) : Tx Unit := do
  let row ← lock (fun db => db.present [.policy tenant policyId]) fun db =>
    found .policyUnavailable (db.policy? tenant policyId)
  demand .policyConflict (row.version = policyVersion)
  let policy ← read fun db => .ok (⟨policyId, tenant, row.status, row.version, row.notBefore,
    row.expiresAt, db.policySitesOf tenant policyId⟩ : DataPolicy)
  demand .policyUnavailable (policy.effectiveAt now = true)

/-- `SetTenantRoleDataPolicy` through `TenantRoleRepository.SetDataPolicy`; a blank policy
takes the reference away. -/
def setTenantRoleDataPolicy (roleId : String) (version : Nat)
    (policyId : String) (policyVersion : Nat) (now : Instant) : Tx Unit := do
  demand .invalidRoleRequest (trimSpace roleId ≠ "" ∧ version ≠ 0)
  demand .invalidRoleRequest (trimSpace policyId = "" ↔ policyVersion = 0)
  let tenant ← lift (trustedTenantId principal)
  let locked ← lockRole tenant (trimSpace roleId)
  demand .roleConflict (locked.version = version)
  whenever (trimSpace policyId ≠ "") (acceptPolicy tenant (trimSpace policyId) policyVersion now)
  reviseRole tenant (trimSpace roleId) version fun row => { row with
    dataPolicyId := if trimSpace policyId = "" then none else some (trimSpace policyId) }

/-! ## The calls among each other -/

/-- A transaction that writes no role. -/
abbrev Aloof (code : Tx Unit) : Prop := Emits (fun write => ∀ id, write.1 ≠ .role id) code

/-- The calls that write a role or a policy, and any other call. -/
inductive RoleOp
  | bootstrap (tenant user : String)
  | create (principal : Principal) (id name description : String)
  | change (principal : Principal) (role : String) (version : Nat) (change : RoleChange)
  | delete (principal : Principal) (role : String) (version : Nat)
  | setPermissions (principal : Principal) (role : String) (version : Nat)
      (permissions : List (String × Option DataScope))
  | setPolicy (principal : Principal) (role : String) (version : Nat) (policy : String)
      (policyVersion : Nat) (now : Instant)
  | createPolicy (principal : Principal) (policy drawn : String) (request : PolicyRequest)
  | updatePolicy (principal : Principal) (policy : String) (version : Nat) (request : PolicyRequest)
  | revokePolicy (principal : Principal) (policy : String) (version : Nat)
  | other (code : Tx Unit) (aloof : Aloof code)

/-- The transaction of each call. -/
def roleProgram (directory : List String → Bool) : RoleOp → Tx Unit
  | .bootstrap tenant user => bootstrapOwnerRole tenant user
  | .create principal id name description => createTenantRole principal id name description
  | .change principal role version change => changeTenantRole principal role version change
  | .delete principal role version => deleteTenantRole principal role version
  | .setPermissions principal role version permissions =>
    setTenantRolePermissions principal role version permissions
  | .setPolicy principal role version policy policyVersion now =>
    setTenantRoleDataPolicy principal role version policy policyVersion now
  | .createPolicy principal policy drawn request =>
    createTenantDataPolicy directory principal policy drawn request
  | .updatePolicy principal policy version request =>
    updateTenantDataPolicy directory principal policy version request
  | .revokePolicy principal policy version => revokeTenantDataPolicy principal policy version
  | .other code _ => code

abbrev RoleSystem := Isolation.System Row Failure Unit RoleOp

abbrev RoleEvent := Isolation.Event RoleOp

/-- The steps of these calls, in any interleaving. -/
abbrev RoleSteps (directory : List String → Bool) : RoleSystem → RoleEvent → RoleSystem → Prop :=
  Isolation.Steps (roleProgram directory)

/-! ## What becomes of a role -/

/-- The version grows, or the reference to a policy stays. -/
def RoleRecord.Ages (before after : RoleRecord) : Prop :=
  before.version < after.version ∨
    (after.version = before.version ∧ after.dataPolicyId = before.dataPolicyId)

/-- What a call may do to a row; whether it deletes and inserts roles is said apart. -/
def Ages (deletes inserts : Prop) : (key : Key) → Option (Row key) → Option (Row key) → Prop
  | .role _, some before, some after => before.Ages after
  | .role _, some _, none => deletes
  | .role _, none, some _ => inserts
  | _, _, _ => True

/-- Ageing is transitive. -/
theorem RoleRecord.Ages.trans {first second third : RoleRecord} (early : first.Ages second)
    (late : second.Ages third) : first.Ages third := by
  unfold RoleRecord.Ages at *
  grind

variable {deletes inserts : Prop}

/-- A row may stay. -/
theorem ages_refl (key : Key) (row : Option (Row key)) : Ages deletes inserts key row row := by
  cases key with
  | role id =>
    cases row with
    | none => trivial
    | some row => exact .inr ⟨rfl, rfl⟩
  | _ => trivial

/-- Changes of a row compose if roles are not both deleted and inserted. -/
theorem ages_trans (apart : ¬(deletes ∧ inserts)) (key : Key)
    (first second third : Option (Row key)) (early : Ages deletes inserts key first second)
    (late : Ages deletes inserts key second third) : Ages deletes inserts key first third := by
  cases key with
  | role id =>
    match first, second, third with
    | some _, some _, some _ => exact RoleRecord.Ages.trans early late
    | some _, some _, none => exact late
    | some _, none, some _ => exact absurd ⟨early, late⟩ apart
    | some _, none, none => exact early
    | none, some _, some _ => exact early
    | none, none, some _ => exact late
    | none, _, none => trivial
  | _ => trivial

/-- A call that changes the rows it finds only in this way. -/
abbrev Maturing (deletes inserts : Prop) {α : Type} (code : Tx α) : Prop :=
  Bounds (fun _ => True)
    (fun view write => Ages deletes inserts write.1 (view.lookup write.1) write.2) code

section Calls

variable {tenant policy role : String} {deletes inserts : Prop} {principal : Principal}
  {directory : List String → Bool} {version : Nat} {change : RoleRecord → RoleRecord}

/-- The other calls leave the roles alone. -/
theorem maturing_other {code : Tx Unit} (aloof : Aloof code) : Maturing deletes inserts code := by
  apply (emits_iff.mp aloof).mono
  rintro view ⟨key, _⟩ other
  cases key with
  | role id => exact absurd rfl (other id)
  | _ => trivial

/-- A new policy changes no role. -/
theorem maturing_createPolicy {drawn : String} {request : PolicyRequest} :
    Maturing deletes inserts (createTenantDataPolicy directory principal policy drawn request) := by
  simp [createTenantDataPolicy, replacePolicySites, deleteRows, Ages, -bind_pure_comp]

/-- An updated policy changes no role. -/
theorem maturing_updatePolicy {request : PolicyRequest} :
    Maturing deletes inserts
      (updateTenantDataPolicy directory principal policy version request) := by
  simp [updateTenantDataPolicy, lockPolicy, updatePolicy, replacePolicySites, deleteRows, Ages,
    -bind_pure_comp]
  grind [Ages]

/-- A revoked policy changes no role. -/
theorem maturing_revokePolicy :
    Maturing deletes inserts (revokeTenantDataPolicy principal policy version) := by
  simp [revokeTenantDataPolicy, lockPolicy, updatePolicy, -bind_pure_comp]
  grind [Ages]

/-- A role is inserted where none is. -/
theorem maturing_insertRole (allowed : inserts) {id : String} {row : RoleRecord} :
    Maturing deletes inserts (insertRole id row) := by
  simp only [insertRole, bounds_modify]
  intro view _ _ writes outcome write listed
  obtain ⟨_, checked, returned⟩ := bind_ok.mp outcome
  cases returned
  cases List.mem_singleton.mp listed
  rw [AList.lookup_eq_none.mpr (require_ok.mp checked).1]
  exact allowed

/-- A new code keeps the version and the policy. -/
theorem maturing_codeRole {id : String} (kept : ∀ row,
      (change row).version = row.version ∧ (change row).dataPolicyId = row.dataPolicyId) :
    Maturing deletes inserts (codeRole tenant id change) := by
  simp only [codeRole, bounds_modify]
  intro view _ _ writes outcome write listed
  split at outcome
  · cases outcome
    cases listed
  · rename_i row seen
    obtain ⟨_, _, returned⟩ := bind_ok.mp outcome
    cases returned
    cases List.mem_singleton.mp listed
    rw [(role?_eq_some.mp seen).1]
    exact .inr (kept row)

/-- A revision raises the version. -/
theorem maturing_reviseRole {id : String} :
    Maturing deletes inserts (reviseRole tenant id version change) := by
  simp only [reviseRole, bounds_modify]
  intro view _ _ writes outcome write listed
  obtain ⟨_, seen, checked⟩ := bind_ok.mp outcome
  obtain ⟨_, _, returned⟩ := bind_ok.mp checked
  cases returned
  cases List.mem_singleton.mp listed
  rw [(role?_eq_some.mp (found_ok.mp seen)).1]
  exact .inl (Nat.lt_succ_self _)

/-- A bootstrap inserts roles or renews their codes. -/
theorem maturing_bootstrap (allowed : inserts) {tenantId userId : String} :
    Maturing deletes inserts (bootstrapOwnerRole tenantId userId) := by
  have admin : Maturing deletes inserts (ensureTenantAdminRole (trimSpace tenantId)) := by
    simp only [ensureTenantAdminRole, bounds_read_bind]
    intro _ _ hit _
    cases hit with
    | some row => simp [maturing_codeRole]
    | none => exact maturing_insertRole allowed
  simp only [bootstrapOwnerRole, bounds_require_bind, bounds_read_bind]
  intro _ _ _ _ _ _ _ hit _
  cases hit with
  | some row =>
    simp only [bounds_require_bind, bounds_whenever_bind]
    refine fun _ => ⟨fun _ => Bounds.bind (maturing_codeRole fun _ => ⟨rfl, rfl⟩) ?_, fun _ => ?_⟩
    · exact fun _ => Bounds.bind admin (by simp [Ages])
    · exact Bounds.bind admin (by simp [Ages])
  | none =>
    apply Bounds.bind (maturing_insertRole allowed)
    exact fun _ => Bounds.bind admin (by simp [Ages])

/-- A creation inserts one role. -/
theorem maturing_create (allowed : inserts) {id name description : String} :
    Maturing deletes inserts (createTenantRole principal id name description) := by
  simp [createTenantRole, maturing_insertRole allowed]

/-- A change revises the role. -/
theorem maturing_change {change : RoleChange} :
    Maturing deletes inserts (changeTenantRole principal role version change) := by
  have revise : ∀ tenant id (name description : String) status,
      Maturing deletes inserts (reviseRole tenant id version fun row => { row with
        name := name, description := description, status := status }) :=
    fun _ _ _ _ _ => maturing_reviseRole
  unfold reviseRole at revise
  simp [changeTenantRole, updateRole, lockRole, checkUnused, revise, -bounds_modify,
    -bind_pure_comp]

/-- A deletion only removes the role. -/
theorem maturing_delete (allowed : deletes) :
    Maturing deletes inserts (deleteTenantRole principal role version) := by
  simp [deleteTenantRole, deleteRole, lockRole, checkUnused]
  intros
  constructor
  · grind [Ages]
  · intro view
    split
    · rename_i row seen
      split
      · simp [(role?_eq_some.mp seen).1, Ages, allowed]
      · simp
    · simp

/-- Grants are no roles. -/
theorem maturing_replaceGrant {existing : List (String × DataScope)} {grant : String × DataScope} :
    Maturing deletes inserts (replaceGrant tenant role existing grant) := by
  unfold replaceGrant
  split
  · simp [Ages, -bind_pure_comp]
  · simp
    grind [Ages]

/-- New permissions revise the role. -/
theorem maturing_setPermissions {permissions : List (String × Option DataScope)} :
    Maturing deletes inserts (setTenantRolePermissions principal role version permissions) := by
  simp only [setTenantRolePermissions, replacePermissions, lockRole, bounds_require_bind,
    bounds_lift_bind, bounds_read_bind, bounds_lock_bind]
  intros
  apply Bounds.bind (bounds_deleteRows fun _ _ => trivial)
  intro _
  apply Bounds.bind (bounds_forM fun _ _ => maturing_replaceGrant)
  exact fun _ => maturing_reviseRole

/-- A new reference to a policy revises the role. -/
theorem maturing_setPolicy {policyVersion : Nat} {now : Instant} :
    Maturing deletes inserts
      (setTenantRoleDataPolicy principal role version policy policyVersion now) := by
  simp [setTenantRoleDataPolicy, lockRole, acceptPolicy, maturing_reviseRole]

end Calls

/-! ## Along a run -/

/-- What every call promises: no role changes its policy without a new version. -/
def RolePromise (_ : RoleOp) (_ : List Key) (before after : Db) : Prop :=
  ∀ key, Ages True True key (before.lookup key) (after.lookup key)

/-- Where deletions and insertions are allowed, more may happen. -/
theorem ages_weaken (key : Key) (before after : Option (Row key))
    (aged : Ages deletes inserts key before after) : Ages True True key before after := by
  cases key with
  | role id =>
    match before, after with
    | some _, some _ => exact aged
    | some _, none => trivial
    | none, some _ => trivial
    | none, none => trivial
  | _ => trivial

section Runs

variable {directory : List String → Bool}

/-- No call both deletes and inserts roles. -/
theorem maturing_roleProgram (op : RoleOp) : Maturing True False (roleProgram directory op) ∨
    Maturing False True (roleProgram directory op) := by
  cases op with
  | bootstrap tenant user => exact .inr (maturing_bootstrap trivial)
  | create principal id name description => exact .inr (maturing_create trivial)
  | change principal role version change => exact .inl maturing_change
  | delete principal role version => exact .inl (maturing_delete trivial)
  | setPermissions principal role version permissions => exact .inl maturing_setPermissions
  | setPolicy principal role version policy policyVersion now => exact .inl maturing_setPolicy
  | createPolicy principal policy drawn request => exact .inl maturing_createPolicy
  | updatePolicy principal policy version request => exact .inl maturing_updatePolicy
  | revokePolicy principal policy version => exact .inl maturing_revokePolicy
  | other code aloof => exact .inl (maturing_other aloof)

/-- What holds of every state of the calls: each of them in flight will keep its promise. -/
abbrev RolesSound : RoleSystem → Prop := Sound RolePromise (fun _ _ _ _ => True) fun _ => True

/-- Every run keeps what holds of every state. -/
theorem rolesSound_run {first last : RoleSystem} {events : List RoleEvent}
    (sound : RolesSound first)
    (run : Run (RoleSteps directory) first events last) : RolesSound last := by
  have admitted : ∀ id op, Isolation.Event.start id op ∈ events → True := fun _ _ _ => trivial
  apply sound_of_run (fun _ _ _ _ _ _ => trivial) _ (run_admitted admitted run)
    sound
  intro op _ committed _
  rcases @maturing_roleProgram directory op with deleting | inserting
  · exact deleting.settles ages_refl (ages_trans And.right)
      (fun _ _ _ aged key => ages_weaken key _ _ (aged key)) committed
  · exact inserting.settles ages_refl (ages_trans And.left)
      (fun _ _ _ aged key => ages_weaken key _ _ (aged key)) committed

/-- No step brings back a role that the base had and that is gone. Identifiers of roles
are drawn at random. -/
def Unrevived (directory : List String → Bool) (base : Db) (system : RoleSystem)
    (event : RoleEvent) : Prop :=
  ∀ after ∈ step (roleProgram directory) system event, ∀ id, Key.role id ∈ base →
    Key.role id ∉ system.committed → Key.role id ∉ after.committed

/-- The identifiers of all roles. -/
def Db.roleIds (db : Db) : List String :=
  db.select fun
    | .role id => some id
    | _ => none

/-- The query finds exactly the roles. -/
theorem mem_roleIds {db : Db} {id : String} : id ∈ db.roleIds ↔ Key.role id ∈ db :=
  mem_select Key.role fun key value => by cases key <;> grind

instance (base : Db) (system : RoleSystem) (event : RoleEvent) :
    Decidable (Unrevived directory base system event) :=
  decidable_of_iff (∀ after ∈ step (roleProgram directory) system event,
    ∀ id ∈ base.roleIds, Key.role id ∉ system.committed → Key.role id ∉ after.committed)
    (by simp only [mem_roleIds, Unrevived])

/-- The roles of the base that are still there have aged. -/
def Aged (base now : Db) : Prop :=
  ∀ id before after, base.lookup (.role id) = some before → now.lookup (.role id) = some after →
    before.Ages after

/-- A step that revives no role ages the roles. -/
theorem aged_step {base : Db} {system after : RoleSystem} {event : RoleEvent}
    (sound : RolesSound system) (aged : Aged base system.committed)
    (taken : RoleSteps directory system event after)
      (fresh : Unrevived directory base system event) :
    Aged base after.committed := by
  intro id first last there found
  have kept := related_of_step
    (fun before after => ∀ key, Ages True True key (before.lookup key) (after.lookup key))
    (fun rows key => ages_refl key (rows.lookup key)) (fun _ _ _ _ promised => promised) sound taken
    (.role id)
  rw [found] at kept
  cases before : system.committed.lookup (.role id) with
  | some row =>
    rw [before] at kept
    exact (aged id first row there before).trans kept
  | none =>
    have present : ∀ {db : Db} {row}, db.lookup (.role id) = some row → Key.role id ∈ db :=
      fun found => AList.lookup_isSome.mp (Option.isSome_of_eq_some found)
    exact absurd (present found)
      (fresh after taken id (present there) (AList.lookup_eq_none.mp before))

/-- The run lemma: between two instants a role that keeps its version keeps its policy. -/
theorem aged_run {start : Db} {events later : List RoleEvent} {first last : RoleSystem}
    (reached : Run (RoleSteps directory) (quiet start) events first)
    (onward : Run (Guarded (RoleSteps directory) (Unrevived directory first.committed)) first later
      last) : Aged first.committed last.committed := by
  have start : Aged first.committed first.committed := by
    intro id before after there found
    rw [there] at found
    cases found
    exact .inr ⟨rfl, rfl⟩
  have sound : RolesSound first := rolesSound_run (sound_quiet trivial) reached
  refine onward.invariant_under
    (fun _ _ _ sound taken => rolesSound_run sound (.step taken.1 (.done _))) ?_ sound start
  rintro system event after sound aged ⟨taken, fresh⟩
  exact aged_step sound aged taken fresh

end Runs

end Biz.Access
