import Biz.Access.Roles

/-!
# Memberships

The membership repository and the member lifecycle service. What the service does to
contacts besides storing them (normalising, masking, encrypting, hashing) is a
parameter: nothing below depends on how it is done. Notifications, audit rows and web
sessions, which no modelled call reads, are left out.
-/

namespace Biz.Access

open Checks Text

/-- Encryption of contacts, when keys are configured. -/
structure Protection where
  protectEmail : String → Except Failure (String × String × String)
  protectPhone : String → Except Failure (String × String × String)
  lookupEmail : String → Except Failure String
  lookupPhone : String → Except Failure String
  decryptEmail : String → String → Except Failure String
  decryptPhone : String → String → Except Failure String

/-- What the service does to the texts of contacts and names. -/
structure Contacts where
  normalizeEmail : String → Except Failure String
  normalizePhone : String → Except Failure String
  normalizeUsername : String → Except Failure String
  lower : String → String
  equalFold : String → String → Bool
  isMasked : String → Bool
  maskEmail : String → String
  maskPhone : String → String
  protection : Option Protection

structure MemberRoleSummary where
  id : String
  name : String
  status : RoleStatus

structure Membership where
  tenantId : String
  userId : String
  email : String
  status : MemberStatus
  version : Nat
  name : String
  phone : String
  employeeId : String
  position : String
  departmentId : String
  roles : List MemberRoleSummary

namespace Membership

variable (membership : Membership)

def updateProfile (name phone employeeId position departmentId : String) :
    Except Failure Membership := do
  require .invalidMemberProfile (membership.status ≠ .removed)
  require .invalidMemberProfile ((trimSpace name).length ≤ 100 ∧ (trimSpace phone).length ≤ 40 ∧
    (trimSpace employeeId).length ≤ 64 ∧ (trimSpace position).length ≤ 100 ∧
    (trimSpace departmentId).length ≤ 64)
  return { membership with
    name := trimSpace name
    phone := trimSpace phone
    employeeId := trimSpace employeeId
    position := trimSpace position
    departmentId := trimSpace departmentId }

def activate : Except Failure Membership := do
  require .invalidMemberTransition (membership.status = .invited ∨ membership.status = .suspended)
  return { membership with status := .active }

def suspend : Except Failure Membership := do
  require .invalidMemberTransition (membership.status = .active)
  return { membership with status := .suspended }

def remove : Except Failure Membership := do
  require .invalidMemberTransition (membership.status ≠ .removed)
  return { membership with status := .removed }

def restore : Except Failure Membership := do
  require .invalidMemberTransition (membership.status = .removed)
  return { membership with status := .active }

end Membership

def defaultPersonalAvatarAssetRef : String := "avatar:coffee-blue"

/-! ## Reading -/

/-- Whether a column holds an encrypted contact. -/
def Contact.protected (contact : Contact) : Bool :=
  trimSpace contact.ciphertext ≠ "" || trimSpace contact.keyVersion ≠ "" ||
    contact.lookupHash.isSome

namespace Contacts

variable (contacts : Contacts)

/-- `userEmail`; an account without an address has a placeholder in the column. -/
def userEmail (row : UserRecord) : Except Failure String :=
  if "absent:".toList.isPrefixOf (trimSpace row.email.plain).toList then .ok ""
  else if row.email.protected then
    match contacts.protection with
    | none => .error .keyUnavailable
    | some protection => protection.decryptEmail row.email.ciphertext row.email.keyVersion
  else contacts.normalizeEmail row.email.plain

def displayUserEmail (row : UserRecord) : Except Failure String := do
  let email ← contacts.userEmail row
  return if email = "" then "" else if contacts.protection.isSome then contacts.maskEmail email
    else email

def displayMemberEmail (row : MembershipRecord) (account : UserRecord) : Except Failure String :=
  if row.email.protected then
    match contacts.protection with
    | none => .error .keyUnavailable
    | some protection => do
      let plain ← protection.decryptEmail row.email.ciphertext row.email.keyVersion
      return contacts.maskEmail plain
  else if trimSpace row.email.plain ≠ "" then do
    let normalized ← contacts.normalizeEmail row.email.plain
    return if contacts.protection.isSome then contacts.maskEmail normalized else normalized
  else contacts.displayUserEmail account

def displayPhone (row : MembershipRecord) : Except Failure String :=
  if row.phone.protected then
    match contacts.protection with
    | none => .error .keyUnavailable
    | some protection => do
      let plain ← protection.decryptPhone row.phone.ciphertext row.phone.keyVersion
      return contacts.maskPhone plain
  else
    .ok (if contacts.protection.isSome && decide (trimSpace row.phone.plain ≠ "") then
      contacts.maskPhone row.phone.plain else row.phone.plain)

end Contacts

namespace Db

variable (db : Db)

def users : List (String × UserRecord) :=
  db.entries.filterMap fun
    | ⟨.user id, row⟩ => some (id, row)
    | _ => none

def memberships (tenant : String) : List (String × MembershipRecord) :=
  db.entries.filterMap fun
    | ⟨.membership tenant' user, row⟩ => if tenant' = tenant then some (user, row) else none
    | _ => none

/-- The roles that `enrichMemberAccess` matches to a member, as texts. -/
def memberRoles (tenant user : String) : List MemberRoleSummary :=
  (db.rolesOf tenant user).filterMap fun id =>
    (db.role? tenant id).map fun row => ⟨id, row.name, row.status⟩

variable (contacts : Contacts)

def memberFromRecord (tenant user : String) (row : MembershipRecord) :
    Except Failure Membership := do
  let account ← found .recordNotFound (db.user? user)
  let email ← contacts.displayMemberEmail row account
  let phone ← contacts.displayPhone row
  return {
    tenantId := tenant
    userId := user
    email := email
    status := row.status
    version := row.version
    name := row.name
    phone := phone
    employeeId := row.employeeId
    position := row.position
    departmentId := row.departmentId
    roles := db.memberRoles tenant user }

/-- `TenantMemberRepository.Get`. -/
def getMember (tenant user : String) : Except Failure Membership := do
  let row ← found .memberNotFound (db.membership? tenant user)
  db.memberFromRecord contacts tenant user row

/-- One contact of a request, if given in the clear, is not another member's. -/
def contactFree (rows : List (String × MembershipRecord)) (contacts : Contacts) (value : String)
    (normalize : String → Except Failure String)
    (lookup : Option (String → Except Failure String)) (fold : String → String)
    (column : MembershipRecord → Contact) : Except Failure Unit := do
  if trimSpace value = "" ∨ contacts.isMasked (trimSpace value) = true then return
  let normalized ← normalize (trimSpace value)
  let hash ← lookup.mapM fun hashed => hashed normalized
  require .contactConflict (∀ row ∈ rows,
    ¬((hash.isSome ∧ (column row.2).lookupHash = hash) ∨ fold (column row.2).plain = normalized))

/-- `assertMemberContactsAvailable`. -/
def contactsAvailable (tenant user email phone : String) : Except Failure Unit := do
  let others := (db.memberships tenant).filter fun row =>
    decide (trimSpace user = "" ∨ row.1 ≠ trimSpace user)
  contactFree others contacts email contacts.normalizeEmail
    (contacts.protection.map Protection.lookupEmail) contacts.lower MembershipRecord.email
  contactFree others contacts phone contacts.normalizePhone
    (contacts.protection.map Protection.lookupPhone) id MembershipRecord.phone

/-- The unique indexes on the hashes of contacts. -/
def hashesFree (tenant user : String) (row : MembershipRecord) : Bool :=
  (db.memberships tenant).all fun other => decide (other.1 = user ∨
    ((row.email.lookupHash = none ∨ other.2.email.lookupHash ≠ row.email.lookupHash) ∧
      (row.phone.lookupHash = none ∨ other.2.phone.lookupHash ≠ row.phone.lookupHash)))

/-- `findUserByEmail`: an account by its address, with the address it stores. -/
def findUserByEmail (email : String) : Except Failure (Option (String × UserRecord × String)) := do
  let normalized ← contacts.normalizeEmail email
  let hash ← contacts.protection.mapM fun protection => protection.lookupEmail normalized
  let hit := (db.users.find? fun user => hash.isSome && user.2.email.lookupHash = hash).or
    (db.users.find? fun user => contacts.lower user.2.email.plain = contacts.lower normalized)
  match hit with
  | none => return none
  | some (id, row) =>
    let plain ← contacts.userEmail row
    return some (id, row, plain)

end Db

/-! ## Writing -/

/-- What an update does to one contact column: a masked text leaves it alone. -/
def contactUpdate (contacts : Contacts) (normalize : String → Except Failure String)
    (protect : Option (String → Except Failure (String × String × String))) (value : String) :
    Except Failure (Contact → Contact) :=
  if contacts.isMasked value = true then .ok id
  else match protect with
  | none =>
    if trimSpace value = "" then .ok fun contact => { contact with plain := "" }
    else do
      let normalized ← normalize value
      return fun contact => { contact with plain := normalized }
  | some protect =>
    if trimSpace value = "" then .ok fun _ => .blank
    else do
      let (ciphertext, lookup, version) ← protect value
      return fun _ => ⟨"", ciphertext, some lookup, version⟩

variable (tenant user : String)

/-- What a conditional update of one membership writes: the row must be there and pass
the check. -/
def membershipUpdate (refused : Failure)
    (condition : MembershipRecord → Bool) (change : MembershipRecord → MembershipRecord)
    (db : Db) : Except Failure (Unit × List Write) := do
  let row ← found .memberNotFound (db.membership? tenant user)
  require refused (condition row = true)
  require .contactConflict (db.hashesFree tenant user (change row) = true)
  return ((), [⟨.membership tenant user, some { change row with version := row.version + 1 }⟩])

def updateMembership (refused : Failure)
    (condition : MembershipRecord → Bool) (change : MembershipRecord → MembershipRecord) :
    Tx Unit :=
  modify (membershipUpdate tenant user refused condition change)

/-- `TenantMemberRepository.Update`. -/
def updateMember (contacts : Contacts) (member : Membership) (expectedVersion : Nat) :
    Tx Unit := do
  demand .invalidMemberRequest (expectedVersion ≠ 0)
  read fun db => db.contactsAvailable contacts member.tenantId member.userId member.email
    member.phone
  let email ← lift (contactUpdate contacts (fun value => contacts.normalizeEmail (trimSpace value))
    (contacts.protection.map Protection.protectEmail) member.email)
  let phone ← lift (contactUpdate contacts contacts.normalizePhone
    (contacts.protection.map Protection.protectPhone) member.phone)
  updateMembership member.tenantId member.userId .memberConflict
    (fun row => row.version = expectedVersion) fun row => { row with
      status := member.status
      name := member.name
      email := email row.email
      phone := phone row.phone
      employeeId := member.employeeId
      position := member.position
      departmentId := member.departmentId }

/-- A locking read of one membership. -/
def lockMembership : Tx MembershipRecord :=
  lock (fun db => db.present [.membership tenant user]) fun db =>
    found .memberNotFound (db.membership? tenant user)

/-- Delete the rows under the keys that a query makes. -/
def deleteRows (keys : Db → List Key) : Tx Unit :=
  modify fun db => return ((), (keys db).map fun key => ⟨key, none⟩)

/-- `TenantMemberRepository.Remove`. The roles and sites that are kept for a restore come
from plain reads; the rows that are deleted are the current ones. -/
def removeMember (member : Membership) (expectedVersion : Nat) : Tx Unit := do
  let tenant := member.tenantId
  let user := member.userId
  demand .invalidMemberRequest (expectedVersion ≠ 0)
  demand .invalidMemberTransition (member.status = .removed)
  let locked ← lockMembership tenant user
  demand .memberConflict (locked.version = expectedVersion ∧ locked.status ≠ .removed)
  deleteRows fun db => (db.removedRolesOf tenant user).map (.removedRole tenant user)
  deleteRows fun db => (db.removedSitesOf tenant user).map (.removedSite tenant user)
  let roles ← read fun db => .ok (db.rolesOf tenant user)
  modify fun _ => return ((), roles.map fun role =>
    ⟨.removedRole tenant user role, some ⟨expectedVersion + 1⟩⟩)
  let sites ← read fun db => .ok (db.sitesOf tenant user)
  modify fun _ => return ((), sites.map fun site =>
    ⟨.removedSite tenant user site, some ⟨expectedVersion + 1⟩⟩)
  deleteRows fun db => (db.rolesOf tenant user).map (.memberRole tenant user)
  deleteRows fun db => (db.sitesOf tenant user).map (.memberSite tenant user)
  updateMembership tenant user .memberConflict (fun row => row.version = expectedVersion)
    fun row => { row with status := .removed }

/-- The roles kept by the removal that left the given version, where they are active. -/
def Db.restorable (db : Db) (tenant user : String) (version : Nat) : List String :=
  ((db.removedRolesOf tenant user).filter fun role =>
    (db.lookup (.removedRole tenant user role)).any (fun row => row.removedVersion = version) &&
      (db.role? tenant role).any fun row => row.status = .active).insertionSort (· ≤ ·)

/-- `TenantMemberRepository.Restore`. -/
def restoreMember (member : Membership) (expectedVersion : Nat) : Tx (List String) := do
  let tenant := member.tenantId
  let user := member.userId
  demand .invalidMemberRequest (expectedVersion ≠ 0)
  demand .invalidMemberTransition (member.status = .active)
  let locked ← lockMembership tenant user
  demand .memberConflict (locked.version = expectedVersion ∧ locked.status = .removed)
  demand .selfDeletionIrreversible (locked.selfDeletedAt = none)
  let roles ← read fun db => .ok (db.restorable tenant user expectedVersion)
  updateMembership tenant user .memberConflict
    (fun row => row.version = expectedVersion && row.status = .removed)
    fun row => { row with status := .active }
  return roles

/-- The sites of a request: trimmed, none blank or long, once each and in order. -/
def normalizeSiteIds (failure : Failure) (values : List String) : Except Failure (List String) := do
  require failure (∀ value ∈ values, trimSpace value ≠ "" ∧ (trimSpace value).utf8ByteSize ≤ 64)
  return (values.map trimSpace).dedup.insertionSort (· ≤ ·)

variable (expectedVersion : Nat)

/-- The sites of a member are replaced, and the version of the membership moves on. -/
def replaceSites (sites : List String) : Tx Unit := do
  deleteRows fun db => (db.sitesOf tenant user).map (.memberSite tenant user)
  modify fun _ => return ((), sites.map fun site => ⟨.memberSite tenant user site, some ()⟩)
  updateMembership tenant user .memberConflict (fun row => row.version = expectedVersion) id

/-- `TenantMemberRepository.ReplaceBusinessScope`. -/
def replaceBusinessScope (siteIds : List String) : Tx Unit := do
  demand .invalidMemberRequest (expectedVersion ≠ 0)
  demand .memberNotFound (trimSpace tenant ≠ "" ∧ trimSpace user ≠ "")
  let sites ← lift (normalizeSiteIds .businessScopeUnavailable siteIds)
  let locked ← lockMembership tenant user
  demand .businessScopeUnavailable (locked.status ≠ .removed)
  demand .memberConflict (locked.version = expectedVersion)
  let current ← read fun db => .ok ((db.sitesOf tenant user).insertionSort (· ≤ ·))
  whenever (current ≠ sites) (replaceSites tenant user expectedVersion sites)

/-- `TenantMemberRepository.UpdatePersonalAvatar`. -/
def updatePersonalAvatar (avatar : String) : Tx Unit := do
  demand .invalidMemberRequest (expectedVersion ≠ 0 ∧ trimSpace tenant ≠ "" ∧ trimSpace user ≠ "" ∧
    trimSpace avatar ≠ "")
  updateMembership (trimSpace tenant) (trimSpace user) .memberConflict
    (fun row => row.status ≠ .removed && row.version = expectedVersion)
    fun row => { row with avatarAssetRef := trimSpace avatar }

/-! ## The service -/

/-- What the service is configured with besides the tables. -/
structure Config where
  contacts : Contacts
  /-- Whether the site directory of the device service knows all of these sites. -/
  assignableSites : List String → Bool

variable (config : Config)

variable (principal : Principal)

/-- `assertTenantMemberDeactivationActor`. -/
def assertTenantMemberDeactivationActor (member : Membership) : Except Failure Unit := do
  require .contextRequired (principal.authenticated = true)
  require .selfDeactivation (¬(principal.userId ≠ "" ∧ principal.userId = member.userId))
  let targetOwner := member.roles.any fun role =>
    role.name = tenantOwnerRoleName && role.status = .active
  require .protectedOwner (targetOwner = false ∨ tenantOwnerRoleName ∈ principal.roles)

/-- The suspension or removal of a member is allowed to this caller, and leaves an owner. -/
def assertDeactivation (member : Membership) : Tx Unit := do
  lift (assertTenantMemberDeactivationActor principal member)
  assertTenantMemberDeactivationAllowed principal member.userId

/-- `TenantMemberLifecycleService.mutate`. -/
def mutate (user : String) (expectedVersion : Nat)
    (beforeApply : Membership → Tx Unit) (apply : Membership → Except Failure Membership) :
    Tx Unit := do
  let tenant ← lift (trustedTenantId principal)
  let current ← read fun db => db.getMember config.contacts tenant user
  demand .memberConflict (current.version = expectedVersion)
  beforeApply current
  let changed ← lift (apply current)
  updateMember config.contacts changed expectedVersion

/-- `normalizeMemberLifecycleReason`. -/
def normalizeReason (reason : String) : Except Failure String := do
  require .invalidMemberRequest ((trimSpace reason).length ≤ 500)
  return trimSpace reason

/-- The checks of a request on one member. -/
def checkMemberRequest (user : String) (version : Nat) : Except Failure Unit :=
  require .invalidMemberRequest (trimSpace user ≠ "" ∧ version ≠ 0)

variable (userId : String) (version : Nat) (reason : String)

def suspendTenantMember : Tx Unit := do
  lift (checkMemberRequest userId version)
  let _ ← lift (normalizeReason reason)
  mutate config principal (trimSpace userId) version (assertDeactivation principal)
    Membership.suspend

/-- `AssertAdminActivationAllowed`. -/
def Db.adminActivationAllowed (db : Db) (tenant user : String) : Except Failure Unit :=
  require .activationPending ((db.activation? tenant user).all
    (fun row => decide (row.state ≠ .pending)) = true)

def activateTenantMember : Tx Unit := do
  lift (checkMemberRequest userId version)
  let _ ← lift (normalizeReason reason)
  let tenant ← lift (trustedTenantId principal)
  read fun db => do
    let current ← db.getMember config.contacts tenant (trimSpace userId)
    if current.status = .invited then db.adminActivationAllowed tenant (trimSpace userId)
  mutate config principal (trimSpace userId) version (fun _ => pure ()) Membership.activate

/-- `AssertMemberAssignmentAllowed`. -/
def Db.departmentAssignable (db : Db) (tenant department : String) : Except Failure Unit :=
  require .departmentAssignment (trimSpace department = "" ∨
    (db.lookup (.department (trimSpace department))).any
      (fun row => row.tenantId = tenant && row.status = .active) = true)

/-- The profile that a request asks for. -/
structure Profile where
  name : String
  phone : String
  employeeId : String
  position : String
  departmentId : String

def Profile.apply (profile : Profile) (member : Membership) : Except Failure Membership :=
  member.updateProfile profile.name profile.phone profile.employeeId profile.position
    profile.departmentId

def updateTenantMemberProfile (profile : Profile) : Tx Unit := do
  lift (checkMemberRequest userId version)
  let tenant ← lift (trustedTenantId principal)
  mutate config principal (trimSpace userId) version
    (fun current => whenever (trimSpace profile.departmentId ≠ trimSpace current.departmentId)
      (read fun db => db.departmentAssignable tenant profile.departmentId))
    profile.apply

def removeTenantMember : Tx Unit := do
  lift (checkMemberRequest userId version)
  let _ ← lift (normalizeReason reason)
  let tenant ← lift (trustedTenantId principal)
  let current ← read fun db => db.getMember config.contacts tenant (trimSpace userId)
  demand .memberConflict (current.version = version)
  assertDeactivation principal current
  let removed ← lift current.remove
  removeMember removed version

/-- The member as it is read back at the end of a call. -/
def readBack (tenant user : String) : Tx Unit := do
  let _ ← read fun db => db.getMember config.contacts tenant user

def restoreTenantMember : Tx Unit := do
  lift (checkMemberRequest userId version)
  let _ ← lift (normalizeReason reason)
  let tenant ← lift (trustedTenantId principal)
  let current ← read fun db => db.getMember config.contacts tenant (trimSpace userId)
  demand .memberConflict (current.version = version ∧ current.status = .removed)
  let restored ← lift current.restore
  let roles ← restoreMember restored version
  forM roles fun role => assignTenantRoleMember principal role (trimSpace userId)
  readBack config tenant (trimSpace userId)

/-- `normalizeTenantMemberRoleIDs`. -/
def normalizeRoleIds (values : List String) : Except Failure (List String) := do
  require .invalidMemberRequest (values ≠ [] ∧ (∀ value ∈ values, trimSpace value ≠ "") ∧
    (values.map trimSpace).Nodup)
  return values.map trimSpace

/-- An order in which Go iterates over a map. -/
structure Shuffle where
  order : List String → List String
  perm : ∀ items, (order items).Perm items

structure UpdateRequest where
  userId : String
  version : Nat
  email : String
  profile : Profile
  roleIds : List String
  shuffle : Shuffle

/-- `UpdateTenantMember`: the profile and the roles of a member in one transaction. -/
def updateTenantMember (request : UpdateRequest) : Tx Unit := do
  let user := trimSpace request.userId
  lift (checkMemberRequest request.userId request.version)
  let roles ← lift (normalizeRoleIds request.roleIds)
  demand .invalidMemberRequest (trimSpace request.email ≠ "" ∨ trimSpace request.profile.phone ≠ "")
  let tenant ← lift (trustedTenantId principal)
  read fun db => db.departmentAssignable tenant request.profile.departmentId
  let current ← read fun db => db.getMember config.contacts tenant user
  demand .memberConflict (current.version = request.version)
  let changed ← lift (request.profile.apply { current with email := trimSpace request.email })
  updateMember config.contacts changed request.version
  let existing := (current.roles.map MemberRoleSummary.id).dedup
  forM (roles.filter (· ∉ existing)) fun role => assignTenantRoleMember principal role user
  forM (request.shuffle.order (existing.filter (· ∉ roles))) fun role =>
    revokeTenantRoleMember principal role user
  readBack config tenant user

def setTenantMemberBusinessScope (siteIds : List String) : Tx Unit := do
  lift (checkMemberRequest userId version)
  let tenant ← lift (trustedTenantId principal)
  let sites ← lift (normalizeSiteIds .invalidMemberRequest siteIds)
  let current ← read fun db => found Failure.memberNotFound
    (db.membership? tenant (trimSpace userId))
  demand .memberConflict (current.version = version)
  demand .businessScopeUnavailable (sites = [] ∨ config.assignableSites sites = true)
  replaceBusinessScope tenant (trimSpace userId) version sites

/-! ## What the calls return -/

section Returns

variable {tenant user : String} {before after : Membership} {db : Db}

theorem trustedTenantId_ok {principal : Principal}
    (trusted : trustedTenantId principal = .ok tenant) : tenant = trimSpace principal.tenantId := by
  obtain ⟨_, _, returned⟩ := bind_ok.mp trusted
  cases returned
  rfl

theorem membershipUpdate_ok {refused : Failure} {condition : MembershipRecord → Bool}
    {change : MembershipRecord → MembershipRecord} {writes : List Write}
    (written : membershipUpdate tenant user refused condition change db = .ok ((), writes)) :
    ∃ row, db.membership? tenant user = some row ∧ condition row = true ∧
      writes = [⟨.membership tenant user,
        some { change row with version := row.version + 1 }⟩] := by
  obtain ⟨row, seen, checked⟩ := bind_ok.mp written
  obtain ⟨_, passed, rest⟩ := bind_ok.mp checked
  obtain ⟨_, _, returned⟩ := bind_ok.mp rest
  cases returned
  exact ⟨row, found_ok.mp seen, require_ok.mp passed, rfl⟩

/-- A member as it is read has the status and the version of its row, and its roles. -/
theorem getMember_ok {contacts : Contacts} {member : Membership}
    (read : db.getMember contacts tenant user = .ok member) :
    ∃ row, db.membership? tenant user = some row ∧ member.tenantId = tenant ∧
      member.userId = user ∧ member.status = row.status ∧ member.version = row.version ∧
      member.roles = db.memberRoles tenant user := by
  obtain ⟨row, seen, converted⟩ := bind_ok.mp read
  obtain ⟨_, _, afterAccount⟩ := bind_ok.mp converted
  obtain ⟨_, _, afterEmail⟩ := bind_ok.mp afterAccount
  obtain ⟨_, _, returned⟩ := bind_ok.mp afterEmail
  cases returned
  exact ⟨row, found_ok.mp seen, rfl, rfl, rfl, rfl, rfl⟩

theorem Membership.suspend_ok (passed : before.suspend = .ok after) :
    before.status = .active ∧ after.tenantId = before.tenantId ∧
      after.userId = before.userId := by
  obtain ⟨_, allowed, returned⟩ := bind_ok.mp passed
  cases returned
  exact ⟨require_ok.mp allowed, rfl, rfl⟩

theorem Membership.activate_ok (passed : before.activate = .ok after) :
    (before.status = .invited ∨ before.status = .suspended) ∧
      after.tenantId = before.tenantId ∧ after.userId = before.userId ∧
      after.status = .active := by
  obtain ⟨_, allowed, returned⟩ := bind_ok.mp passed
  cases returned
  exact ⟨require_ok.mp allowed, rfl, rfl, rfl⟩

theorem Membership.remove_ok (passed : before.remove = .ok after) :
    before.status ≠ .removed ∧ after.tenantId = before.tenantId ∧
      after.userId = before.userId := by
  obtain ⟨_, allowed, returned⟩ := bind_ok.mp passed
  cases returned
  exact ⟨require_ok.mp allowed, rfl, rfl⟩

theorem Membership.restore_ok (passed : before.restore = .ok after) :
    after.tenantId = before.tenantId ∧ after.userId = before.userId := by
  obtain ⟨_, -, returned⟩ := bind_ok.mp passed
  cases returned
  exact ⟨rfl, rfl⟩

/-- A profile changes neither whose membership it is nor its status. -/
theorem Profile.apply_ok {profile : Profile} (passed : profile.apply before = .ok after) :
    before.status ≠ .removed ∧ after.tenantId = before.tenantId ∧ after.userId = before.userId ∧
      after.status = before.status := by
  obtain ⟨_, allowed, rest⟩ := bind_ok.mp passed
  obtain ⟨_, _, returned⟩ := bind_ok.mp rest
  cases returned
  exact ⟨require_ok.mp allowed, rfl, rfl, rfl⟩

end Returns

end Biz.Access
