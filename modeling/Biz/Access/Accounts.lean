import Biz.Access.Members

/-!
# Joining and leaving a tenant

How a membership comes to be (invitation, creation, bootstrap of the owner), how an
invited one becomes active by its link or its initial password, and what a member
does to their own membership: change a contact, and delete it. A call that a member
makes for themself is one transaction of its own. Some of its refusals commit, so
that a wrong code is counted; these are returned as outcomes.

Passwords, one-time authorizations and the outbox of notifications, which no modelled
call reads, are left out.
-/

namespace Biz.Access

open Checks Text
open Time (Instant)

variable (config : Config)

/-! ## Joining -/

variable (contacts : Contacts)

/-- `newUserRecordWithOptionalEmail`. -/
def newUserRecord (id email : String) : Except Failure UserRecord := do
  require .invalidContact (trimSpace id ≠ "")
  if trimSpace email = "" then
    return ⟨none, { Contact.blank with plain := "absent:" ++ trimSpace id }, true⟩
  let normalized ← contacts.normalizeEmail (trimSpace email)
  match contacts.protection with
  | none => return ⟨none, { Contact.blank with plain := normalized }, true⟩
  | some protection =>
    let (ciphertext, lookup, version) ← protection.protectEmail normalized
    return ⟨none, ⟨"protected:" ++ lookup, ciphertext, some lookup, version⟩, true⟩

/-- Whether a username is free. -/
def Db.usernameFree (db : Db) (username : Option String) : Bool :=
  db.users.all fun other => decide (username = none ∨ other.2.username ≠ username)

/-- The other unique indexes of the accounts. -/
def Db.userFree (db : Db) (id : String) (row : UserRecord) : Bool :=
  db.users.all fun other => decide (other.1 ≠ id ∧ other.2.email.plain ≠ row.email.plain ∧
    (row.email.lookupHash = none ∨ other.2.email.lookupHash ≠ row.email.lookupHash))

/-- An account is inserted, unless one of its keys is taken; the outcome says which. -/
def insertUser (id : String) (row : UserRecord) : Tx (Except Failure Unit) :=
  modify fun db => return match db.userFree id row, db.usernameFree row.username with
    | false, _ => (.error .contactConflict, [])
    | true, false => (.error .usernameConflict, [])
    | true, true => (.ok (), [⟨.user id, some row⟩])

/-- A contact column as a new membership stores it. -/
def newContact (normalize : String → Except Failure String)
    (protect : Option (String → Except Failure (String × String × String))) (value : String) :
    Except Failure Contact := do
  if trimSpace value = "" then return .blank
  let normalized ← normalize (trimSpace value)
  match protect with
  | none => return { Contact.blank with plain := normalized }
  | some protect =>
    let (ciphertext, lookup, version) ← protect normalized
    return ⟨"", ciphertext, some lookup, version⟩

/-- `newMembershipRecordWithProfile`. -/
def newMembershipRecord (status : MemberStatus) (email phone : String)
    (profile : Profile) : Except Failure MembershipRecord := do
  let emailColumn ← newContact contacts.normalizeEmail
    (contacts.protection.map Protection.protectEmail) email
  let phoneColumn ← newContact contacts.normalizePhone
    (contacts.protection.map Protection.protectPhone) phone
  return {
    status := status
    name := profile.name
    email := emailColumn
    phone := phoneColumn
    employeeId := profile.employeeId
    position := profile.position
    departmentId := profile.departmentId
    avatarAssetRef := defaultPersonalAvatarAssetRef
    selfDeletedAt := none
    version := 1 }

variable (tenant user : String)

/-- No membership of this user is there, read without a lock. -/
def noMembership : Tx Unit :=
  read fun db => require .memberExists (db.membership? tenant user = none)

/-- A membership is inserted under its primary key and the unique hashes. -/
def insertMembership (row : MembershipRecord) (duplicate : Failure) : Tx Unit :=
  modify fun db => do
    require duplicate (Key.membership tenant user ∉ db ∧ db.hashesFree tenant user row = true)
    return ((), [⟨.membership tenant user, some row⟩])

def Profile.empty : Profile := ⟨"", "", "", "", ""⟩

/-- The account of an address, as a locking read finds it. -/
def lockAccount (email : String) : Tx (Option (String × UserRecord × String)) :=
  lock (fun db => match db.findUserByEmail contacts email with
      | .ok (some (id, _, _)) => [.user id]
      | _ => [])
    fun db => db.findUserByEmail contacts email

/-- The account of an address, made when there is none. A lost race for the address is
settled by a locking read. -/
def accountOf (proposed email : String) : Tx (String × UserRecord) := do
  match ← read fun db => db.findUserByEmail contacts email with
  | some (id, row, _) => return (id, row)
  | none =>
    let row ← lift (newUserRecord contacts proposed email)
    match ← insertUser proposed row with
    | .ok () => return (proposed, row)
    | .error _ =>
      let hit ← lockAccount contacts email
      let (id, row, _) ← lift (found Failure.recordNotFound hit)
      return (id, row)

variable (principal : Principal)

/-- `InviteTenantMember`. -/
def inviteTenantMember (proposed email : String) : Tx Unit := do
  let contacts := config.contacts
  demand .invalidMemberRequest (trimSpace email ≠ "")
  let tenant ← lift (trustedTenantId principal)
  let normalized ← lift (contacts.normalizeEmail (trimSpace (contacts.lower email)))
  let (user, account) ← accountOf contacts (trimSpace proposed) normalized
  noMembership tenant user
  let _ ← lift (contacts.displayUserEmail account)
  let row ← lift (newMembershipRecord contacts .invited normalized "" .empty)
  insertMembership tenant user row .duplicateKey

/-- A creation, with the identifier, the hash of the activation secret and the times that
the service draws for it. -/
structure CreateRequest where
  userId : String
  username : String
  email : String
  phone : String
  profile : Profile
  roleIds : List String
  mode : ActivationMode
  secretHash : String
  now : Instant
  expiresAt : Instant

/-- An account without a username is given one, if the name is free. -/
def nameAccount (id username : String) : Tx Unit :=
  modify fun db => match (db.user? id).filter fun row => row.username = none with
    | none => return ((), [])
    | some row => do
      require .usernameConflict (db.usernameFree (some username) = true)
      return ((), [⟨.user id, some { row with username := some username }⟩])

/-- The account that a creation names: by its username, by its address, or a new one. -/
def createAccount (proposed username email : String) : Tx (String × Bool) := do
  let byName (db : Db) := db.users.find? fun user =>
    decide (user.2.username.map contacts.lower = some username)
  match ← lock (fun db => (byName db).toList.map fun user => .user user.1)
      fun db => .ok (byName db) with
  | some (id, row) =>
    let existing ← lift (contacts.userEmail row)
    demand .usernameConflict
      (email = "" ∨ existing = "" ∨ contacts.equalFold existing email = true)
    return (id, false)
  | none =>
    match ← (if email = "" then pure none else lockAccount contacts email) with
    | some (id, row, authoritative) =>
      let name := trimSpace (row.username.getD "")
      demand .contactConflict (name = "" ∨ name = username)
      whenever (name = "") (nameAccount id username)
      demand .contactConflict
        (authoritative = "" ∨ contacts.equalFold authoritative email = true)
      return (id, false)
    | none =>
      let row ← lift (newUserRecord contacts proposed email)
      let inserted ← insertUser (trimSpace proposed) { row with username := some username }
      lift inserted
      return (trimSpace proposed, true)

/-- `TenantMemberRepository.Create`. -/
def createMember (tenant : String) (request : CreateRequest) : Tx (String × Bool) := do
  let username ← lift (contacts.normalizeUsername request.username)
  demand .invalidContact (trimSpace request.email ≠ "" ∨ trimSpace request.phone ≠ "")
  let email ← lift (if trimSpace request.email = "" then .ok ""
    else contacts.normalizeEmail (trimSpace request.email))
  let phone ← lift (if trimSpace request.phone = "" then .ok ""
    else contacts.normalizePhone (trimSpace request.phone))
  read fun db => db.contactsAvailable contacts tenant "" email phone
  let (user, created) ← createAccount contacts request.userId username email
  noMembership tenant user
  let member : Membership := ⟨tenant, user, email, .invited, 1, "", phone, "", "", "", []⟩
  let member ← lift ({ request.profile with phone := phone }.apply member)
  let row ← lift (newMembershipRecord contacts .invited email phone
    ⟨member.name, phone, member.employeeId, member.position, member.departmentId⟩)
  insertMembership tenant user row .contactConflict
  let _ ← read fun db => db.memberFromRecord contacts tenant user row
  return (user, created)

/-- `Activation.Stage`. -/
def stageActivation (request : CreateRequest) (newAccount : Bool) : Tx Unit := do
  demand .activationUnavailable (request.now < request.expiresAt)
  demand .activationUnavailable (request.mode = .sms → newAccount = true)
  modify fun db => do
    require .duplicateKey (Key.activation tenant user ∉ db)
    return ((), [⟨.activation tenant user, some
      ⟨request.mode, if request.mode = .link then request.secretHash else "", newAccount, .pending,
        request.expiresAt⟩⟩])

/-- `CreateTenantMember`. -/
def createTenantMember (request : CreateRequest) : Tx Unit := do
  demand .invalidMemberRequest (trimSpace request.email ≠ "" ∨ trimSpace request.phone ≠ "")
  let roles ← lift (normalizeRoleIds request.roleIds)
  demand .invalidMemberRequest (request.mode = .sms → trimSpace request.phone ≠ "")
  let tenant ← lift (trustedTenantId principal)
  read fun db => db.departmentAssignable tenant request.profile.departmentId
  let (user, created) ← createMember config.contacts tenant request
  forM roles fun role => assignTenantRoleMember principal role user
  stageActivation tenant user request created
  readBack config tenant user

/-- `BootstrapTenantOwnerMember`. -/
def bootstrapOwnerMember (tenantId userId email : String) : Tx Unit := do
  let contacts := config.contacts
  let tenant := trimSpace tenantId
  let user := trimSpace userId
  demand .invalidMemberRequest (tenant ≠ "" ∧ user ≠ "" ∧ trimSpace email ≠ "")
  let normalized ← lift (contacts.normalizeEmail (trimSpace (contacts.lower email)))
  match ← read fun db => .ok (db.user? user) with
  | some row =>
    let existing ← lift (contacts.userEmail row)
    demand .memberConflict (contacts.equalFold existing normalized = true)
  | none =>
    let row ← lift (newUserRecord contacts user normalized)
    let inserted ← insertUser user row
    lift inserted
  match ← read fun db => .ok (db.membership? tenant user) with
  | some row =>
    demand .memberConflict (row.status = .active)
    let _ ← read fun db => db.memberFromRecord contacts tenant user row
  | none =>
    let _ ← read fun db => match db.user? user with
      | some account => contacts.displayUserEmail account
      | none => .error .recordNotFound
    let row ← lift (newMembershipRecord contacts .active normalized "" .empty)
    insertMembership tenant user row .duplicateKey

/-- The permissions that the owner role always has. -/
def ownerRequiredPermissions : List String :=
  ["commercial.catalog.read", "tenant.audit.export", "tenant.audit.read", "tenant.entitlement.read",
    "tenant.member.manage", "tenant.member.read", "tenant.organization.manage",
    "tenant.organization.read", "tenant.role.manage", "tenant.role.read",
    "tenant.subscription.manage"]

/-- A role with a code, as the bootstrap makes it. -/
def systemRole (tenant name : String) (code : RoleCode) : RoleRecord :=
  ⟨tenant, name, "", some code, true, none, .active, 1⟩

/-- The roles of a tenant. -/
def Db.roles (db : Db) (tenant : String) : List (String × RoleRecord) :=
  db.entries.filterMap fun
    | ⟨.role id, row⟩ => if row.tenantId = tenant then some (id, row) else none
    | _ => none

/-- The unique indexes on the name and the code of a role. -/
def Db.roleFree (db : Db) (id : String) (row : RoleRecord) : Bool :=
  (db.roles row.tenantId).all fun other => decide (other.1 = id ∨
    (other.2.name ≠ row.name ∧ (row.roleCode = none ∨ other.2.roleCode ≠ row.roleCode)))

/-- A role is inserted under its primary key and the unique indexes. -/
def insertRole (id : String) (row : RoleRecord) : Tx Unit :=
  modify fun db => do
    require .duplicateKey (Key.role id ∉ db ∧ db.roleFree id row = true)
    return ((), [⟨.role id, some row⟩])

/-- A role from before codes is given its code. -/
def codeRole (tenant id : String) (change : RoleRecord → RoleRecord) : Tx Unit :=
  modify fun db => match db.role? tenant id with
    | none => return ((), [])
    | some row => do
      require .duplicateKey (db.roleFree id (change row) = true)
      return ((), [⟨.role id, some (change row)⟩])

/-- `ensureTenantAdminRole`. -/
def ensureTenantAdminRole (tenant : String) : Tx Unit := do
  let id := tenant ++ ":admin"
  match ← read fun db => .ok (db.role? tenant id) with
  | some row =>
    whenever (row.roleCode ≠ some .tenantAdmin ∨ row.systemRole = false)
      (codeRole tenant id fun row => { row with
        roleCode := some .tenantAdmin, systemRole := true, status := .active })
  | none => insertRole id (systemRole tenant tenantAdminRoleName .tenantAdmin)

/-- `TenantRoleRepository.BootstrapOwner`. -/
def bootstrapOwnerRole (tenantId userId : String) : Tx Unit := do
  let tenant := trimSpace tenantId
  let user := trimSpace userId
  demand .invalidRoleRequest (tenant ≠ "" ∧ user ≠ "")
  read fun db => require .roleMember (db.activeMember tenant user = true)
  let id := tenant ++ ":owner"
  match ← read fun db => .ok (db.role? tenant id) with
  | some row =>
    demand .roleConflict (row.name = tenantOwnerRoleName ∧ row.status = .active)
    whenever (row.roleCode ≠ some .tenantOwner ∨ row.systemRole = false)
      (codeRole tenant id fun row => { row with
        roleCode := some .tenantOwner, systemRole := true })
    ensureTenantAdminRole tenant
  | none =>
    insertRole id (systemRole tenant tenantOwnerRoleName .tenantOwner)
    ensureTenantAdminRole tenant
    modify fun _ => return ((), ownerRequiredPermissions.map fun permission =>
      ⟨.grant tenant id permission, some .all⟩)
  modify fun _ => return ((), [⟨.memberRole tenant user id, some ()⟩])
  let _ ← read fun db => db.getRole tenant id

/-! ## Activation -/

/-- `completeMemberActivation`: an invited membership becomes active and its activation
is used up. -/
def completeMemberActivation : Tx Unit := do
  updateMembership tenant user .activationInvalid (fun row => row.status = .invited)
    fun row => { row with status := .active }
  modify fun db => return ((), match db.activation? tenant user with
    | some row => if row.state = .pending then
        [⟨.activation tenant user, some { row with state := .consumed }⟩] else []
    | none => [])

/-- The activations, with the tenant and the user of each. -/
def Db.activations (db : Db) : List (String × String × ActivationRecord) :=
  db.entries.filterMap fun
    | ⟨.activation tenant user, row⟩ => some (tenant, user, row)
    | _ => none

/-- `CompleteMemberActivationLink`. -/
def completeMemberActivationLink (secretHash : String) (now : Instant) : Tx Unit := do
  let byLink (db : Db) := db.activations.find? fun row =>
    decide (row.2.2.secretHash = secretHash ∧ row.2.2.mode = .link)
  let (tenant, user, row) ← lock
    (fun db => (byLink db).toList.map fun row => .activation row.1 row.2.1)
    fun db => found Failure.activationInvalid (byLink db)
  demand .activationConsumed (row.state ≠ .consumed)
  demand .activationExpired (now < row.expiresAt)
  completeMemberActivation tenant user

/-- `CompleteInitialPasswordActivationForLogin`, for the user of a login request. -/
def completeInitialPasswordActivation (user : String) (now : Instant) : Tx Unit := do
  let pending (db : Db) := db.activations.filter fun row =>
    decide (row.2.1 = user ∧ row.2.2.mode = .sms ∧ row.2.2.state = .pending)
  let rows ← lock (fun db => ((pending db).take 2).map fun row => .activation row.1 row.2.1)
    fun db => .ok ((pending db).take 2)
  match rows with
  | [(tenant, user, row)] =>
    demand .activationExpired (now < row.expiresAt)
    completeMemberActivation tenant user
  | _ => lift (.error .activationInvalid)

/-! ## What a member does to their own membership -/

def personalAvatarOptions : List String :=
  [defaultPersonalAvatarAssetRef, "avatar:coffee-violet", "avatar:coffee-emerald",
    "avatar:coffee-amber"]

def trustedTenantUser : Except Failure (String × String) := do
  require .contextRequired (principal.authenticated = true ∧ trimSpace principal.tenantId ≠ "" ∧
    trimSpace principal.userId ≠ "")
  return (trimSpace principal.tenantId, trimSpace principal.userId)

def updateMyPersonalAvatar (version : Nat) (avatar : String) : Tx Unit := do
  demand .invalidMemberRequest (version ≠ 0 ∧ trimSpace avatar ∈ personalAvatarOptions)
  let (tenant, user) ← lift (trustedTenantUser principal)
  updatePersonalAvatar tenant user version (trimSpace avatar)
  readBack config tenant user

/-- The keyed hashes of the verification of contacts. -/
structure Verification where
  destinationHash : Channel → String → Except Failure (String × String)
  bindingHash : Purpose → String → String → String → Channel → String → String
  hashCode : String → String → String

/-- A code that a member enters. -/
structure Answer where
  channel : Channel
  challengeId : String
  flowId : String
  code : String

/-- A call with an outcome that commits. -/
abbrev Outcome (α : Type) := Except Failure α

/-- A check whose refusal commits. -/
def settleUnless (failure : Failure) (condition : Prop) [Decidable condition] {α : Type}
    (rest : Tx (Outcome α)) : Tx (Outcome α) :=
  if condition then rest else pure (.error failure)

/-- A wrong code is counted. -/
def countAttempt (id : String) (challenge : ChallengeRecord) : Tx (Outcome String) := do
  modify fun _ => return ((), [⟨.challenge id, some { challenge with
    attempts := challenge.attempts + 1 }⟩])
  return .error (if challenge.maxAttempts ≤ challenge.attempts + 1 then .rateLimited
    else .verificationInvalid)

variable (verification : Verification)

/-- `verifyChallengeTx`: the normalised destination that the challenge confirms. -/
def verifyChallenge (contacts : Contacts) (purpose : Purpose)
    (user tenant : String) (answer : Answer) (destination : String) (now : Instant) :
    Tx (Outcome String) := do
  let id := trimSpace answer.challengeId
  let flow := trimSpace answer.flowId
  settleUnless .verificationInvalid (id ≠ "" ∧ flow ≠ "" ∧ trimSpace answer.code ≠ "") do
  match ← lock (fun db => db.present [.challenge id]) fun db => .ok (db.challenge? id) with
  | none => return .error .verificationInvalid
  | some challenge =>
    settleUnless .verificationInvalid (challenge.purpose = purpose ∧ challenge.userId = user ∧
      challenge.tenantId = tenant ∧ challenge.flowId = flow ∧
      challenge.channel = answer.channel) do
    settleUnless .verificationConsumed (challenge.consumedAt = none) do
    settleUnless .verificationExpired (now < challenge.expiresAt) do
    settleUnless .rateLimited (challenge.attempts < challenge.maxAttempts) do
    settleUnless .verificationInvalid
      (trimSpace destination ≠ "" ∧ contacts.isMasked destination = false) do
    let (hash, normalized) ← lift (verification.destinationHash answer.channel destination)
    settleUnless .verificationInvalid (challenge.destinationHash = hash ∧ challenge.bindingHash =
      verification.bindingHash purpose user tenant flow answer.channel hash) do
    if challenge.codeHash = verification.hashCode id (trimSpace answer.code) then
      return .ok normalized
    else countAttempt id challenge

/-- `consumeVerifiedChallengeTx`. -/
def consumeChallenge (id : String) (now : Instant) : Tx Unit :=
  modify fun db => do
    let row ← found Failure.verificationConsumed (db.challenge? id)
    require .verificationConsumed (row.consumedAt = none)
    return ((), [⟨.challenge id, some { row with consumedAt := some now }⟩])

/-- `memberContact`: the stored contact in the clear. -/
def memberContact (row : MembershipRecord) : Channel → Except Failure String
  | .email => match row.email.sealed, contacts.protection with
    | true, some protection => protection.decryptEmail row.email.ciphertext row.email.keyVersion
    | true, none => .error .keyUnavailable
    | false, _ => if trimSpace row.email.plain = "" then .ok ""
        else contacts.normalizeEmail row.email.plain
  | .sms => match row.phone.sealed, contacts.protection with
    | true, some protection => protection.decryptPhone row.phone.ciphertext row.phone.keyVersion
    | true, none => .error .keyUnavailable
    | false, _ => if trimSpace row.phone.plain = "" then .ok ""
        else contacts.normalizePhone row.phone.plain

/-- `protectedContactUpdates`. -/
def protectedContact (channel : Channel) (destination : String) :
    Except Failure (MembershipRecord → MembershipRecord) :=
  match contacts.protection with
  | none => .error .keyUnavailable
  | some protection => match channel with
    | .email => do
      let (ciphertext, lookup, version) ← protection.protectEmail destination
      return fun row => { row with email := ⟨"", ciphertext, some lookup, version⟩ }
    | .sms => do
      let (ciphertext, lookup, version) ← protection.protectPhone destination
      return fun row => { row with phone := ⟨"", ciphertext, some lookup, version⟩ }

/-- The locked membership, active, at the version the member saw and not deleted. -/
def ownMembership (row : Option MembershipRecord) (expectedVersion : Nat) :
    Outcome MembershipRecord :=
  match row with
  | none => .error .memberNotFound
  | some row => if row.status = .active ∧ row.version = expectedVersion ∧ row.selfDeletedAt = none
      then .ok row else .error .memberConflict

/-- What a conditional update of the locked membership writes when its refusals commit. -/
def settledUpdate (expectedVersion : Nat) (change : MembershipRecord → MembershipRecord) (db : Db) :
    Except Failure (Outcome Unit × List Write) :=
  match db.membership? tenant user with
  | none => return (.error .memberConflict, [])
  | some row =>
    if row.version = expectedVersion ∧ row.status = .active then
      if db.hashesFree tenant user (change row) = true then
        return (.ok (), [⟨.membership tenant user,
          some { change row with version := row.version + 1 }⟩])
      else return (.error .contactConflict, [])
    else return (.error .memberConflict, [])

def settleMembership (expectedVersion : Nat)
    (change : MembershipRecord → MembershipRecord) : Tx (Outcome Unit) :=
  modify (settledUpdate tenant user expectedVersion change)

/-- The update writes nothing, or the active membership that it was meant for. -/
theorem settledUpdate_ok {tenant user : String} {expectedVersion : Nat}
    {change : MembershipRecord → MembershipRecord} {db : Db} {outcome : Outcome Unit}
    {writes : List Write}
    (written : settledUpdate tenant user expectedVersion change db = .ok (outcome, writes)) :
    writes = [] ∨ ∃ row, db.membership? tenant user = some row ∧ row.status = .active ∧
      row.version = expectedVersion ∧ outcome = .ok () ∧
      writes = [⟨.membership tenant user,
        some { change row with version := row.version + 1 }⟩] := by
  unfold settledUpdate at written
  split at written
  · cases written
    exact .inl rfl
  · rename_i row found
    split at written
    · rename_i meant
      split at written
      · cases written
        exact .inr ⟨row, found, meant.2, meant.1, rfl, rfl⟩
      · cases written
        exact .inl rfl
    · cases written
      exact .inl rfl

/-- `CompleteContactChange`. -/
def completeContactChange (userId tenantId : String)
    (answer : Answer) (destination : String) (expectedVersion : Nat) (now : Instant) :
    Tx (Outcome Unit) := do
  let contacts := config.contacts
  let user := trimSpace userId
  let tenant := trimSpace tenantId
  demand .verificationInvalid (expectedVersion ≠ 0 ∧ user ≠ "" ∧ tenant ≠ "")
  match ← verifyChallenge verification contacts .contactChange user tenant answer destination
    now with
  | .error failure => return .error failure
  | .ok verified =>
    let row ← lock (fun db => db.present [.membership tenant user]) fun db =>
      .ok (db.membership? tenant user)
    match ownMembership row expectedVersion with
    | .error failure => return .error failure
    | .ok _ =>
      let email := if answer.channel = .email then verified else ""
      let phone := if answer.channel = .sms then verified else ""
      match ← read fun db => .ok (db.contactsAvailable contacts tenant user email phone) with
      | .error failure => return .error failure
      | .ok () =>
        let change ← lift (protectedContact contacts answer.channel verified)
        match ← settleMembership tenant user expectedVersion change with
        | .error failure => return .error failure
        | .ok () =>
          consumeChallenge (trimSpace answer.challengeId) now
          return .ok ()

/-- What is left of a membership that its member has deleted. -/
def MembershipRecord.selfDeleted (row : MembershipRecord) (now : Instant) : MembershipRecord :=
  { row with
    status := .removed
    name := ""
    email := .blank
    phone := .blank
    employeeId := ""
    position := ""
    departmentId := ""
    avatarAssetRef := defaultPersonalAvatarAssetRef
    selfDeletedAt := some now }

/-- The rows of a member besides the membership. -/
def eraseMember : Tx Unit := do
  deleteRows fun db => (db.rolesOf tenant user).map (.memberRole tenant user)
  deleteRows fun db => (db.sitesOf tenant user).map (.memberSite tenant user)
  deleteRows fun db => (db.removedRolesOf tenant user).map (.removedRole tenant user)
  deleteRows fun db => (db.removedSitesOf tenant user).map (.removedSite tenant user)

/-- The member may leave, as an outcome: the last active owner may not. -/
def canLeave : Tx (Outcome Unit) := do
  settleUnless .invalidRoleRequest (trimSpace tenant ≠ "" ∧ trimSpace user ≠ "") do
  match ← lock (fun db => (db.ownerRole tenant).toList.map .role) fun db =>
      .ok (db.ownerRole tenant) with
  | none => return .ok ()
  | some role =>
    let assigned ← lockAssignment tenant role user
    if assigned then
      let activeOwners ← currentActiveOwners tenant role
      return require .lastTenantOwner (1 < activeOwners)
    else return .ok ()

/-- The deletion of a membership by its member, who may leave. -/
def deleteOwnMembership (user tenant : String) (answer : Answer)
    (expectedVersion : Nat) (now : Instant) : Tx (Outcome Unit) := do
  let row ← lock (fun db => db.present [.membership tenant user]) fun db =>
    .ok (db.membership? tenant user)
  match ownMembership row expectedVersion with
  | .error failure => return .error failure
  | .ok member =>
    let destination ← lift (memberContact config.contacts member answer.channel)
    settleUnless .contactUnavailable (destination ≠ "") do
    match ← verifyChallenge verification config.contacts .accountDeletion user tenant answer
        destination now with
    | .error failure => return .error failure
    | .ok _ =>
      eraseMember tenant user
      match ← settleMembership tenant user expectedVersion fun row => row.selfDeleted now with
      | .error failure => return .error failure
      | .ok () =>
        consumeChallenge (trimSpace answer.challengeId) now
        return .ok ()

/-- `CompleteTenantDeletion`. -/
def completeTenantDeletion (userId tenantId : String)
    (answer : Answer) (expectedVersion : Nat) (now : Instant) : Tx (Outcome Unit) := do
  let user := trimSpace userId
  let tenant := trimSpace tenantId
  demand .verificationInvalid (expectedVersion ≠ 0 ∧ user ≠ "" ∧ tenant ≠ "")
  match ← canLeave tenant user with
  | .error failure => return .error failure
  | .ok () => deleteOwnMembership config verification user tenant answer expectedVersion now

end Biz.Access
