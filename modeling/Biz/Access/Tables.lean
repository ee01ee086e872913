import Biz.Library.Isolation
import Biz.Library.Time
import Biz.Text

/-!
# The tables of the access service

One database holds the rows of every table of the service, each under its primary
key. A row keeps the columns that some modelled statement reads; a table that is only
its key, such as an assignment of a role, has rows without content. Times of creation
and update, which nothing here reads, are left out.

Keys are compared as texts. The tables have the collation of the database, under which
texts that differ in case compare equal, so the statements speak of requests that spell
identifiers as they are stored, where they do not name a comparison.
-/

namespace Biz.Access

open Time (Instant)

inductive TenantStatus
  | pending
  | active
  | suspended
  | closed
  deriving DecidableEq

inductive MemberStatus
  | invited
  | active
  | suspended
  | removed
  deriving DecidableEq

inductive RoleStatus
  | active
  | disabled
  deriving DecidableEq

/-- The codes that a system role carries; a role of the tenant's own has none. -/
inductive RoleCode
  | tenantOwner
  | tenantAdmin
  deriving DecidableEq

/-- A scope of a grant. A text that is none of these grants nothing, like `none`. -/
inductive DataScope
  | none
  | self
  | sites
  | all
  deriving DecidableEq

inductive DepartmentStatus
  | active
  | disabled
  deriving DecidableEq

inductive PolicyStatus
  | active
  | revoked
  deriving DecidableEq

inductive ActivationState
  | pending
  | consumed
  deriving DecidableEq

inductive ActivationMode
  | link
  | sms
  deriving DecidableEq

inductive Channel
  | email
  | sms
  deriving DecidableEq

/-- What a challenge was issued for. -/
inductive Purpose
  | contactChange
  | accountDeletion
  | other
  deriving DecidableEq

/-- A contact as stored: in the clear, or encrypted with a lookup hash. -/
structure Contact where
  plain : String
  ciphertext : String
  lookupHash : Option String
  keyVersion : String
  deriving DecidableEq

def Contact.blank : Contact := ⟨"", "", none, ""⟩

/-- Whether a contact is stored encrypted. -/
def Contact.sealed (contact : Contact) : Bool :=
  contact.ciphertext ≠ "" || contact.keyVersion ≠ "" || contact.lookupHash.isSome

structure TenantRecord where
  status : TenantStatus
  version : Nat

structure UserRecord where
  username : Option String
  email : Contact
  active : Bool

structure MembershipRecord where
  status : MemberStatus
  name : String
  email : Contact
  phone : Contact
  employeeId : String
  position : String
  departmentId : String
  avatarAssetRef : String
  selfDeletedAt : Option Instant
  version : Nat
  deriving DecidableEq

structure RoleRecord where
  tenantId : String
  name : String
  description : String
  roleCode : Option RoleCode
  systemRole : Bool
  dataPolicyId : Option String
  status : RoleStatus
  version : Nat
  deriving DecidableEq

/-- A role or a site that a removed member had, with the version of the membership
that its removal left. -/
structure RemovedRecord where
  removedVersion : Nat

structure ActivationRecord where
  mode : ActivationMode
  secretHash : String
  newAccount : Bool
  state : ActivationState
  expiresAt : Instant

structure ChallengeRecord where
  purpose : Purpose
  userId : String
  tenantId : String
  flowId : String
  channel : Channel
  destinationHash : String
  bindingHash : String
  codeHash : String
  attempts : Nat
  maxAttempts : Nat
  expiresAt : Instant
  consumedAt : Option Instant

structure DepartmentRecord where
  tenantId : String
  name : String
  parentId : String
  leaderUserId : String
  email : String
  phone : String
  status : DepartmentStatus
  sort : Int
  version : Nat

/-- A data policy. Its version starts at one and only grows. -/
structure PolicyRecord where
  name : String
  status : PolicyStatus
  version : Nat
  notBefore : Option Instant
  expiresAt : Option Instant
  versioned : version ≠ 0

/-- The primary keys. -/
inductive Key
  | tenant (id : String)
  | user (id : String)
  | membership (tenant user : String)
  | role (id : String)
  | memberRole (tenant user role : String)
  | grant (tenant role permission : String)
  | memberSite (tenant user site : String)
  | removedRole (tenant user role : String)
  | removedSite (tenant user site : String)
  | activation (tenant user : String)
  | challenge (id : String)
  | department (id : String)
  | policy (tenant id : String)
  | policySite (tenant policy site : String)
  deriving DecidableEq

@[reducible] def Row : Key → Type
  | .tenant _ => TenantRecord
  | .user _ => UserRecord
  | .membership _ _ => MembershipRecord
  | .role _ => RoleRecord
  | .memberRole _ _ _ => Unit
  | .grant _ _ _ => DataScope
  | .memberSite _ _ _ => Unit
  | .removedRole _ _ _ => RemovedRecord
  | .removedSite _ _ _ => RemovedRecord
  | .activation _ _ => ActivationRecord
  | .challenge _ => ChallengeRecord
  | .department _ => DepartmentRecord
  | .policy _ _ => PolicyRecord
  | .policySite _ _ _ => Unit

/-- The tables: a row for each key. -/
abbrev Db := AList Row

abbrev Write := Isolation.Write Row

/-- The failures of the service. -/
inductive Failure
  | contextRequired
  | unauthorized
  | invalidMemberRequest
  | invalidRoleRequest
  | invalidDepartmentRequest
  | memberNotFound
  | memberConflict
  | memberExists
  | contactConflict
  | usernameConflict
  | selfDeactivation
  | protectedOwner
  | activationUnavailable
  | activationPending
  | activationInvalid
  | activationExpired
  | activationConsumed
  | businessScopeUnavailable
  | invalidMemberTransition
  | invalidMemberProfile
  | selfDeletionIrreversible
  | contactUnavailable
  | roleNotFound
  | roleConflict
  | roleMember
  | roleProtected
  | roleInUse
  | lastTenantOwner
  | invalidRoleTransition
  | protectedOwnerRole
  | protectedSystemRole
  | departmentNotFound
  | departmentConflict
  | departmentExists
  | departmentHierarchy
  | departmentLeader
  | departmentAssignment
  | invalidDepartment
  | invalidDepartmentMove
  | invalidDepartmentStatus
  | policyNotFound
  | policyConflict
  | policyUnavailable
  | invalidPolicy
  | verificationInvalid
  | verificationExpired
  | verificationConsumed
  | rateLimited
  | keyUnavailable
  | invalidContact
  | recordNotFound
  | duplicateKey
  deriving DecidableEq

/-- The transactions of the service. -/
abbrev Tx := Isolation.Code Row Failure

/-- A plain read of the tables. -/
abbrev read {α : Type} (f : Db → Except Failure α) : Tx α := Isolation.Code.read f

/-- A locking read. -/
abbrev lock {α : Type} (rows : Db → List Key) (f : Db → Except Failure α) : Tx α :=
  Isolation.Code.lock rows f

/-- An insert, an update or a delete. -/
abbrev modify {α : Type} (f : Db → Except Failure (α × List Write)) : Tx α :=
  Isolation.Code.modify f

abbrev lift {α : Type} (outcome : Except Failure α) : Tx α := Isolation.Code.lift outcome

abbrev demand (failure : Failure) (condition : Prop) [Decidable condition] : Tx Unit :=
  Isolation.Code.require failure condition

abbrev whenever (condition : Prop) [Decidable condition] (code : Tx Unit) : Tx Unit :=
  Isolation.Code.whenever condition code

/-- What a collation compares that takes no notice of the case of letters. -/
def ignoreCase (text : String) : String := String.ofList (text.toList.map Char.toLower)

namespace Db

variable (db : Db) (tenant user : String)

def membership? : Option MembershipRecord :=
  db.lookup (.membership tenant user)

def user? (id : String) : Option UserRecord := db.lookup (.user id)

def activation? : Option ActivationRecord :=
  db.lookup (.activation tenant user)

def challenge? (id : String) : Option ChallengeRecord := db.lookup (.challenge id)

/-- A role of the tenant; the identifier alone is the primary key. -/
def role? (tenant id : String) : Option RoleRecord :=
  (db.lookup (.role id)).filter fun row => row.tenantId = tenant

/-- Those of the given keys that have a row. -/
def present (keys : List Key) : List Key := keys.filter (· ∈ db)

/-- The values of a key column over the rows that a query picks. -/
def select (pick : Key → Option String) : List String := db.keys.filterMap pick

/-- The users a role is assigned to. -/
def holders (tenant role : String) : List String :=
  db.select fun
    | .memberRole tenant' user role' => if tenant' = tenant ∧ role' = role then some user else none
    | _ => none

/-- The roles assigned to a user. -/
def rolesOf : List String :=
  db.select fun
    | .memberRole tenant' user' role => if tenant' = tenant ∧ user' = user then some role else none
    | _ => none

/-- The sites assigned to a user. -/
def sitesOf : List String :=
  db.select fun
    | .memberSite tenant' user' site => if tenant' = tenant ∧ user' = user then some site else none
    | _ => none

/-- The roles kept from the removals of a member. -/
def removedRolesOf : List String :=
  db.select fun
    | .removedRole tenant' user' role => if tenant' = tenant ∧ user' = user then some role else none
    | _ => none

/-- The sites kept from the removals of a member. -/
def removedSitesOf : List String :=
  db.select fun
    | .removedSite tenant' user' site => if tenant' = tenant ∧ user' = user then some site else none
    | _ => none

end Db

section Queries

variable {db : Db} {tenant user role site : String} {pick : Key → Option String}

/-- A role is found under its identifier, in its tenant. -/
theorem role?_eq_some {row : RoleRecord} :
    db.role? tenant role = some row ↔ db.lookup (.role role) = some row ∧
      row.tenantId = tenant := by
  simp [Db.role?, Option.filter_eq_some_iff]

/-- The keys present are those of rows. -/
theorem mem_present {keys : List Key} {key : Key} :
    key ∈ db.present keys ↔ key ∈ keys ∧ key ∈ db := by
  simp [Db.present]

/-- A query that picks exactly the keys of one shape finds exactly their values. -/
theorem mem_select (make : String → Key)
    (exact : ∀ key value, pick key = some value ↔ key = make value) {value : String} :
    value ∈ db.select pick ↔ make value ∈ db := by
  simp only [Db.select, List.mem_filterMap, AList.mem_keys]
  constructor
  · rintro ⟨_, member, found⟩
    rw [exact] at found
    exact found ▸ member
  · intro member
    exact ⟨make value, member, (exact _ _).mpr rfl⟩

/-- Such a query returns no value twice. -/
theorem nodup_select (make : String → Key)
    (exact : ∀ key value, pick key = some value ↔ key = make value) : (db.select pick).Nodup := by
  apply List.Nodup.filterMap _ db.keys_nodup
  intro first second value firstFound secondFound
  rw [((exact first value).mp firstFound), ((exact second value).mp secondFound)]

/-- The holders are the users with an assignment. -/
theorem mem_holders : user ∈ db.holders tenant role ↔ Key.memberRole tenant user role ∈ db :=
  mem_select (fun user => .memberRole tenant user role) fun key value => by
    cases key <;> grind

/-- Nobody holds a role twice. -/
theorem nodup_holders : (db.holders tenant role).Nodup :=
  nodup_select (fun user => .memberRole tenant user role) fun key value => by
    cases key <;> grind

/-- The roles of a user are those with an assignment. -/
theorem mem_rolesOf : role ∈ db.rolesOf tenant user ↔ Key.memberRole tenant user role ∈ db :=
  mem_select (fun role => .memberRole tenant user role) fun key value => by
    cases key <;> grind

/-- The sites of a user are those with an assignment. -/
theorem mem_sitesOf : site ∈ db.sitesOf tenant user ↔ Key.memberSite tenant user site ∈ db :=
  mem_select (fun site => .memberSite tenant user site) fun key value => by
    cases key <;> grind

/-- The kept roles are those with a record. -/
theorem mem_removedRolesOf :
    role ∈ db.removedRolesOf tenant user ↔ Key.removedRole tenant user role ∈ db :=
  mem_select (fun role => .removedRole tenant user role) fun key value => by
    cases key <;> grind

end Queries

end Biz.Access
