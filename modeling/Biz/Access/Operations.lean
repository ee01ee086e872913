import Biz.Access.Accounts

/-!
# The operations of the access service

Every call that writes a role, a membership or what hangs on one, as one type, and the
transaction that each of them runs.
-/

namespace Biz.Access

open Time (Instant)

/-- What the access service is built with. -/
structure Service where
  config : Config
  verification : Verification

inductive Op
  | assign (principal : Principal) (role user : String)
  | revoke (principal : Principal) (role user : String)
  | changeRole (principal : Principal) (role : String) (version : Nat) (change : RoleChange)
  | deleteRole (principal : Principal) (role : String) (version : Nat)
  | suspend (principal : Principal) (user : String) (version : Nat) (reason : String)
  | activate (principal : Principal) (user : String) (version : Nat) (reason : String)
  | remove (principal : Principal) (user : String) (version : Nat) (reason : String)
  | restore (principal : Principal) (user : String) (version : Nat) (reason : String)
  | updateProfile (principal : Principal) (user : String) (version : Nat) (profile : Profile)
  | update (principal : Principal) (request : UpdateRequest)
  | setBusinessScope (principal : Principal) (user : String) (version : Nat) (sites : List String)
  | setAvatar (principal : Principal) (version : Nat) (avatar : String)
  | changeContact (user tenant : String) (answer : Answer) (destination : String) (version : Nat)
      (now : Instant)
  | deleteSelf (user tenant : String) (answer : Answer) (version : Nat) (now : Instant)
  | invite (principal : Principal) (proposed email : String)
  | create (principal : Principal) (request : CreateRequest)
  | bootstrapMember (tenant user email : String)
  | bootstrapRole (tenant user : String)
  | activateByLink (secretHash : String) (now : Instant)
  | activateByPassword (user : String) (now : Instant)

/-- A call whose refusals may commit. -/
def settled {α : Type} (call : Tx (Outcome α)) : Tx Unit := do
  let _ ← call

def program (service : Service) : Op → Tx Unit
  | .assign principal role user => assignTenantRoleMember principal role user
  | .revoke principal role user => revokeTenantRoleMember principal role user
  | .changeRole principal role version change => changeTenantRole principal role version change
  | .deleteRole principal role version => deleteTenantRole principal role version
  | .suspend principal user version reason =>
    suspendTenantMember service.config principal user version reason
  | .activate principal user version reason =>
    activateTenantMember service.config principal user version reason
  | .remove principal user version reason =>
    removeTenantMember service.config principal user version reason
  | .restore principal user version reason =>
    restoreTenantMember service.config principal user version reason
  | .updateProfile principal user version profile =>
    updateTenantMemberProfile service.config principal user version profile
  | .update principal request => updateTenantMember service.config principal request
  | .setBusinessScope principal user version sites =>
    setTenantMemberBusinessScope service.config principal user version sites
  | .setAvatar principal version avatar =>
    updateMyPersonalAvatar service.config principal version avatar
  | .changeContact user tenant answer destination version now =>
    settled (completeContactChange service.config service.verification user tenant answer
      destination version now)
  | .deleteSelf user tenant answer version now =>
    settled (completeTenantDeletion service.config service.verification user tenant answer version
      now)
  | .invite principal proposed email => inviteTenantMember service.config principal proposed email
  | .create principal request => createTenantMember service.config principal request
  | .bootstrapMember tenant user email => bootstrapOwnerMember service.config tenant user email
  | .bootstrapRole tenant user => bootstrapOwnerRole tenant user
  | .activateByLink secretHash now => completeMemberActivationLink secretHash now
  | .activateByPassword user now => completeInitialPasswordActivation user now

/-- The database with the operations in flight. -/
abbrev System := Isolation.System Row Failure Unit Op

abbrev Event := Isolation.Event Op

/-- The steps of all operations, in any interleaving. -/
abbrev Steps (service : Service) : System → Event → System → Prop :=
  Isolation.Steps (program service)

/-- An operation that runs alone, from its first statement to its commit. -/
def serve (service : Service) (db : Db) (op : Op) : Option Db :=
  ((program service op).run db).toOption.map Prod.snd

/-- A service that stores contacts as they are given. -/
def plainService : Service where
  config := {
    contacts := {
      normalizeEmail := .ok
      normalizePhone := .ok
      normalizeUsername := .ok
      lower := id
      equalFold := fun first second => first = second
      isMasked := fun _ => false
      maskEmail := id
      maskPhone := id
      protection := none }
    assignableSites := fun _ => true }
  verification := {
    destinationHash := fun _ text => .ok (text, text)
    bindingHash := fun _ _ _ _ _ text => text
    hashCode := fun _ code => code }

/-- The first owner of a tenant. -/
def firstOwner : Principal := ⟨"t", "a", ["owner"], true⟩

/-- A bootstrapped tenant with a second member. -/
def ownedStart : Db :=
  ([.bootstrapMember "t" "a" "a@x", .bootstrapRole "t" "a", .invite firstOwner "b" "b@x",
    .activate firstOwner "b" 1 ""].foldlM (serve plainService) ∅).getD ∅

end Biz.Access
