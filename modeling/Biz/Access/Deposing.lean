import Biz.Access.Footprints
import Biz.Access.Ownership

/-!
# Owners and callers who are none

The caller of a request is resolved when the request comes in: an active user with an
active membership of an active tenant, and the names of the active roles they hold.
The suspension or removal of an owner is refused to a caller without the owner role.
The assignment and the revocation of a role make no such check, also for the owner
role, so that the protection holds exactly as far as nobody assigns it to a caller or
revokes it.

The database finds a row by its own comparison of identifiers, and an assignment is stored
as the request spells it. The roles of a member are then matched as texts, so that an owner
who is not spelled as they are stored has no protection. The tenant and the callers are
named as they are stored.
-/

namespace Biz.Access

open Isolation Text

-- The stored identifier that the database finds for an identifier.
variable (reads : String → String)

/-- The roles of a user, as the database joins them. -/
def Db.joinedRoles (db : Db) (tenant user : String) : List RoleRecord :=
  db.keys.filterMap fun
    | .memberRole home holder role =>
      if home = tenant ∧ reads holder = user then db.role? tenant (reads role) else none
    | _ => none

/-- `resolveWebUserPrincipal`. -/
def Db.principal? (db : Db) (tenant user : String) : Option Principal :=
  if (db.user? user).any (fun row => row.active) = true ∧
      (db.lookup (.tenant tenant)).any (fun row => row.status = .active) = true ∧
      db.activeMember tenant user = true then
    some ⟨tenant, user, (((db.joinedRoles reads tenant user).filter fun role =>
      role.status = .active).map RoleRecord.name).insertionSort (· ≤ ·), true⟩
  else none

/-- A request on the roles or the membership of a member. -/
inductive Request
  | assign (role user : String)
  | revoke (role user : String)
  | suspend (user : String) (version : Nat) (reason : String)
  | remove (user : String) (version : Nat) (reason : String)

/-- An assignment names what it stores, any other request the rows that are found. -/
def Request.op (principal : Principal) : Request → Op
  | .assign role user => .assign principal role user
  | .revoke role user => .revoke principal (reads (trimSpace role)) (reads (trimSpace user))
  | .suspend user version reason => .suspend principal (reads (trimSpace user)) version reason
  | .remove user version reason => .remove principal (reads (trimSpace user)) version reason

/-- A request of one user of the tenant. A request that is refused changes nothing. -/
def act (service : Service) (tenant : String) (db : Db) (step : String × Request) : Db :=
  ((db.principal? reads tenant step.1).bind fun principal =>
    serve service db (step.2.op reads principal)).getD db

/-- The assignments of the tenant are spelled like the roles and members they name. -/
def Spelled (tenant : String) (db : Db) : Prop :=
  ∀ user role, Key.memberRole tenant user role ∈ db → reads user = user ∧ reads role = role

/-- The owner role is active, and no other role of the tenant has its name. -/
structure OwnerRole (tenant owner : String) (db : Db) : Prop where
  active : ∃ row, db.role? tenant owner = some row ∧ row.name = tenantOwnerRoleName ∧
    row.status = .active
  only : ∀ id row, db.role? tenant id = some row → row.name = tenantOwnerRoleName → id = owner

/-- The owner role is not assigned to one of the callers, nor revoked, and an assignment
spells the role and the member as they are stored. -/
def Request.Spares (callers : List String) (owner : String) : Request → Prop
  | .assign role user =>
    (reads (trimSpace user) = trimSpace user ∧ reads (trimSpace role) = trimSpace role) ∧
      (trimSpace role = owner → trimSpace user ∉ callers)
  | .revoke role _ => trimSpace (reads (trimSpace role)) ≠ owner
  | _ => True

/-- A write that touches no owner, makes no caller one and is spelled as it is stored. -/
def Spared (tenant owner : String) (callers : List String) (db : Db) : Write → Prop
  | ⟨.role _, _⟩ => False
  | ⟨.membership home holder, _⟩ => home = tenant → Key.memberRole tenant holder owner ∉ db
  | ⟨.memberRole home holder role, none⟩ => home = tenant → role = owner →
      Key.memberRole tenant holder owner ∉ db
  | ⟨.memberRole home holder role, some ()⟩ => home = tenant →
      (reads holder = holder ∧ reads role = role) ∧ (role = owner → holder ∉ callers)
  | _ => True

section Spared

variable {reads : String → String} {tenant owner : String} {callers : List String} {db : Db}
  {writes : List Write} (spared : ∀ write ∈ writes, Spared reads tenant owner callers db write)

include spared

theorem spared_role (id : String) :
    (overlay db writes).lookup (.role id) = db.lookup (.role id) := by
  apply lookup_overlay_of_untouched
  rintro ⟨_, _⟩ listed rfl
  exact spared _ listed

theorem spared_ownerRole (role : OwnerRole tenant owner db) :
    OwnerRole tenant owner (overlay db writes) := by
  have same : ∀ id, Db.role? (overlay db writes) tenant id = db.role? tenant id := by
    intro id
    rw [Db.role?, Db.role?, spared_role spared id]
  constructor
  · obtain ⟨row, found, holds⟩ := role.active
    exact ⟨row, (same owner).trans found, holds⟩
  · intro id row found
    exact role.only id row ((same id).symm.trans found)

theorem spared_owns {member : String} (owns : Owns tenant owner db member) :
    Owns tenant owner (overlay db writes) member := by
  obtain ⟨active, holds⟩ := owns
  constructor
  · have untouched : Db.membership? (overlay db writes) tenant member =
        db.membership? tenant member := by
      apply lookup_overlay_of_untouched
      rintro ⟨_, _⟩ listed rfl
      exact spared _ listed rfl holds
    rw [Db.activeMember, untouched]
    exact active
  · rcases lookup_overlay_cases db writes (.memberRole tenant member owner) with
      same | written
    · exact (mem_congr same).mpr holds
    · have kept := spared _ written
      rw [← AList.lookup_isSome]
      cases found : (overlay db writes).lookup (.memberRole tenant member owner) with
      | none =>
        rw [found] at kept
        exact absurd holds (kept rfl rfl)
      | some _ => rfl

/-- An assignment that is there afterwards was there before, or is spelled as it is stored
and makes no caller an owner. -/
theorem spared_assignment {user role : String}
    (there : Key.memberRole tenant user role ∈ overlay db writes) :
    Key.memberRole tenant user role ∈ db ∨
      (reads user = user ∧ reads role = role) ∧ (role = owner → user ∉ callers) := by
  rcases lookup_overlay_cases db writes (.memberRole tenant user role) with same | written
  · exact .inl ((mem_congr same).mp there)
  · obtain ⟨_, found⟩ := Option.isSome_iff_exists.mp (AList.lookup_isSome.mpr there)
    rw [found] at written
    exact .inr (spared _ written rfl)

end Spared

section Requests

variable {reads : String → String} {service : Service} {tenant owner : String}
  {callers : List String} {db after : Db} {principal : Principal}

/-- A caller who holds no owner role does not act under its name. -/
theorem principal?_outside (role : OwnerRole tenant owner db) (spelled : Spelled reads tenant db)
    {caller : String} (outside : Key.memberRole tenant caller owner ∉ db)
    (resolved : db.principal? reads tenant caller = some principal) :
    tenantOwnerRoleName ∉ principal.roles := by
  unfold Db.principal? at resolved
  split at resolved
  · cases resolved
    intro listed
    rw [List.mem_insertionSort, List.mem_map] at listed
    obtain ⟨row, filtered, named⟩ := listed
    obtain ⟨key, there, joined⟩ := List.mem_filterMap.mp (List.mem_filter.mp filtered).1
    split at joined
    · rename_i home holder id
      split at joined
      · rename_i holds
        obtain ⟨rfl, rfl⟩ := holds
        have same := role.only _ row joined named
        obtain ⟨asHolder, asRole⟩ := spelled holder id there
        rw [asHolder, ← same, asRole] at outside
        exact outside there
      · cases joined
    · cases joined
  · cases resolved

/-- The target that passes the check on the caller is no owner. -/
theorem deactivation_spares (role : OwnerRole tenant owner db)
    (powerless : tenantOwnerRoleName ∉ principal.roles) {contacts : Contacts} {target : String}
    {current : Membership} (seen : db.getMember contacts tenant target = .ok current)
    (passed : assertTenantMemberDeactivationActor principal current = .ok ()) :
    Key.memberRole tenant target owner ∉ db := by
  intro holds
  obtain ⟨row, found, named, active⟩ := role.active
  obtain ⟨_, _, first⟩ := Checks.bind_ok.mp passed
  obtain ⟨_, _, second⟩ := Checks.bind_ok.mp first
  rcases Checks.require_ok.mp second with ordinary | empowered
  · obtain ⟨_, _, _, _, _, _, roles⟩ := getMember_ok seen
    have listed : (⟨owner, row.name, row.status⟩ : MemberRoleSummary) ∈ current.roles := by
      rw [roles]
      exact List.mem_filterMap.mpr ⟨owner, mem_rolesOf.mpr holds, by rw [found]; rfl⟩
    have refused := List.any_eq_false.mp ordinary _ listed
    simp [named, active] at refused
  · exact powerless empowered

/-- What is left of the database after a call whose writes are all spared. -/
def Sparing (reads : String → String) (tenant owner : String) (callers : List String) (db : Db)
    (_ : Unit) (after : Db) : Prop :=
  ∃ writes : List Write, (∀ write ∈ writes, Spared reads tenant owner callers db write) ∧
    after = overlay db writes

theorem sparing_of_bounds {code : Tx Unit}
    (bounds : Bounds (fun _ => True) (fun _ => Spared reads tenant owner callers db) code) :
    After (Sparing reads tenant owner callers db) code db :=
  after_bounds bounds fun _ writes spared => ⟨writes, spared, rfl⟩

/-- The check before a member leaves passes the check on the caller and writes nothing. -/
theorem after_assertDeactivation {β : Type} {current : Membership} {post : β → Db → Prop}
    {rest : Unit → Tx β} (holds : assertTenantMemberDeactivationActor principal current = .ok () →
      After post (rest ()) db) : After post (assertDeactivation principal current >>= rest) db := by
  apply after_bind
  apply after_lift
  intro _ passed
  exact after_silent bounds_assertTenantMemberDeactivationAllowed fun _ => holds passed

variable {principal : Principal} {target : String} {version : Nat} {reason : String}
  (role : OwnerRole tenant owner db)
  (powerless : tenantOwnerRoleName ∉ principal.roles)

include role powerless

/-- What a suspension and a removal do before they change the member: they read them and
check the caller. -/
theorem after_leaving {post : Unit → Db → Prop} {leave : Membership → Tx Unit}
    (holds : ∀ current, (current.tenantId = tenant →
      Key.memberRole tenant current.userId owner ∉ db) → After post (leave current) db) :
    After post (do
      lift (checkMemberRequest target version)
      let _ ← lift (normalizeReason reason)
      let place ← lift (trustedTenantId principal)
      let current ← read fun db => db.getMember service.config.contacts place (trimSpace target)
      demand .memberConflict (current.version = version)
      assertDeactivation principal current
      leave current) db := by
  apply after_lift
  intro _ _
  apply after_lift
  intro _ _
  apply after_lift
  intro place _
  apply after_read
  intro current seen
  obtain ⟨_, _, inTenant, ofMember, _⟩ := getMember_ok seen
  apply after_require
  intro _
  apply after_assertDeactivation
  intro passed
  apply holds
  rw [inTenant, ofMember]
  rintro rfl
  exact deactivation_spares role powerless seen passed

theorem sparing_suspend :
    After (Sparing reads tenant owner callers db)
      (suspendTenantMember service.config principal target version reason) db := by
  apply after_leaving role powerless
  intro current free
  apply after_lift
  intro changed suspended
  obtain ⟨_, sameTenant, sameUser⟩ := Membership.suspend_ok suspended
  apply sparing_of_bounds
  apply bounds_updateMember
  intro _ _ _ _ _ here
  rw [sameTenant] at here
  rw [sameUser]
  exact free here

theorem sparing_remove :
    After (Sparing reads tenant owner callers db)
      (removeTenantMember service.config principal target version reason) db := by
  apply after_leaving role powerless
  intro current free
  apply after_lift
  intro removed passedRemoval
  obtain ⟨_, sameTenant, sameUser⟩ := Membership.remove_ok passedRemoval
  apply sparing_of_bounds
  apply bounds_removeMember
  rw [sameTenant, sameUser]
  exact ⟨fun _ _ _ _ _ => free, fun _ _ here _ => free here, fun _ _ => trivial,
    fun _ _ _ => trivial, fun _ _ _ => trivial⟩

/-- What one request of a caller without the owner role leaves alone. -/
theorem sparing_request {request : Request} (spares : request.Spares reads callers owner) :
    After (Sparing reads tenant owner callers db)
      (program service (request.op reads principal)) db := by
  cases request with
  | assign roleId user =>
    apply sparing_of_bounds
    apply bounds_assign
    exact fun _ _ => spares
  | revoke roleId user =>
    apply sparing_of_bounds
    apply bounds_revoke
    intro _ _ named
    exact absurd named spares
  | suspend user version reason => exact sparing_suspend role powerless
  | remove user version reason => exact sparing_remove role powerless

end Requests

/-- What the requests keep: the role, the spelling of assignments, callers who do not hold
the role, and the owners. -/
structure Guards (tenant owner : String) (callers : List String) (start db : Db) : Prop where
  role : OwnerRole tenant owner db
  spelled : Spelled reads tenant db
  outside : ∀ caller ∈ callers, Key.memberRole tenant caller owner ∉ db
  owners : ∀ member, Owns tenant owner start member → Owns tenant owner db member

section Sequences

variable {reads : String → String} {service : Service} {tenant owner : String}
  {callers : List String} {start db : Db}

/-- One request keeps them. -/
theorem guards_act {step : String × Request} (guards : Guards reads tenant owner callers start db)
    (issued : step.1 ∈ callers) (spares : step.2.Spares reads callers owner) :
    Guards reads tenant owner callers start (act reads service tenant db step) := by
  unfold act
  cases resolved : db.principal? reads tenant step.1 with
  | none => exact guards
  | some principal =>
    have powerless :=
      principal?_outside guards.role guards.spelled (guards.outside _ issued) resolved
    rw [Option.bind_some, serve]
    cases ran : (program service (step.2.op reads principal)).run db with
    | error failure => exact guards
    | ok result =>
      obtain ⟨_, spared, same⟩ :=
        (sparing_request guards.role powerless spares).run ran
      change Guards reads tenant owner callers start result.2
      rw [same]
      constructor
      case role => exact spared_ownerRole spared guards.role
      case spelled =>
        intro user role there
        exact (spared_assignment spared there).elim (guards.spelled user role) And.left
      case outside =>
        intro caller listed there
        rcases spared_assignment spared there with before | ⟨_, free⟩
        · exact guards.outside caller listed before
        · exact free rfl listed
      case owners =>
        intro member owned
        exact spared_owns spared (guards.owners member owned)

/-- Requests of callers without the owner role, none of which assigns it to a caller or
revokes it, leave every owner an active owner, if assignments are spelled as their roles
and members are stored. -/
theorem owners_not_deposed {steps : List (String × Request)} (role : OwnerRole tenant owner start)
    (spelled : Spelled reads tenant start)
    (outside : ∀ caller ∈ callers, Key.memberRole tenant caller owner ∉ start)
    (issued : ∀ step ∈ steps, step.1 ∈ callers)
    (spares : ∀ step ∈ steps, step.2.Spares reads callers owner) {member : String}
    (owned : Owns tenant owner start member) :
    Owns tenant owner (steps.foldl (act reads service tenant) start) member := by
  have guards : Guards reads tenant owner callers start
      (steps.foldl (act reads service tenant) start) := by
    refine List.foldlRecOn steps (act reads service tenant)
      (motive := Guards reads tenant owner callers start)
      ⟨role, spelled, outside, fun _ owned => owned⟩ ?_
    intro db guards step listed
    exact guards_act guards (issued step listed) (spares step listed)
  exact guards.owners member owned

end Sequences

section Sample

/-- An owner and a member without roles. -/
def usurped : Db :=
  overlay ∅ [⟨.tenant "t", some ⟨.active, 1⟩⟩,
    ⟨.user "a", some ⟨none, { Contact.blank with plain := "a" }, true⟩⟩,
    ⟨.user "b", some ⟨none, { Contact.blank with plain := "b" }, true⟩⟩,
    ⟨.membership "t" "a", some ⟨.active, "", .blank, .blank, "", "", "", "", none, 1⟩⟩,
    ⟨.membership "t" "b", some ⟨.active, "", .blank, .blank, "", "", "", "", none, 1⟩⟩,
    ⟨.role "o", some (systemRole "t" tenantOwnerRoleName .tenantOwner)⟩,
    ⟨.memberRole "t" "a" "o", some ()⟩]

theorem usurped_keys : usurped.keys = [.memberRole "t" "a" "o", .role "o", .membership "t" "b",
    .membership "t" "a", .user "b", .user "a", .tenant "t"] := by
  decide +kernel

theorem usurped_ownerRole : OwnerRole "t" "o" usurped := by
  constructor
  · exact ⟨systemRole "t" tenantOwnerRoleName .tenantOwner, by decide +kernel, rfl, rfl⟩
  · intro id row found _
    obtain ⟨there, _⟩ := role?_eq_some.mp found
    have listed : Key.role id ∈ usurped.keys :=
      AList.lookup_isSome.mp (Option.isSome_of_eq_some there)
    rw [usurped_keys] at listed
    simpa using listed

/-- A member without the owner role assigns it to themself, and then revokes it from the
only owner. -/
theorem usurper_deposes_owner :
    OwnerRole "t" "o" usurped ∧ Key.memberRole "t" "b" "o" ∉ usurped ∧ Owns "t" "o" usurped "a" ∧
      ¬Owns "t" "o" ([("b", .assign "o" "b"), ("b", .revoke "o" "a")].foldl
        (act ignoreCase plainService "t") usurped) "a" := by
  refine ⟨usurped_ownerRole, ?_⟩
  unfold Owns
  decide +kernel

theorem usurped_spelled : Spelled ignoreCase "t" usurped := by
  intro user role there
  have listed : Key.memberRole "t" user role ∈ usurped.keys := there
  rw [usurped_keys] at listed
  obtain ⟨rfl, rfl⟩ : user = "a" ∧ role = "o" := by simpa using listed
  decide +kernel

/-- A suspension of the owner by that member is refused, however it spells the owner. -/
theorem owner_not_suspended :
    Owns "t" "o" ([("b", .suspend "A" 1 ""), ("b", .remove "a" 1 "")].foldl
      (act ignoreCase plainService "t") usurped) "a" := by
  have outside : ∀ caller ∈ ["b"], Key.memberRole "t" caller "o" ∉ usurped := by
    decide +kernel
  apply owners_not_deposed usurped_ownerRole usurped_spelled outside
  · simp
  · simp [Request.Spares]
  · unfold Owns
    decide +kernel

end Sample

end Biz.Access
