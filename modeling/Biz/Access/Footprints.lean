import Biz.Access.Operations
import Biz.Library.Footprint

/-!
# What the calls write

The footprint of every call on a member: which rows it can write and, where that
matters, whether it can only delete them. A footprint says nothing of when the call
succeeds, and holds whatever the call reads.
-/

namespace Biz.Access

open Isolation Text

/-- The rows of one member. -/
def Key.within (place member : String) : Key → Prop
  | .membership home holder | .memberRole home holder _ | .memberSite home holder _
  | .removedRole home holder _ | .removedSite home holder _ => home = place ∧ holder = member
  | _ => False

/-- A write that gives a membership a later version is allowed. -/
def Renewable (allowed : Db → Write → Prop) (place member : String) : Prop :=
  ∀ view row next, Db.membership? view place member = some row → row.version < next.version →
    allowed view ⟨.membership place member, some next⟩

variable {seen : Db → Prop} {allowed : Db → Write → Prop}
  {change : MembershipRecord → MembershipRecord}

/-! ## Single statements -/

theorem bounds_deleteRows {make : String → Key} {values : Db → List String}
    (deleted : ∀ view value, allowed view ⟨make value, none⟩) :
    Bounds seen allowed (deleteRows fun db => (values db).map make) := by
  simp [deleteRows, deleted]

/-- Rows that are written for each of a list of values. -/
theorem bounds_writeRows {values : List String} {make : String → Write}
    (written : ∀ view value, allowed view (make value)) :
    Bounds seen allowed (modify fun _ => return ((), values.map make)) := by
  simp [written]

theorem bounds_writeRow {row : Write} (written : ∀ view, allowed view row) :
    Bounds seen allowed (modify fun _ => return ((), [row])) := by
  simp [written]

theorem bounds_updateMembership {place member : String} {refused : Failure}
    {condition : MembershipRecord → Bool} (renewed : Renewable allowed place member) :
    Bounds seen allowed (updateMembership place member refused condition change) := by
  rw [updateMembership, modify, bounds_modify]
  intro view _ _ writes outcome write listed
  obtain ⟨row, found, _, rfl⟩ := membershipUpdate_ok outcome
  cases List.mem_singleton.mp listed
  exact renewed view row _ found (Nat.lt_succ_self _)

variable {version : Nat}

theorem bounds_settleMembership {place member : String} (renewed : Renewable allowed place member) :
    Bounds seen allowed (settleMembership place member version change) := by
  rw [settleMembership, modify, bounds_modify]
  intro view _ _ writes outcome write listed
  rcases settledUpdate_ok outcome with rfl | ⟨row, found, _, _, _, rfl⟩
  · cases listed
  · cases List.mem_singleton.mp listed
    exact renewed view row _ found (Nat.lt_succ_self _)

/-! ## Roles -/

section Roles

variable {place member role : String} {principal : Principal} {roleId target : String}

theorem bounds_assertMemberCanDeactivate :
    Bounds seen allowed (assertMemberCanDeactivate place member) := by
  have last : ∀ owner, Bounds seen allowed (assertNotLastOwner place member owner) := by
    intro owner
    cases owner with
    | none => exact bounds_pure ()
    | some role => simp [assertNotLastOwner, lockAssignment, keepLastOwner, currentActiveOwners]
  simp [assertMemberCanDeactivate, last]

theorem bounds_assertTenantMemberDeactivationAllowed {user : String} :
    Bounds seen allowed (assertTenantMemberDeactivationAllowed principal user) := by
  simp [assertTenantMemberDeactivationAllowed, bounds_assertMemberCanDeactivate]

/-- The check before a member leaves writes nothing. -/
theorem bounds_assertDeactivation {current : Membership} :
    Bounds seen allowed (assertDeactivation principal current) := by
  simp [assertDeactivation, bounds_assertTenantMemberDeactivationAllowed]

theorem bounds_assignMember
    (assigned : ∀ view, allowed view ⟨.memberRole place member role, some ()⟩) :
    Bounds seen allowed (assignMember place role member) := by
  simp [assignMember, assigned]

theorem bounds_assign (assigned : ∀ view, allowed view
      ⟨.memberRole (trimSpace principal.tenantId) (trimSpace target) (trimSpace roleId), some ()⟩) :
    Bounds seen allowed (assignTenantRoleMember principal roleId target) := by
  simp only [assignTenantRoleMember, bounds_require_bind, bounds_lift_bind]
  intro _ found trusted
  cases trustedTenantId_ok trusted
  apply Bounds.bind (bounds_assignMember assigned)
  intro _
  exact bounds_pure ()

theorem bounds_revokeMember (revoked : ∀ view, allowed view ⟨.memberRole place member role, none⟩) :
    Bounds seen allowed (revokeMember place role member) := by
  simp [revokeMember, lockRole, lockAssignment, dropAssignment, keepLastOwner, currentActiveOwners,
    revoked]

theorem bounds_revoke (revoked : ∀ view, allowed view
      ⟨.memberRole (trimSpace principal.tenantId) (trimSpace target) (trimSpace roleId), none⟩) :
    Bounds seen allowed (revokeTenantRoleMember principal roleId target) := by
  simp only [revokeTenantRoleMember, bounds_require_bind, bounds_lift_bind]
  intro _ found trusted
  cases trustedTenantId_ok trusted
  apply Bounds.bind (bounds_revokeMember revoked)
  intro _
  exact bounds_pure ()

end Roles

/-! ## Members -/

section Members

variable {place member : String} {version : Nat}

theorem bounds_updateMember {contacts : Contacts} {changed : Membership}
    (renewed : Renewable allowed changed.tenantId changed.userId) :
    Bounds seen allowed (updateMember contacts changed version) := by
  simp [updateMember, bounds_updateMembership renewed]

/-- What a member has is taken away, and a note of it is kept. -/
structure Removable (allowed : Db → Write → Prop) (place member : String) : Prop where
  renewed : Renewable allowed place member
  roles : ∀ view role, allowed view ⟨.memberRole place member role, none⟩
  sites : ∀ view site, allowed view ⟨.memberSite place member site, none⟩
  keptRoles : ∀ view role row, allowed view ⟨.removedRole place member role, row⟩
  keptSites : ∀ view site row, allowed view ⟨.removedSite place member site, row⟩

theorem bounds_removeMember {removed : Membership}
    (removable : Removable allowed removed.tenantId removed.userId) :
    Bounds seen allowed (removeMember removed version) := by
  simp [removeMember, lockMembership, deleteRows, bounds_updateMembership removable.renewed,
    removable.roles, removable.sites, removable.keptRoles, removable.keptSites]

theorem bounds_restoreMember {restored : Membership}
    (renewed : Renewable allowed restored.tenantId restored.userId) :
    Bounds seen allowed (restoreMember restored version) := by
  simp only [restoreMember, lockMembership, bounds_require_bind,
    bounds_lock_bind, bounds_read_bind]
  intros
  apply Bounds.bind (bounds_updateMembership renewed)
  intro _
  exact bounds_pure _

theorem bounds_replaceSites {sites : List String} (renewed : Renewable allowed place member)
    (assigned : ∀ view site row, allowed view ⟨.memberSite place member site, row⟩) :
    Bounds seen allowed (replaceSites place member version sites) := by
  simp [replaceSites, deleteRows, assigned, bounds_updateMembership renewed]

theorem bounds_eraseMember (removable : Removable allowed place member) :
    Bounds seen allowed (eraseMember place member) := by
  simp [eraseMember, deleteRows, removable.roles, removable.sites, removable.keptRoles,
    removable.keptSites]

end Members

/-! ## Calls on a member -/

section Calls

variable {place member : String} {config : Config} {principal : Principal} {target : String}
  {version : Nat} {reason : String} (home : trimSpace principal.tenantId = place)
  (named : trimSpace target = member)

include home named

theorem bounds_setBusinessScope {sites : List String}
    (replaceable : ∀ view row, seen view → Db.membership? view place member = some row →
      row.status ≠ .removed → Renewable allowed place member ∧
        ∀ view site row, allowed view ⟨.memberSite place member site, row⟩) :
    Bounds seen allowed (setTenantMemberBusinessScope config principal target version sites) := by
  simp only [setTenantMemberBusinessScope, bounds_lift_bind]
  intro _ _ found trusted
  rw [trustedTenantId_ok trusted, home, named]
  simp only [replaceBusinessScope, lockMembership, bounds_lift_bind,
    bounds_read_bind, bounds_require_bind, bounds_lock_bind,
    bounds_whenever]
  intro _ _ _ _ _ _ _ _ _ _ _ _ view fits locked there alive
  intros
  obtain ⟨renewed, assigned⟩ := replaceable view locked fits (Checks.found_ok.mp there) alive
  exact bounds_replaceSites renewed assigned

theorem bounds_remove (removable : ∀ view row, seen view →
      Db.membership? view place member = some row → row.status ≠ .removed →
      Removable allowed place member) :
    Bounds seen allowed (removeTenantMember config principal target version reason) := by
  simp only [removeTenantMember, bounds_lift_bind, bounds_read_bind,
    bounds_require_bind]
  intro _ _ _ _ found trusted
  rw [trustedTenantId_ok trusted, home, named]
  intro view fits current read _
  obtain ⟨row, there, inTenant, ofMember, status, _⟩ := getMember_ok read
  apply Bounds.bind bounds_assertDeactivation
  rw [bounds_lift_bind]
  intro _ removed passed
  obtain ⟨alive, sameTenant, sameUser⟩ := Membership.remove_ok passed
  apply bounds_removeMember
  rw [sameTenant, inTenant, sameUser, ofMember]
  exact removable view row fits there (status ▸ alive)

theorem bounds_restore (renewed : Renewable allowed place member)
    (roles : ∀ view role, allowed view ⟨.memberRole place member role, some ()⟩) :
    Bounds seen allowed (restoreTenantMember config principal target version reason) := by
  simp only [restoreTenantMember, bounds_lift_bind, bounds_read_bind,
    bounds_require_bind]
  intro _ _ _ _ found trusted
  rw [trustedTenantId_ok trusted, home, named]
  intro view _ current read _ restored passed
  obtain ⟨_, _, inTenant, ofMember, _⟩ := getMember_ok read
  obtain ⟨sameTenant, sameUser⟩ := Membership.restore_ok passed
  rw [← inTenant, ← sameTenant, ← ofMember, ← sameUser] at renewed
  apply Bounds.bind (bounds_restoreMember renewed)
  intro kept
  apply Bounds.bind
  · apply bounds_forM
    intro role _
    apply bounds_assign
    rw [home, ← named, trimSpace_trimSpace, named]
    exact fun view => roles view _
  · simp [readBack]

end Calls

/-! ## Calls that write other rows as well -/

section Others

variable {contacts : Contacts} {place member : String}

theorem bounds_changeTenantRole {principal : Principal} {roleId : String}
    {change : RoleChange} (roles : ∀ view id row, allowed view ⟨.role id, row⟩) :
    Bounds seen allowed (changeTenantRole principal roleId version change) := by
  simp [changeTenantRole, updateRole, lockRole, checkUnused, -bind_pure_comp]
  grind

theorem bounds_deleteTenantRole {principal : Principal} {roleId : String}
    (roles : ∀ view id row, allowed view ⟨.role id, row⟩)
    (grants : ∀ view tenant role permission row,
      allowed view ⟨.grant tenant role permission, row⟩) :
    Bounds seen allowed (deleteTenantRole principal roleId version) := by
  simp [deleteTenantRole, deleteRole, lockRole, checkUnused]
  grind

section

variable (users : ∀ view id row, allowed view ⟨.user id, row⟩)

include users

theorem bounds_insertUser {id : String} {row : UserRecord} :
    Bounds seen allowed (insertUser id row) := by
  rw [insertUser, modify, bounds_modify]
  intro view _ _ writes outcome write listed
  split at outcome
  · cases outcome
    cases listed
  · cases outcome
    cases listed
  · cases outcome
    cases List.mem_singleton.mp listed
    exact users _ _ _

/-- Finding or making an account writes accounts only. -/
theorem bounds_accountOf {proposed email : String} :
    Bounds seen allowed (accountOf contacts proposed email) := by
  rw [accountOf, read, bounds_read_bind]
  intro view _ hit _
  cases hit with
  | some account => exact bounds_pure _
  | none =>
    rw [lift, bounds_lift_bind]
    intro row _
    apply Bounds.bind (bounds_insertUser users)
    intro inserted
    cases inserted with
    | ok => exact bounds_pure _
    | error failure => simp [lockAccount]

theorem bounds_nameAccount {id username : String} :
    Bounds seen allowed (nameAccount id username) := by
  rw [nameAccount, modify, bounds_modify]
  intro view _ _ writes outcome write listed
  split at outcome
  · cases outcome
    cases listed
  · obtain ⟨_, _, returned⟩ := Checks.bind_ok.mp outcome
    cases returned
    cases List.mem_singleton.mp listed
    exact users _ _ _

theorem bounds_createAccount {proposed username email : String} :
    Bounds seen allowed (createAccount contacts proposed username email) := by
  rw [createAccount, lock, bounds_lock_bind]
  intro view _ named _
  cases named with
  | some account => simp
  | none =>
    apply Bounds.bind
    · split
      · exact bounds_pure none
      · exact bounds_lock _ _
    intro hit
    cases hit with
    | some account => simp [Bounds.bind (bounds_nameAccount users)]
    | none =>
      rw [lift, bounds_lift_bind]
      intro row _
      apply Bounds.bind (bounds_insertUser users)
      simp

end

theorem bounds_insertMembership {row : MembershipRecord} {duplicate : Failure}
    (membership : ∀ view, allowed view ⟨.membership place member, some row⟩) :
    Bounds seen allowed (insertMembership place member row duplicate) := by
  simp [insertMembership, membership, -bind_pure_comp]

theorem bounds_stageActivation {request : CreateRequest} {created : Bool}
    (activation : ∀ view row, allowed view ⟨.activation place member, row⟩) :
    Bounds seen allowed (stageActivation place member request created) := by
  simp [stageActivation, activation, -bind_pure_comp]

section Roles

variable {tenant : String} (roles : ∀ view id row, allowed view ⟨.role id, row⟩)

include roles

theorem bounds_insertRole {id : String} {row : RoleRecord} :
    Bounds seen allowed (insertRole id row) := by
  simp [insertRole, roles, -bind_pure_comp]

theorem bounds_codeRole {id : String} {change : RoleRecord → RoleRecord} :
    Bounds seen allowed (codeRole tenant id change) := by
  rw [codeRole, modify, bounds_modify]
  intro view _ _ writes outcome write listed
  split at outcome
  · cases outcome
    cases listed
  · obtain ⟨_, _, returned⟩ := Checks.bind_ok.mp outcome
    cases returned
    cases List.mem_singleton.mp listed
    exact roles _ _ _

theorem bounds_ensureTenantAdminRole : Bounds seen allowed (ensureTenantAdminRole tenant) := by
  rw [ensureTenantAdminRole, read, bounds_read_bind]
  intro view _ found _
  cases found with
  | some row => simp [bounds_codeRole roles]
  | none => exact bounds_insertRole roles

end Roles

/-- A check whose refusal commits. -/
@[simp]
theorem bounds_settleUnless {α : Type} {failure : Failure} {condition : Prop} [Decidable condition]
    {rest : Tx (Outcome α)} :
    Bounds seen allowed (settleUnless failure condition rest) ↔
      (condition → Bounds seen allowed rest) := by
  unfold settleUnless
  split <;> simp [*]

/-- A part that may refuse without failing. -/
theorem bounds_outcome {α β : Type} {first : Tx (Outcome α)} {rest : Outcome α → Tx β}
    (before : Bounds seen allowed first)
    (refused : ∀ failure, Bounds seen allowed (rest (.error failure)))
    (passed : ∀ value, Bounds seen allowed (rest (.ok value))) :
    Bounds seen allowed (first >>= rest) := by
  apply Bounds.bind before
  intro outcome
  cases outcome with
  | error failure => exact refused failure
  | ok value => exact passed value

section Challenges

variable (challenges : ∀ view id row, allowed view ⟨.challenge id, row⟩) {now : Time.Instant}

include challenges

/-- Verifying a code writes the challenge only. -/
theorem bounds_verifyChallenge {verification : Verification} {purpose : Purpose}
    {user tenant : String} {answer : Answer} {destination : String} :
    Bounds seen allowed
      (verifyChallenge verification contacts purpose user tenant answer destination
      now) := by
  simp only [verifyChallenge, bounds_settleUnless, bounds_lock_bind]
  intro _ view _ found _
  cases found with
  | none => exact bounds_pure _
  | some challenge =>
    simp only [bounds_settleUnless, bounds_lift_bind]
    intros
    split
    · exact bounds_pure _
    · simp [countAttempt, challenges]

theorem bounds_consumeChallenge {id : String} : Bounds seen allowed (consumeChallenge id now) := by
  simp [consumeChallenge, -bind_pure_comp]
  grind

/-- A member deletes their own membership, which the call has seen to be theirs. -/
theorem bounds_deleteOwnMembership {config : Config} {verification : Verification} {answer : Answer}
    (removable : ∀ view row own, seen view → view.membership? place member = row →
      ownMembership row version = .ok own → Removable allowed place member) :
    Bounds seen allowed
      (deleteOwnMembership config verification member place answer version now) := by
  simp only [deleteOwnMembership, bounds_lock_bind]
  intro view fits row found
  cases own : ownMembership row version with
  | error failure => exact bounds_pure _
  | ok membership =>
    have removable := removable view row membership fits (Except.ok.inj found) own
    simp only [bounds_lift_bind, bounds_settleUnless]
    intro destination _ _
    refine bounds_outcome (bounds_verifyChallenge challenges)
      (fun _ => bounds_pure _) fun verified => ?_
    apply Bounds.bind (bounds_eraseMember removable)
    intro _
    refine bounds_outcome (bounds_settleMembership removable.renewed)
      (fun _ => bounds_pure _) fun _ => ?_
    exact .bind (bounds_consumeChallenge challenges) fun _ => bounds_pure _

end Challenges

/-- The check of a member who leaves writes nothing. -/
theorem bounds_canLeave : Bounds seen allowed (canLeave place member) := by
  simp only [canLeave, bounds_settleUnless, bounds_lock_bind]
  intro _ view _ owner _
  cases owner with
  | none => exact bounds_pure _
  | some role =>
    simp only [lockAssignment, bounds_lock_bind]
    intro _ _ assigned _
    cases assigned <;> simp [currentActiveOwners]

end Others

end Biz.Access
