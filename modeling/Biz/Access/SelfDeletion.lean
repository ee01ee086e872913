import Biz.Access.Footprints

/-!
# Memberships that their members have deleted

A member who deletes their own membership leaves a row that is marked, removed and
blank, without roles and sites. Every later call refuses it: most because it is
removed, a restore because of the mark, an invitation or a creation because the row is
there. Whatever is in flight at once, no call writes a row of that member again.
-/

namespace Biz.Access

open Isolation Runs Text
open Time (Instant)

/-- What is left of a membership after its member has deleted it. -/
structure SelfDeleted (tenant user : String) (db : Db) : Prop where
  row : ∃ row, db.membership? tenant user = some row ∧ row.selfDeletedAt.isSome = true ∧
    row.status = .removed ∧ row.name = "" ∧ row.email = .blank ∧ row.phone = .blank
  roles : ∀ role, Key.memberRole tenant user role ∉ db
  sites : ∀ site, Key.memberSite tenant user site ∉ db

/-- What every call does about the member: nothing. -/
def DeletionPromise (tenant user : String) (_ : Op) (_ : List Key) (before after : Db) : Prop :=
  SelfDeleted tenant user before → SelfDeleted tenant user after

/-- A call that has seen the deleted membership, and written nothing of it. -/
structure Sealed (tenant user : String) (standing : Standing Row) (committed : Db) : Prop where
  committed : SelfDeleted tenant user committed
  opened : ∀ snapshot ∈ standing.snapshot, SelfDeleted tenant user snapshot
  spared : ∀ write ∈ standing.writes, ¬write.1.within tenant user

/-- A part of a call that writes nothing of the member, as long as it sees them deleted. -/
abbrev Refrains (tenant user : String) {α : Type} (code : Tx α) : Prop :=
  Bounds (SelfDeleted tenant user) (fun _ write => ¬write.1.within tenant user) code

section Sealed

variable {tenant user place member : String} {db view committed : Db} {α β : Type}
  {standing : Standing Row}

theorem SelfDeleted.congr (deleted : SelfDeleted tenant user db)
    (same : ∀ key : Key, key.within tenant user → view.lookup key = db.lookup key) :
    SelfDeleted tenant user view := by
  constructor
  case row =>
    obtain ⟨row, found, rest⟩ := deleted.row
    exact ⟨row, (same (.membership tenant user) ⟨rfl, rfl⟩).trans found, rest⟩
  case roles =>
    intro role there
    exact deleted.roles role ((mem_congr (same (.memberRole tenant user role) ⟨rfl, rfl⟩)).mp
      there)
  case sites =>
    intro site there
    exact deleted.sites site ((mem_congr (same (.memberSite tenant user site) ⟨rfl, rfl⟩)).mp
      there)

theorem SelfDeleted.overlay (deleted : SelfDeleted tenant user db) {writes : List Write}
    (spared : ∀ write ∈ writes, ¬write.1.within tenant user) :
    SelfDeleted tenant user (overlay db writes) := by
  apply deleted.congr
  intro key own
  apply lookup_overlay_of_untouched
  rintro write listed rfl
  exact spared write listed own

/-- A membership that is read with some other status, or without the mark, is not the
deleted one. -/
theorem SelfDeleted.apart (deleted : SelfDeleted tenant user view) {row : MembershipRecord}
    (found : view.membership? place member = some row)
    (other : row.status ≠ .removed ∨ row.selfDeletedAt = none) :
    ¬(place = tenant ∧ member = user) := by
  rintro ⟨rfl, rfl⟩
  obtain ⟨_, there, marked, removed, _⟩ := deleted.row
  cases there.symm.trans found
  rcases other with different | unmarked
  · exact different removed
  · rw [unmarked] at marked
    cases marked

theorem SelfDeleted.present (deleted : SelfDeleted tenant user view)
    (absent : view.membership? place member = none) : ¬(place = tenant ∧ member = user) := by
  rintro ⟨rfl, rfl⟩
  obtain ⟨_, found, _⟩ := deleted.row
  cases found.symm.trans absent

section

variable (holds : Sealed tenant user standing committed)

include holds

theorem Sealed.extend {rows : List Key} {writes : List Write}
    (spared : ∀ write ∈ writes, ¬write.1.within tenant user) :
    Sealed tenant user (standing.extend rows writes) committed := by
  refine ⟨holds.committed, holds.opened, ?_⟩
  intro write listed
  rcases List.mem_append.mp listed with early | late
  · exact holds.spared write early
  · exact spared write late

theorem Sealed.currentView : SelfDeleted tenant user (standing.currentView committed) :=
  holds.committed.overlay holds.spared

theorem Sealed.plainView : SelfDeleted tenant user (standing.plainView committed) := by
  apply SelfDeleted.overlay _ holds.spared
  cases opened : standing.snapshot with
  | none => exact holds.committed
  | some snapshot => exact holds.opened snapshot opened

end

theorem sealed_steady : Steady (DeletionPromise tenant user) (Sealed tenant user) where
  rely := by
    intro standing before after holds rely
    refine ⟨?_, holds.opened, holds.spared⟩
    exact rely.invariant (fun _ _ _ _ deleted promised => promised deleted) holds.committed
  opened := by
    intro standing committed holds
    refine ⟨holds.committed, ?_, holds.spared⟩
    intro snapshot taken
    rcases mem_opened taken with rfl | earlier
    · exact holds.committed
    · exact holds.opened snapshot earlier
  locked := fun _ holds => holds.extend nofun

theorem sealed_of_refrains {code : Tx α} (refrains : Refrains tenant user code) :
    Keeps (DeletionPromise tenant user) (fun _ _ _ => True) (Sealed tenant user) code :=
  refrains.keeps sealed_steady (fun _ _ holds => holds.plainView)
    (fun _ _ holds => holds.currentView)
    fun _ _ _ _ holds spared => holds.extend spared

/-- A conditional update that no removed membership passes. -/
theorem refrains_updateMembership {refused : Failure} {condition : MembershipRecord → Bool}
    {change : MembershipRecord → MembershipRecord}
    (unmet : ∀ row, condition row = true → row.status ≠ .removed) :
    Refrains tenant user (updateMembership place member refused condition change) := by
  simp only [updateMembership, bounds_modify]
  intro view deleted _ writes outcome write listed
  obtain ⟨row, found, met, rfl⟩ := membershipUpdate_ok outcome
  cases List.mem_singleton.mp listed
  exact deleted.apart found (.inl (unmet row met))

/-- Of a member who is not the deleted one everything may be written. -/
theorem removable_of_apart (apart : ¬(place = tenant ∧ member = user)) :
    Removable (fun _ write => ¬write.1.within tenant user) place member :=
  ⟨fun _ _ _ _ _ => apart, fun _ _ => apart, fun _ _ => apart, fun _ _ _ => apart,
    fun _ _ _ => apart⟩

end Sealed

/-! ## Roles -/

section Roles

variable {tenant user place member role : String} {principal : Principal} {roleId target : String}

theorem refrains_assignMember : Refrains tenant user (assignMember place role member) := by
  simp only [assignMember, bounds_lock_bind, bounds_read_bind]
  intro _ _ _ _ view deleted row seen
  have found := Checks.found_ok.mp seen
  rw [Option.filter_eq_some_iff, decide_eq_true_eq] at found
  have apart : ¬(Key.memberRole place member role).within tenant user := by
    apply deleted.apart found.1
    left
    rcases found.2 with invited | active
    · simp [invited]
    · simp [active]
  simp [apart]

theorem refrains_assign :
    Refrains tenant user (assignTenantRoleMember principal roleId target) := by
  simp [assignTenantRoleMember, Bounds.bind refrains_assignMember]

theorem refrains_revokeMember : Refrains tenant user (revokeMember place role member) := by
  simp only [revokeMember, lockRole, lockAssignment, bounds_lock_bind, bounds_whenever_bind]
  intro _ _ row _ view deleted assigned seen
  constructor
  · rintro rfl
    have there := of_decide_eq_true (Except.ok.inj seen)
    have apart : ¬(Key.memberRole place member role).within tenant user := by
      rintro ⟨rfl, rfl⟩
      exact deleted.roles role there
    simp [dropAssignment, keepLastOwner, currentActiveOwners, apart]
  · simp

theorem refrains_revoke :
    Refrains tenant user (revokeTenantRoleMember principal roleId target) := by
  simp [revokeTenantRoleMember, Bounds.bind refrains_revokeMember]

theorem refrains_bootstrapOwnerRole {tenantId userId : String} :
    Refrains tenant user (bootstrapOwnerRole tenantId userId) := by
  have admin : Refrains tenant user (ensureTenantAdminRole (trimSpace tenantId)) :=
    bounds_ensureTenantAdminRole fun _ _ _ => not_false
  simp only [bootstrapOwnerRole, bounds_require_bind, bounds_read_bind]
  intro _ view deleted _ seen _ _ hit _
  obtain ⟨row, found, active⟩ := activeMember_iff.mp (Checks.require_ok.mp seen)
  have apart : ∀ role, ¬(Key.memberRole (trimSpace tenantId) (trimSpace userId) role).within tenant
      user := fun _ => deleted.apart found (.inl (by simp [active]))
  cases hit with
  | some row =>
    simp only [bounds_require_bind, bounds_whenever_bind]
    refine fun _ => ⟨fun _ => .bind (bounds_codeRole fun _ _ _ => not_false) ?_, fun _ => ?_⟩
    · exact fun _ => .bind admin (by simp [apart])
    · exact .bind admin (by simp [apart])
  | none =>
    apply Bounds.bind (bounds_insertRole fun _ _ _ => not_false)
    refine fun _ => .bind admin fun _ =>
      Bounds.bind (bounds_writeRows fun _ _ => not_false) ?_
    simp [apart]

end Roles

/-! ## Members -/

section Members

variable {tenant user : String} {config : Config} {principal : Principal} {target : String}
  {version : Nat} {reason : String}

/-- A change of the membership that is refused for a removed one. -/
theorem refrains_mutate {member : String} {beforeApply : Membership → Tx Unit}
    {apply : Membership → Except Failure Membership}
    (before : ∀ current, Refrains tenant user (beforeApply current))
    (refuses : ∀ current changed, apply current = .ok changed → current.status ≠ .removed ∧
      changed.tenantId = current.tenantId ∧ changed.userId = current.userId) :
    Refrains tenant user (mutate config principal member version beforeApply apply) := by
  simp only [mutate, bounds_lift_bind, bounds_read_bind, bounds_require_bind]
  intro place _ view deleted current seen _
  obtain ⟨_, found, inTenant, ofMember, status, _⟩ := getMember_ok seen
  apply Bounds.bind (before current)
  simp only [bounds_lift_bind]
  intro _ changed passed
  obtain ⟨alive, sameTenant, sameUser⟩ := refuses current changed passed
  apply bounds_updateMember
  rw [sameTenant, inTenant, sameUser, ofMember]
  exact (removable_of_apart (deleted.apart found (.inl (status ▸ alive)))).renewed

theorem refrains_suspend :
    Refrains tenant user (suspendTenantMember config principal target version reason) := by
  simp only [suspendTenantMember, bounds_lift_bind]
  intro _ _ _ _
  apply refrains_mutate fun _ => bounds_assertDeactivation
  intro current changed passed
  obtain ⟨active, sameTenant, sameUser⟩ := Membership.suspend_ok passed
  exact ⟨by simp [active], sameTenant, sameUser⟩

theorem refrains_activate :
    Refrains tenant user (activateTenantMember config principal target version reason) := by
  simp only [activateTenantMember, bounds_lift_bind, bounds_read_bind]
  intros
  apply refrains_mutate fun _ => bounds_pure ()
  intro current changed passed
  obtain ⟨idle, sameTenant, sameUser, _⟩ := Membership.activate_ok passed
  refine ⟨?_, sameTenant, sameUser⟩
  rcases idle with invited | suspended
  · simp [invited]
  · simp [suspended]

theorem refrains_updateProfile {profile : Profile} :
    Refrains tenant user (updateTenantMemberProfile config principal target version profile) := by
  simp only [updateTenantMemberProfile, bounds_lift_bind]
  intros
  apply refrains_mutate
  case before => simp
  case refuses =>
    intro current changed passed
    obtain ⟨alive, sameTenant, sameUser, _⟩ := Profile.apply_ok passed
    exact ⟨alive, sameTenant, sameUser⟩

theorem refrains_remove :
    Refrains tenant user (removeTenantMember config principal target version reason) :=
  bounds_remove rfl rfl fun _ _ deleted found alive =>
    removable_of_apart (deleted.apart found (.inl alive))

theorem refrains_restoreMember {restored : Membership} :
    Refrains tenant user (restoreMember restored version) := by
  simp only [restoreMember, lockMembership, bounds_require_bind, bounds_lock_bind, bounds_read_bind]
  intro _ _ view deleted locked seen _ unmarked
  intros
  have apart := deleted.apart (Checks.found_ok.mp seen) (.inr unmarked)
  exact .bind (bounds_updateMembership (removable_of_apart apart).renewed) fun _ =>
    bounds_pure _

theorem refrains_restore :
    Refrains tenant user (restoreTenantMember config principal target version reason) := by
  simp only [restoreTenantMember, bounds_lift_bind, bounds_read_bind, bounds_require_bind]
  intros
  apply Bounds.bind refrains_restoreMember
  intro roles
  apply Bounds.bind
  · exact bounds_forM fun _ _ => refrains_assign
  · simp [readBack]

theorem refrains_update {request : UpdateRequest} :
    Refrains tenant user (updateTenantMember config principal request) := by
  simp only [updateTenantMember, bounds_lift_bind, bounds_read_bind, bounds_require_bind]
  intro _ _ roles _ _ place _ _ _ _ _ view deleted current seen _ changed passed
  obtain ⟨_, found, inTenant, ofMember, status, _⟩ := getMember_ok seen
  obtain ⟨alive, sameTenant, sameUser, _⟩ := Profile.apply_ok passed
  have apart := deleted.apart found (.inl (status ▸ alive))
  apply Bounds.bind
  · apply bounds_updateMember
    rw [sameTenant, sameUser]
    rw [inTenant, ofMember]
    exact (removable_of_apart apart).renewed
  intro _
  apply Bounds.bind
  · exact bounds_forM fun _ _ => refrains_assign
  intro _
  apply Bounds.bind
  · exact bounds_forM fun _ _ => refrains_revoke
  · simp [readBack]

theorem refrains_setBusinessScope {sites : List String} :
    Refrains tenant user (setTenantMemberBusinessScope config principal target version sites) := by
  apply bounds_setBusinessScope rfl rfl
  intro view row deleted found alive
  have apart := deleted.apart found (.inl alive)
  exact ⟨(removable_of_apart apart).renewed, fun _ _ _ => apart⟩

theorem refrains_setAvatar {avatar : String} :
    Refrains tenant user (updateMyPersonalAvatar config principal version avatar) := by
  simp only [updateMyPersonalAvatar, updatePersonalAvatar, bind_bind, bounds_lift_bind,
    bounds_require_bind]
  intros
  apply Bounds.bind
  · apply refrains_updateMembership
    intro row met
    rw [Bool.and_eq_true, decide_eq_true_eq] at met
    exact met.1
  · simp [readBack]

end Members

/-! ## Joining and leaving -/

section Accounts

variable {tenant user place member tenantId userId : String} {config : Config}
  {principal : Principal} {verification : Verification} {answer : Answer} {version : Nat}
  {now : Instant} {row : Option MembershipRecord}

/-- The check that no membership is there, of which the rest knows whose. -/
theorem refrains_noMembership {β : Type} {rest : Unit → Tx β}
    (later : ¬(place = tenant ∧ member = user) → Refrains tenant user (rest ())) :
    Refrains tenant user (noMembership place member >>= rest) := by
  simp only [noMembership, bounds_read_bind]
  intro view deleted _ seen
  exact later (deleted.present (Checks.require_ok.mp seen))

theorem refrains_invite {proposed email : String} :
    Refrains tenant user (inviteTenantMember config principal proposed email) := by
  simp only [inviteTenantMember, bounds_lift_bind, bounds_require_bind]
  intros
  apply Bounds.bind (bounds_accountOf fun _ _ _ => not_false)
  rintro ⟨id, _⟩
  apply refrains_noMembership
  intro apart
  simp only [bounds_lift_bind]
  intros
  exact bounds_insertMembership fun _ => apart

theorem refrains_createMember {contacts : Contacts} {request : CreateRequest} :
    Refrains tenant user (createMember contacts place request) := by
  simp only [createMember, bounds_lift_bind, bounds_require_bind, bounds_read_bind]
  intros
  apply Bounds.bind (bounds_createAccount fun _ _ _ => not_false)
  rintro ⟨id, _⟩
  apply refrains_noMembership
  intro apart
  simp only [bounds_lift_bind]
  intros
  exact .bind (bounds_insertMembership fun _ => apart) (by simp)

theorem refrains_create {request : CreateRequest} :
    Refrains tenant user (createTenantMember config principal request) := by
  simp only [createTenantMember, bounds_lift_bind, bounds_require_bind, bounds_read_bind]
  intros
  apply Bounds.bind refrains_createMember
  intro account
  apply Bounds.bind
  · exact bounds_forM fun _ _ => refrains_assign
  intro _
  exact .bind (bounds_stageActivation fun _ _ => not_false) (by simp [readBack])

/-- The second half of the bootstrap of an owner: the membership must be active or new. -/
theorem refrains_bootstrapMembership {account : Db → Except Failure String}
    {convert : MembershipRecord → Db → Except Failure Membership}
    {fresh : Except Failure MembershipRecord} :
    Refrains tenant user (do
      match ← read fun db => .ok (db.membership? place member) with
      | some row =>
        demand .memberConflict (row.status = .active)
        let _ ← read (convert row)
      | none =>
        let _ ← read account
        let row ← lift fresh
        insertMembership place member row .duplicateKey) := by
  simp only [bounds_read_bind]
  intro view deleted found seen
  cases found with
  | some row => simp
  | none =>
    have apart := deleted.present (Except.ok.inj seen)
    simp only [bounds_read_bind, bounds_lift_bind]
    intros
    exact bounds_insertMembership fun _ => apart

theorem refrains_bootstrapOwnerMember {email : String} :
    Refrains tenant user (bootstrapOwnerMember config tenantId userId email) := by
  simp only [bootstrapOwnerMember, bounds_lift_bind, bounds_require_bind, bounds_read_bind]
  intro _ normalized _ _ _ account _
  cases account with
  | some row =>
    simp only [bounds_lift_bind, bounds_require_bind]
    intros
    exact refrains_bootstrapMembership
  | none =>
    simp only [bounds_lift_bind]
    intros
    apply Bounds.bind (bounds_insertUser fun _ _ _ => not_false)
    simp only [bounds_lift_bind]
    intros
    exact refrains_bootstrapMembership

theorem refrains_completeMemberActivation :
    Refrains tenant user (completeMemberActivation place member) := by
  apply Bounds.bind
  · apply refrains_updateMembership
    intro row met
    simp [of_decide_eq_true met]
  · simp [Key.within]
    grind

theorem refrains_activateByLink {secretHash : String} :
    Refrains tenant user (completeMemberActivationLink secretHash now) := by
  simp [completeMemberActivationLink, refrains_completeMemberActivation]

theorem refrains_activateByPassword {login : String} :
    Refrains tenant user (completeInitialPasswordActivation login now) := by
  simp only [completeInitialPasswordActivation, bounds_lock_bind]
  intros
  split <;> simp [refrains_completeMemberActivation]

/-- A membership that its member may act on is active. -/
theorem ownMembership_ok {member : MembershipRecord}
    (own : ownMembership row version = .ok member) :
    row = some member ∧ member.status = .active := by
  unfold ownMembership at own
  split at own
  · cases own
  · split at own
    · rename_i meant
      cases own
      exact ⟨rfl, meant.1⟩
    · cases own

theorem SelfDeleted.apart_of_own {view : Db} (deleted : SelfDeleted tenant user view)
    {own : MembershipRecord} (seen : view.membership? place member = row)
    (passed : ownMembership row version = .ok own) : ¬(place = tenant ∧ member = user) := by
  obtain ⟨rfl, active⟩ := ownMembership_ok passed
  exact deleted.apart seen (.inl (by simp [active]))

theorem refrains_settled {α : Type} {call : Tx (Outcome α)} (refrains : Refrains tenant user call) :
    Refrains tenant user (settled call) :=
  Bounds.bind refrains fun _ => bounds_pure ()

theorem refrains_changeContact {destination : String} :
    Refrains tenant user (completeContactChange config verification userId tenantId answer
      destination version now) := by
  simp only [completeContactChange, bounds_require_bind]
  intro _
  refine bounds_outcome (bounds_verifyChallenge fun _ _ _ => not_false)
    (fun _ => bounds_pure _) fun verified => ?_
  simp only [bounds_lock_bind]
  intro view deleted row seen
  cases own : ownMembership row version with
  | error failure => exact bounds_pure _
  | ok membership =>
    have apart := deleted.apart_of_own (Except.ok.inj seen) own
    refine bounds_outcome (bounds_read _) (fun _ => bounds_pure _) fun _ => ?_
    simp only [bounds_lift_bind]
    intro change _
    refine bounds_outcome (bounds_settleMembership (removable_of_apart apart).renewed)
      (fun _ => bounds_pure _) fun _ => ?_
    exact .bind (bounds_consumeChallenge fun _ _ _ => not_false) fun _ => bounds_pure _

theorem refrains_deleteSelf :
    Refrains tenant user (completeTenantDeletion config verification userId tenantId answer version
      now) := by
  simp only [completeTenantDeletion, bounds_require_bind]
  intro _
  refine bounds_outcome bounds_canLeave (fun _ => bounds_pure _) fun _ => ?_
  exact bounds_deleteOwnMembership (fun _ _ _ => not_false)
    fun _ _ _ deleted found own => removable_of_apart (deleted.apart_of_own found own)

end Accounts

section Runs

variable {service : Service} {tenant user : String}

/-- No operation writes a row of the member. -/
theorem refrains_program (op : Op) : Refrains tenant user (program service op) := by
  cases op with
  | assign => exact refrains_assign
  | revoke => exact refrains_revoke
  | changeRole => exact bounds_changeTenantRole fun _ _ _ => not_false
  | deleteRole => exact bounds_deleteTenantRole (fun _ _ _ => not_false) fun _ _ _ _ _ => not_false
  | suspend => exact refrains_suspend
  | activate => exact refrains_activate
  | remove => exact refrains_remove
  | restore => exact refrains_restore
  | updateProfile => exact refrains_updateProfile
  | update => exact refrains_update
  | setBusinessScope => exact refrains_setBusinessScope
  | setAvatar => exact refrains_setAvatar
  | changeContact => exact refrains_settled refrains_changeContact
  | deleteSelf => exact refrains_settled refrains_deleteSelf
  | invite => exact refrains_invite
  | create => exact refrains_create
  | bootstrapMember => exact refrains_bootstrapOwnerMember
  | bootstrapRole => exact refrains_bootstrapOwnerRole
  | activateByLink => exact refrains_activateByLink
  | activateByPassword => exact refrains_activateByPassword

theorem selfDeleted_of_run {start : Db} {events : List Event} {last : System}
    (deleted : SelfDeleted tenant user start)
    (run : Run (Steps service) (quiet start) events last) :
    SelfDeleted tenant user last.committed := by
  have settles : ∀ op, True → ∀ committed, SelfDeleted tenant user committed →
      Ends (DeletionPromise tenant user) (fun _ _ _ => True) op (program service op) .fresh
        committed := by
    intro op _ committed deleted
    have fresh : Sealed tenant user .fresh committed :=
      ⟨deleted, fun _ taken => (nomatch taken), fun _ listed => (nomatch listed)⟩
    apply wp_mono _ (sealed_of_refrains (refrains_program op) _ _ fresh)
    intro _ standing committed holds now rely _ _
    exact (Steady.rely sealed_steady holds rely).currentView
  have admitted := run_admitted (fun _ _ _ => trivial) run
  exact (sound_of_run (fun _ _ _ _ deleted promised => promised deleted) settles admitted
    (sound_quiet deleted)).invariant

end Runs

/-! ## The deletion itself -/

section Deletion

variable {service : Service} {tenant user : String} {db : Db} {now : Instant} {version : Nat}

/-- The database after some rows are deleted. -/
structure Deleted (make : String → Key) (values : List String) (before after : Db) : Prop where
  gone : ∀ value, (make value ∈ before → value ∈ values) → make value ∉ after
  kept : ∀ key, (∀ value, make value ≠ key) → after.lookup key = before.lookup key

theorem deleted_overlay (make : String → Key) (values : List String) :
    Deleted make values db (overlay db ((values.map make).map fun key => ⟨key, none⟩)) := by
  constructor
  case gone =>
    intro value listed
    rw [← AList.lookup_isSome, lookup_overlay_deleted]
    split
    · simp
    · rename_i unlisted
      rw [AList.lookup_isSome]
      exact fun there => unlisted (List.mem_map_of_mem (listed there))
  case kept =>
    intro key foreign
    rw [lookup_overlay_deleted, if_neg]
    intro listed
    obtain ⟨value, _, same⟩ := List.mem_map.mp listed
    exact foreign value same

theorem after_deleteRows {make : String → Key} {values : Db → List String}
    {post : Unit → Db → Prop}
    (holds : ∀ after, Deleted make (values db) db after → post () after) :
    After post (deleteRows fun db => (values db).map make) db := by
  unfold deleteRows
  apply after_modify_last
  intro _ writes outcome
  cases outcome
  exact holds _ (deleted_overlay make (values db))

/-- The erasure leaves the membership without roles and sites. -/
theorem after_eraseMember {post : Unit → Db → Prop}
    (holds : ∀ after : Db, (∀ role, Key.memberRole tenant user role ∉ after) →
      (∀ site, Key.memberSite tenant user site ∉ after) →
      after.membership? tenant user = db.membership? tenant user → post () after) :
    After post (eraseMember tenant user) db := by
  apply after_bind
  apply after_deleteRows
  intro first roles
  apply after_bind
  apply after_deleteRows
  intro second sites
  apply after_bind
  apply after_deleteRows
  intro third keptRoles
  apply after_deleteRows
  intro last keptSites
  apply holds
  · intro role there
    refine roles.gone role mem_rolesOf.mpr ?_
    rw [← mem_congr (sites.kept (.memberRole tenant user role) fun _ => Key.noConfusion),
      ← mem_congr (keptRoles.kept _ fun _ => Key.noConfusion),
      ← mem_congr (keptSites.kept _ fun _ => Key.noConfusion)]
    exact there
  · intro site there
    refine sites.gone site mem_sitesOf.mpr ?_
    rw [← mem_congr (keptRoles.kept (.memberSite tenant user site) fun _ => Key.noConfusion),
      ← mem_congr (keptSites.kept _ fun _ => Key.noConfusion)]
    exact there
  · rw [Db.membership?, keptSites.kept _ fun _ => Key.noConfusion,
      keptRoles.kept _ fun _ => Key.noConfusion, sites.kept _ fun _ => Key.noConfusion,
      roles.kept _ fun _ => Key.noConfusion]
    rfl

/-- The mark on a membership. -/
def Marked (tenant user : String) (db : Db) : Prop :=
  ∃ row, db.membership? tenant user = some row ∧ row.selfDeletedAt.isSome = true

theorem marked_congr {after : Db}
    (same : after.membership? tenant user = db.membership? tenant user) :
    Marked tenant user after ↔ Marked tenant user db := by
  unfold Marked
  rw [same]

/-- A part that writes challenges only does not mark. -/
theorem membership_of_challenges {writes : List Write}
    (challenges : ∀ write ∈ writes, ∃ id, write.1 = Key.challenge id) :
    Db.membership? (overlay db writes) tenant user = db.membership? tenant user := by
  apply lookup_overlay_of_untouched
  intro write listed same
  obtain ⟨id, challenge⟩ := challenges write listed
  cases challenge.symm.trans same

/-- The row that a deletion writes. -/
theorem selfDeleted_written {row : MembershipRecord}
    (noRoles : ∀ role, Key.memberRole tenant user role ∉ db)
    (noSites : ∀ site, Key.memberSite tenant user site ∉ db) :
    SelfDeleted tenant user (overlay db [⟨.membership tenant user,
      some { row.selfDeleted now with version := version }⟩]) := by
  constructor
  case row => exact ⟨_, lookup_overlay_one _ _, rfl, rfl, rfl, rfl, rfl⟩
  case roles =>
    intro role there
    exact noRoles role ((mem_congr (lookup_overlay_one_of_ne _ Key.noConfusion)).mp there)
  case sites =>
    intro site there
    exact noSites site ((mem_congr (lookup_overlay_one_of_ne _ Key.noConfusion)).mp there)

theorem after_deleteOwnMembership {config : Config} {verification : Verification} {answer : Answer}
    (unmarked : ¬Marked tenant user db) :
    After (fun _ after => Marked tenant user after → SelfDeleted tenant user after)
      (deleteOwnMembership config verification user tenant answer version now) db := by
  have consuming : Bounds (fun _ => True) (fun _ write => ∃ id, write.1 = Key.challenge id)
      (consumeChallenge (trimSpace answer.challengeId) now) :=
    bounds_consumeChallenge fun _ id _ => ⟨id, rfl⟩
  apply after_lock
  intro row seen
  cases own : ownMembership row version with
  | error failure => exact after_pure fun marked => absurd marked unmarked
  | ok membership =>
    apply after_lift
    intro destination _
    unfold settleUnless
    split
    · apply after_bind
      have challenging : Bounds (fun _ => True) (fun _ write => ∃ id, write.1 = Key.challenge id)
          (verifyChallenge verification config.contacts .accountDeletion user tenant answer
            destination now) :=
        bounds_verifyChallenge fun _ id _ => ⟨id, rfl⟩
      apply after_bounds challenging
      intro verified challenged challenges
      have still : ¬Marked tenant user (overlay db challenged) := by
        rw [marked_congr (membership_of_challenges challenges)]
        exact unmarked
      cases verified with
      | error failure => exact after_pure fun marked => absurd marked still
      | ok verified =>
        apply after_bind
        apply after_eraseMember
        intro erased noRoles noSites kept
        apply after_bind
        apply after_modify_last
        intro outcome writes written
        rcases settledUpdate_ok written with rfl | ⟨_, _, _, _, rfl, rfl⟩
        · have unwritten : ¬Marked tenant user erased := by
            rw [marked_congr kept]
            exact still
          cases outcome with
          | error failure => exact after_pure fun marked => absurd marked unwritten
          | ok =>
            apply after_bind
            apply after_bounds consuming
            intro _ consumed challenges
            refine after_pure fun marked => absurd marked ?_
            rw [marked_congr (membership_of_challenges challenges)]
            exact unwritten
        · apply after_bind
          apply after_bounds consuming
          intro _ consumed challenges
          apply after_pure
          intro _
          apply SelfDeleted.overlay _ fun write listed => ?_
          · apply selfDeleted_written noRoles noSites
          · obtain ⟨id, challenge⟩ := challenges write listed
            rw [challenge]
            exact not_false
    · exact after_pure fun marked => absurd marked unmarked

/-- A deletion that marks a membership leaves it blank, without roles and sites. -/
theorem selfDeleted_of_deletion {start : Db} {userId tenantId : String} {answer : Answer}
    (home : trimSpace tenantId = tenant) (named : trimSpace userId = user)
    (unmarked : ¬Marked tenant user db)
    (served : serve service db (.deleteSelf userId tenantId answer version now) = some start)
    (marked : Marked tenant user start) : SelfDeleted tenant user start := by
  subst home named
  obtain ⟨result, ran, rfl⟩ := Option.map_eq_some_iff.mp served
  have deletes : After (fun _ after => Marked (trimSpace tenantId) (trimSpace userId) after →
      SelfDeleted (trimSpace tenantId) (trimSpace userId) after)
      (program service (.deleteSelf userId tenantId answer version now)) db := by
    apply after_bind
    apply after_require
    intro _
    apply after_bind
    apply after_silent bounds_canLeave
    intro allowed
    cases allowed with
    | error failure =>
      apply after_pure
      exact after_pure fun marked => absurd marked unmarked
    | ok =>
      apply After.mono _ (after_deleteOwnMembership unmarked)
      intro _ after deletes
      exact after_pure deletes
  cases outcome : (program service (.deleteSelf userId tenantId answer version now)).run db with
  | error failure =>
    rw [outcome] at ran
    cases ran
  | ok result =>
    rw [outcome] at ran
    cases ran
    exact deletes.run outcome marked

end Deletion

/-- A self-deletion is final. The deletion that marks a membership leaves it removed and
blank, without roles and sites; and from there every operation, in every interleaving
and from any caller, leaves it so. -/
theorem self_deletion_is_final (service : Service) (tenant user : String) :
    (∀ before start userId tenantId answer version now, trimSpace tenantId = tenant →
      trimSpace userId = user → ¬Marked tenant user before →
      serve service before (.deleteSelf userId tenantId answer version now) = some start →
      Marked tenant user start → SelfDeleted tenant user start) ∧
    ∀ start events last, SelfDeleted tenant user start →
      Run (Steps service) (quiet start) events last →
      SelfDeleted tenant user last.committed := by
  constructor
  · intro before start userId tenantId answer version now home named unmarked served marked
    exact selfDeleted_of_deletion home named unmarked served marked
  · intro start events last deleted run
    exact selfDeleted_of_run deleted run

section Sample

/-- A member with a role, who may delete themself, and a remaining owner. -/
def leaving : Db :=
  overlay ∅ [⟨.user "b", some ⟨none, { Contact.blank with plain := "b" }, true⟩⟩,
    ⟨.membership "t" "b", some ⟨.active, "B", { Contact.blank with plain := "b" }, .blank, "", "",
      "", "", none, 1⟩⟩,
    ⟨.role "r", some ⟨"t", "r", "", none, false, none, .active, 1⟩⟩,
    ⟨.memberRole "t" "b" "r", some ()⟩,
    ⟨.challenge "c", some ⟨.accountDeletion, "b", "t", "f", .email, "b", "b", "1", 0, 5, 10, none⟩⟩]

def deletion : Op := .deleteSelf "b" "t" ⟨.email, "c", "f", "1"⟩ 1 1

/-- An owner restores the member and assigns the role to them, at the same time. -/
def revival : List Event :=
  [.start 0 (.restore firstOwner "b" 2 ""), .start 1 (.assign firstOwner "r" "b"),
    .advance 0, .advance 1, .advance 0, .advance 1, .advance 0, .advance 1]

theorem leaving_left :
    (¬∃ row ∈ leaving.membership? "t" "b", row.selfDeletedAt.isSome = true) ∧
    (serve plainService leaving deletion).any (fun start =>
      (Db.membership? start "t" "b").any (fun row => row.selfDeletedAt.isSome) &&
      (revival.foldlM (step (program plainService)) (quiet start)).any
        fun last => decide (last.live.keys = [])) = true := by
  decide +kernel

/-- Neither a restore nor an assignment brings a deleted member back. -/
theorem member_stays_deleted : ∃ start last,
    serve plainService leaving deletion = some start ∧
      Run (Steps plainService) (quiet start) revival last ∧
      SelfDeleted "t" "b" last.committed := by
  obtain ⟨unmarked, outcome⟩ := leaving_left
  obtain ⟨start, served, outcome⟩ := (Option.any_eq_true _ _).mp outcome
  rw [Bool.and_eq_true] at outcome
  obtain ⟨row, found, marked⟩ := (Option.any_eq_true _ _).mp outcome.1
  obtain ⟨last, reached, _⟩ := (Option.any_eq_true _ _).mp outcome.2
  have run := run_of_foldlM reached
  obtain ⟨deletes, stays⟩ := self_deletion_is_final plainService "t" "b"
  refine ⟨start, last, served, run, stays start revival last ?_ run⟩
  exact deletes leaving start "b" "t" _ _ _ (by decide +kernel) (by decide +kernel)
    (fun ⟨row, found, marked⟩ => unmarked ⟨row, found, marked⟩) served ⟨row, found, marked⟩

end Sample

end Biz.Access
