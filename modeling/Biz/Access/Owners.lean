import Biz.Access.Footprints
import Biz.Access.Ownership

/-!
# A tenant keeps an owner

Each transaction that can take an owner away locks the row of the owner role first and
then counts the active owners with locking reads; the count locks the rows of every
owner it finds. A change of a profile writes back the status from its snapshot, and only
its version check shows that this status is still the current one.
-/

namespace Biz.Access

open Runs Text Isolation

section Operations

variable {tenant owner place member user role : String} {α β : Type} {assumes : Assumption Row}
  {principal : Principal} {version : Nat} {status : MemberStatus} {refused : Failure}
  {condition : MembershipRecord → Bool} {change : MembershipRecord → MembershipRecord}
  {standing : Standing Row} {committed db : Db}

variable (tenant owner place member) in
/-- Progress, and the last owner is not at stake. -/
def Secured (standing : Standing Row) (committed : Db) : Prop :=
  Progress tenant owner place member standing committed ∧
    (place = tenant → Spare tenant owner member standing committed)

theorem secured_steady :
    Steady (OwnerPromise tenant owner) (Secured tenant owner place member) where
  rely := fun secured rely =>
    ⟨Steady.rely progress_steady secured.1 rely, fun here => (secured.2 here).rely rely⟩
  opened := fun secured => ⟨Steady.opened progress_steady secured.1, secured.2⟩
  locked := fun rows secured =>
    ⟨Steady.locked progress_steady rows secured.1, fun here =>
      (secured.2 here).mono (held_extend _ rows [])⟩

variable (tenant owner place member assumes) in
/-- A part of a call that makes progress. -/
abbrev Safe (code : Tx α) : Prop :=
  Keeps (OwnerPromise tenant owner) assumes (Progress tenant owner place member) code

variable (tenant owner place member) in
/-- A write to the rows of the member that makes nobody an owner. -/
def Lowers (view : Db) (write : Write) : Prop :=
  write.1.concerns place member ∧ Moves tenant owner False write.1 (view.lookup write.1) write.2

theorem removable_lowers : Removable (Lowers tenant owner place member) place member where
  renewed := fun _ _ _ found newer => ⟨⟨rfl, rfl⟩, advances_of_lt found newer⟩
  roles := fun _ _ => ⟨⟨rfl, rfl⟩, fun _ _ => nofun⟩
  sites := fun _ _ => ⟨trivial, trivial⟩
  keptRoles := fun _ _ _ => ⟨trivial, trivial⟩
  keptSites := fun _ _ _ => ⟨trivial, trivial⟩

/-- Once secured, an operation may take away what its member has. -/
theorem secured_of_bounds {code : Tx α}
    (bounds : Bounds (fun _ => True) (Lowers tenant owner place member) code) :
    Keeps (OwnerPromise tenant owner) assumes (Secured tenant owner place member) code := by
  apply bounds.keeps secured_steady (fun _ _ _ => trivial) (fun _ _ _ => trivial)
  intro standing committed rows writes secured lowers
  refine ⟨?_, fun here => (secured.2 here).mono (held_extend _ rows writes)⟩
  apply secured.1.write rows (fun write written => (lowers write written).1)
  · intro key
    rcases lookup_overlay_cases (standing.currentView committed) writes key
      with same | written
    · rw [same]
      exact moves_refl key _
    · exact Moves.mono False.elim key _ _ (lowers _ written).2
  · exact fun here => .inr (secured.2 here)

theorem safe_assignMember :
    Safe tenant owner place member assumes (assignMember place role member) := by
  intro standing committed progress
  apply Steady.wp_lock progress_steady progress
  intro now row progress seen
  have locked : Key.role role ∈ (standing.extend
      (Db.present (standing.currentView now) [.role role]) []).held := by
    obtain ⟨found, _⟩ := Option.filter_eq_some_iff.mp (Checks.found_ok.mp seen)
    have present := AList.lookup_isSome.mp (Option.isSome_of_eq_some (role?_eq_some.mp found).1)
    simp [Standing.extend, mem_present, present]
  have steady : Steady (OwnerPromise tenant owner) fun standing committed =>
      Progress tenant owner place member standing committed ∧ Key.role role ∈ standing.held :=
    Steady.and progress_steady (steady_held _)
  apply wp_mono (fun _ _ _ both => And.left both)
  apply Keeps.bind (steady.read _) _ _ _ ⟨progress, locked⟩
  intro _
  apply Keeps.bind
  · apply steady.modify
    rintro standing now value writes ⟨progress, locked⟩ written
    cases written
    exact ⟨progress.writeAssignment locked, held_extend _ [] _ _ locked⟩
  · intro _
    exact steady.read _

theorem mem_activeHolders : user ∈ db.activeHolders tenant owner ↔ Owns tenant owner db user := by
  simp only [Db.activeHolders, List.mem_filter, mem_holders, Owns, and_comm]

/-- More than one owner leaves one besides any given member. -/
theorem exists_other_owner (several : 1 < (db.activeHolders tenant owner).length)
    (member : String) : ∃ user, user ≠ member ∧ user ∈ db.activeHolders tenant owner := by
  by_contra none
  have only : db.activeHolders tenant owner ⊆ [member] := by
    intro user holds
    by_contra other
    exact none ⟨user, fun same => other (List.mem_singleton.mpr same), holds⟩
  have few := (List.subperm_of_subset (nodup_holders.filter _) only).length_le
  exact absurd several (not_lt.mpr few)

variable {post : β → Assertion Row}

/-- The count of owners locks the rows of the owner who stays. -/
theorem wp_currentActiveOwners (progress : Progress tenant owner tenant member standing committed)
    {rest : Nat → Tx β}
    (holds : ∀ count standing now, Progress tenant owner tenant member standing now →
      (1 < count → Secured tenant owner tenant member standing now) →
      wp (OwnerPromise tenant owner) assumes post (rest count) standing now) :
    wp (OwnerPromise tenant owner) assumes post (currentActiveOwners tenant owner >>= rest)
      standing committed := by
  apply Steady.wp_lock progress_steady progress
  intro now count progress seen
  cases seen
  apply holds _ _ _ progress
  intro several
  refine ⟨progress, fun _ => .inl ?_⟩
  obtain ⟨user, other, holds⟩ := exists_other_owner several member
  have foreign : ¬(tenant = tenant ∧ user = member) := fun same => other same.2
  have owns := mem_activeHolders.mp holds
  refine ⟨user, other, ?_, ?_, ?_⟩
  · exact List.mem_append_right _ (List.mem_append_left _
      (List.mem_flatMap.mpr ⟨user, holds, by simp⟩))
  · exact List.mem_append_right _ (List.mem_append_left _
      (List.mem_flatMap.mpr ⟨user, holds, by simp⟩))
  · rw [← overlay_nil (standing.currentView now)] at owns
    rw [← currentView_extend] at owns
    exact owns.congr (progress.unchanged (.membership tenant user) foreign).symm
      (progress.unchanged (.memberRole tenant user owner) foreign).symm

theorem keepLastOwner_secures (progress : Progress tenant owner tenant member standing committed) :
    wp (OwnerPromise tenant owner) assumes (fun _ => Secured tenant owner tenant member)
      (keepLastOwner tenant owner) standing committed := by
  apply wp_currentActiveOwners progress
  intro count standing now progress secured
  apply wp_require_last
  exact secured

/-- The owner role in what a current statement sees. -/
theorem Progress.viewRole (progress : Progress tenant owner place member standing committed) :
    Db.ownerRole (standing.currentView committed) tenant = some owner := by
  rw [← progress.role]
  exact ownerRole_congr fun id => progress.unchanged (.role id) not_false

theorem isOwner_of_ownerRole {row : RoleRecord} (first : db.ownerRole tenant = some owner)
    (found : db.role? tenant owner = some row) : row.isOwner = true := by
  have member : owner ∈ db.ownerRoles tenant := List.min?_mem first
  obtain ⟨_, sameFound, isOwner⟩ := mem_ownerRoles.mp member
  cases found.symm.trans sameFound
  exact isOwner

theorem safe_dropAssignment {isOwner : Bool}
    (guarded : place = tenant → role = owner → isOwner = true) :
    Safe tenant owner place member assumes (dropAssignment place role member isOwner) := by
  by_cases stake : place = tenant ∧ role = owner
  · obtain ⟨rfl, rfl⟩ := stake
    intro standing committed progress
    apply wp_whenever
    · intro _
      rw [wp_bind]
      apply wp_mono _ (keepLastOwner_secures progress)
      intro _ standing committed secured
      apply wp_mono (fun _ _ _ both => And.left both)
      apply secured_of_bounds _ _ _ secured
      exact bounds_writeRow fun _ => removable_lowers.roles _ _
    · intro unguarded
      exact absurd (guarded rfl rfl) unguarded
  · apply Keeps.bind
    · apply Bounds.keeps_steady _ progress_steady
      simp [keepLastOwner, currentActiveOwners]
    intro _
    apply Steady.modify progress_steady
    intro standing now value writes progress written
    cases written
    apply progress.write []
    · intro write written
      cases List.mem_singleton.mp written
      exact ⟨rfl, rfl⟩
    · apply overlay_one_related moves_refl
      intro _ _ moved
      cases moved
    · intro here
      refine .inl (overlay_one_related raises_refl _ ?_)
      exact fun _ same => absurd ⟨here, same⟩ stake

theorem safe_revokeMember :
    Safe tenant owner place member assumes (revokeMember place role member) := by
  intro standing committed progress
  apply Steady.wp_lock progress_steady progress
  intro now row progress seen
  have found := Checks.found_ok.mp seen
  apply Keeps.bind (Steady.lock progress_steady _ _) _ _ _ progress
  intro assigned
  apply Keeps.bind
  · apply keeps_whenever
    intro _
    apply safe_dropAssignment
    rintro rfl rfl
    have first := progress.viewRole
    rw [currentView_extend, overlay_nil] at first
    exact isOwner_of_ownerRole first found
  · intro _
    exact Steady.read progress_steady _

section

variable (progress : Progress tenant owner tenant member standing committed)

include progress

/-- Under the lock on the owner role, a member without the role stays without it. -/
theorem Progress.spare_of_absent (locked : .role owner ∈ standing.held)
    (absent : Key.memberRole tenant member owner ∉ standing.currentView committed) :
    Spare tenant owner member standing committed := by
  rcases progress.raises rfl with raises | spare
  · refine .inr ⟨locked, fun present => absent ?_⟩
    exact AList.lookup_isSome.mp (raises (.memberRole tenant member owner) rfl rfl
      (AList.lookup_isSome.mpr present))
  · exact spare

/-- The locking read of the owner role. -/
theorem wp_lockOwner {rest : Option String → Tx β}
    (holds : ∀ standing now, Progress tenant owner tenant member standing now →
      .role owner ∈ standing.held → wp (OwnerPromise tenant owner) assumes post
        (rest (some owner)) standing now) :
    wp (OwnerPromise tenant owner) assumes post
      (lock (fun db => (db.ownerRole tenant).toList.map .role)
        (fun db => .ok (db.ownerRole tenant)) >>= rest) standing committed := by
  apply Steady.wp_lock progress_steady progress
  intro now value progress seen
  have first := progress.viewRole
  rw [currentView_extend, overlay_nil] at first
  rw [first] at seen
  cases seen
  apply holds _ _ progress
  rw [first]
  simp [Standing.extend]

/-- The locking read of the assignment to the owner role: a member without it cannot
get it. -/
theorem wp_lockAssignment (locked : .role owner ∈ standing.held) {rest : Bool → Tx β}
    (assigned : ∀ standing now, Progress tenant owner tenant member standing now →
      wp (OwnerPromise tenant owner) assumes post (rest true) standing now)
    (unassigned : ∀ standing now, Secured tenant owner tenant member standing now →
      wp (OwnerPromise tenant owner) assumes post (rest false) standing now) :
    wp (OwnerPromise tenant owner) assumes post
      (lockAssignment tenant owner member >>= rest) standing committed := by
  apply Steady.wp_lock progress_steady progress
  intro now value progress seen
  by_cases present : Key.memberRole tenant member owner ∈ standing.currentView now
  · simp only [present, decide_true, Except.ok.injEq] at seen
    subst seen
    exact assigned _ _ progress
  · simp only [present, decide_false, Except.ok.injEq] at seen
    subst seen
    apply unassigned _ _
    refine ⟨progress, fun _ => progress.spare_of_absent (held_extend _ _ _ _ locked) ?_⟩
    rw [currentView_extend, overlay_nil]
    exact present

end

/-- The check before a member leaves: another owner stays, or the member is none. -/
theorem assertMemberCanDeactivate_secures
    (progress : Progress tenant owner place member standing committed) :
    wp (OwnerPromise tenant owner) assumes (fun _ => Secured tenant owner place member)
      (assertMemberCanDeactivate place member) standing committed := by
  by_cases here : place = tenant
  · subst here
    apply wp_require
    intro _
    apply wp_lockOwner progress
    intro standing now progress locked
    apply wp_lockAssignment progress locked
    · intro standing now progress
      exact keepLastOwner_secures progress
    · intro standing now secured
      exact wp_pure secured
  · apply wp_mono _ (bounds_assertMemberCanDeactivate.keeps_steady progress_steady _ _ progress)
    intro _ standing committed progress
    exact ⟨progress, fun same => absurd same here⟩

/-- The check of a member who deletes themself, whose refusal commits. -/
theorem canLeave_secures (progress : Progress tenant owner place member standing committed) :
    wp (OwnerPromise tenant owner) assumes
      (fun outcome standing committed => Progress tenant owner place member standing committed ∧
        (outcome = .ok () → Secured tenant owner place member standing committed))
      (canLeave place member) standing committed := by
  by_cases here : place = tenant
  · subst here
    unfold canLeave settleUnless
    split
    · apply wp_lockOwner progress
      intro standing now progress locked
      apply wp_lockAssignment progress locked
      · intro standing now progress
        apply wp_currentActiveOwners progress
        intro count standing now progress secured
        exact wp_pure ⟨progress, fun passed => secured (Checks.require_ok.mp passed)⟩
      · intro standing now secured
        exact wp_pure ⟨secured.1, fun _ => secured⟩
    · exact wp_pure ⟨progress, fun passed => by cases passed⟩
  · apply wp_mono _ (bounds_canLeave.keeps_steady progress_steady _ _ progress)
    intro _ standing committed progress
    exact ⟨progress, fun _ => ⟨progress, fun same => absurd same here⟩⟩

/-- A conditional update of the membership, under an assertion that rules out that it
takes the last owner away. -/
theorem keeps_updateMembership {kept : Assertion Row}
    (steady : Steady (OwnerPromise tenant owner) kept)
    (progress : ∀ {standing committed}, kept standing committed →
      Progress tenant owner place member standing committed)
    (lasting : ∀ {standing committed} writes, kept standing committed →
      Progress tenant owner place member (standing.extend [] writes) committed →
      kept (standing.extend [] writes) committed)
    (raise : ∀ {standing committed row}, kept standing committed →
      (standing.currentView committed).lookup (.membership place member) = some row →
      condition row = true → place = tenant →
      (row.status = .active → (change row).status = .active) ∨
        Spare tenant owner member standing committed) :
    Keeps (OwnerPromise tenant owner) assumes kept
      (updateMembership place member refused condition change) := by
  apply steady.modify
  intro standing now value writes holds written
  obtain ⟨_, found, passed, rfl⟩ := membershipUpdate_ok written
  apply lasting _ holds
  apply (progress holds).writeMembership found (Nat.lt_succ_self _)
  intro here
  exact raise holds found passed here

theorem safe_updateMembership
    (raise : ∀ row, condition row = true → row.status = .active → (change row).status = .active) :
    Safe tenant owner place member assumes
      (updateMembership place member refused condition change) :=
  keeps_updateMembership progress_steady id (fun _ _ progress => progress)
    fun _ _ passed _ => .inl (raise _ passed)

/-- The membership has kept the status that it was seen with, or its version has moved. -/
def Seen (place member : String) (version : Nat) (status : MemberStatus) (_ : Standing Row)
    (committed : Db) : Prop :=
  Follows version status (committed.membership? place member)

theorem seen_steady :
    Steady (OwnerPromise tenant owner) (Seen place member version status) where
  rely := fun seen rely => seen.trans <| rely.induct
    (fun before after => Advances (before.lookup (.membership place member))
      (after.lookup (.membership place member)))
    (fun _ => advances_refl _) Advances.trans
    fun _ _ promised => promised.1 (.membership place member)
  opened := id
  locked := fun _ => id

/-- Progress, with a membership that was seen before. -/
abbrev Recalling (tenant owner place member : String) (version : Nat) (status : MemberStatus)
    (standing : Standing Row) (committed : Db) : Prop :=
  Progress tenant owner place member standing committed ∧
    Seen place member version status standing committed

theorem recalling_steady :
    Steady (OwnerPromise tenant owner) (Recalling tenant owner place member version status) :=
  Steady.and progress_steady seen_steady

/-- The update that writes back the status which was seen at the version it checks. -/
theorem recalling_updateMembership (checked : ∀ row, condition row = true → row.version = version)
    (written : ∀ row, (change row).status = status) :
    Keeps (OwnerPromise tenant owner) assumes (Recalling tenant owner place member version status)
      (updateMembership place member refused condition change) := by
  apply keeps_updateMembership recalling_steady And.left
    (fun _ both progress => ⟨progress, both.2⟩)
  rintro standing committed row ⟨progress, earlier⟩ found passed -
  left
  intro active
  obtain ⟨_, nextFound, now⟩ := earlier.trans (progress.moves (.membership place member))
  cases found.symm.trans nextFound
  rcases now with newer | ⟨_, same⟩
  · exact absurd (checked row passed) (Nat.ne_of_gt newer)
  · rw [written, ← same, active]

/-- A membership that is read before the first write. -/
theorem Progress.seen {row : MembershipRecord}
    (progress : Progress tenant owner place member (standing.opened committed) committed)
    (unwritten : standing.writes = [])
    (found : Db.membership? (standing.plainView committed) place member = some row) :
    Seen place member row.version row.status (standing.opened committed) committed := by
  rw [Standing.plainView, unwritten, overlay_nil] at found
  exact progress.behind _ rfl (.membership place member) row found

theorem keeps_updateMember {kept : Assertion Row}
    (steady : Steady (OwnerPromise tenant owner) kept) {contacts : Contacts} {changed : Membership}
    (update : ∀ change : MembershipRecord → MembershipRecord,
      (∀ row, (change row).status = changed.status) → Keeps (OwnerPromise tenant owner) assumes kept
        (updateMembership changed.tenantId changed.userId .memberConflict
          (fun row => row.version = version) change)) :
    Keeps (OwnerPromise tenant owner) assumes kept (updateMember contacts changed version) := by
  apply Keeps.bind (keeps_require _ _)
  intro _
  apply Keeps.bind (steady.read _)
  intro _
  apply Keeps.bind (keeps_lift _)
  intro email
  apply Keeps.bind (keeps_lift _)
  intro phone
  apply update
  intro row
  rfl

/-- A new profile leaves the status that was seen. -/
theorem recalling_updateMember {contacts : Contacts} {profile : Profile}
    {current changed : Membership} (applied : profile.apply current = .ok changed)
    (inTenant : current.tenantId = place) (ofMember : current.userId = member) :
    Keeps (OwnerPromise tenant owner) assumes
      (Recalling tenant owner place member version current.status)
      (updateMember contacts changed version) := by
  obtain ⟨_, sameTenant, sameUser, sameStatus⟩ := Profile.apply_ok applied
  apply keeps_updateMember recalling_steady
  intro change status
  rw [sameTenant, sameUser, inTenant, ofMember]
  apply recalling_updateMembership
  · exact fun row passed => of_decide_eq_true passed
  · exact fun row => (status row).trans sameStatus

/-- A change of a member: what the call checks before it decides under which assertion the
membership is written. -/
theorem wp_mutate {config : Config} {beforeApply : Membership → Tx Unit}
    {apply : Membership → Except Failure Membership} (after : Membership → Assertion Row)
    (home : trimSpace principal.tenantId = place)
    (progress : Progress tenant owner place member standing committed)
    (unwritten : standing.writes = [])
    (before : ∀ current standing now, current.tenantId = place → current.userId = member →
      Recalling tenant owner place member version current.status standing now →
      wp (OwnerPromise tenant owner) assumes (fun _ => after current) (beforeApply current)
        standing now)
    (update : ∀ current changed, apply current = .ok changed → current.tenantId = place →
      current.userId = member → Keeps (OwnerPromise tenant owner) assumes (after current)
        (updateMember config.contacts changed version))
    (final : ∀ current standing committed, after current standing committed →
      Progress tenant owner place member standing committed) :
    wp (OwnerPromise tenant owner) assumes (fun _ => Progress tenant owner place member)
      (mutate config principal member version beforeApply apply) standing committed := by
  apply wp_lift
  intro found trusted
  rw [trustedTenantId_ok trusted, home]
  apply (Steady.and progress_steady steady_unwritten).wp_read ⟨progress, unwritten⟩
  rintro now current ⟨progress, _⟩ seen
  obtain ⟨_, rowFound, inTenant, ofMember, status, itsVersion, _⟩ := getMember_ok seen
  apply wp_require
  intro sameVersion
  have recalled := progress.seen unwritten rowFound
  rw [← status, ← itsVersion, sameVersion] at recalled
  rw [wp_bind]
  apply wp_mono _ (before current _ _ inTenant ofMember ⟨progress, recalled⟩)
  intro _ standing committed holds
  apply wp_lift
  intro changed applied
  apply wp_mono (fun _ => final current)
  exact update current changed applied inTenant ofMember standing committed holds

section

variable (home : trimSpace principal.tenantId = place)

include home

theorem safe_assignTenantRoleMember (target : trimSpace user = member) :
    Safe tenant owner place member assumes (assignTenantRoleMember principal role user) := by
  apply Keeps.bind (keeps_require _ _)
  intro _
  apply keeps_lift_bind
  intro found trusted
  rw [trustedTenantId_ok trusted, home, target]
  apply Keeps.bind safe_assignMember
  intro _
  exact keeps_pure ()

theorem safe_revokeTenantRoleMember (target : trimSpace user = member) :
    Safe tenant owner place member assumes (revokeTenantRoleMember principal role user) := by
  apply Keeps.bind (keeps_require _ _)
  intro _
  apply keeps_lift_bind
  intro found trusted
  rw [trustedTenantId_ok trusted, home, target]
  apply Keeps.bind safe_revokeMember
  intro _
  exact keeps_pure ()

theorem assertDeactivation_secures {current : Membership}
    (target : trimSpace current.userId = member)
    (progress : Progress tenant owner place member standing committed) :
    wp (OwnerPromise tenant owner) assumes (fun _ => Secured tenant owner place member)
      (assertDeactivation principal current) standing committed := by
  apply wp_lift
  intro _ _
  apply wp_require
  intro _
  apply wp_lift
  intro found trusted
  rw [trustedTenantId_ok trusted, home, target]
  exact assertMemberCanDeactivate_secures progress

end

theorem safe_restoreMember {restored : Membership} (inTenant : restored.tenantId = place)
    (ofMember : restored.userId = member) :
    Safe tenant owner place member assumes (restoreMember restored version) := by
  unfold restoreMember
  rw [inTenant, ofMember]
  apply Keeps.bind (keeps_require _ _)
  intro _
  apply Keeps.bind (keeps_require _ _)
  intro _
  apply Keeps.bind (Steady.lock progress_steady _ _)
  intro locked
  apply Keeps.bind (keeps_require _ _)
  intro _
  apply Keeps.bind (keeps_require _ _)
  intro _
  apply Keeps.bind (Steady.read progress_steady _)
  intro roles
  apply Keeps.bind
  · apply safe_updateMembership
    exact fun _ _ _ => rfl
  intro _
  exact keeps_pure roles

section Calls

variable {config : Config} {principal : Principal} {user : String} {version : Nat} {reason : String}
  {standing : Standing Row} {committed : Db}
  (home : trimSpace principal.tenantId = place) (target : trimSpace user = member)
  (progress : Progress tenant owner place member standing committed)
  (unwritten : standing.writes = [])

include home target progress unwritten

theorem safe_suspend :
    wp (OwnerPromise tenant owner) assumes (fun _ => Progress tenant owner place member)
      (suspendTenantMember config principal user version reason) standing committed := by
  apply wp_lift
  intro _ _
  apply wp_lift
  intro _ _
  rw [target]
  apply wp_mutate (fun _ => Secured tenant owner place member) home progress unwritten
  case before =>
    intro current standing now _ ofMember recalling
    apply assertDeactivation_secures home _ recalling.1
    rw [ofMember, ← target, trimSpace_trimSpace]
  case update =>
    intro current changed applied inTenant ofMember
    obtain ⟨_, sameTenant, sameUser⟩ := Membership.suspend_ok applied
    apply secured_of_bounds
    apply bounds_updateMember
    rw [sameTenant, sameUser, inTenant, ofMember]
    exact removable_lowers.renewed
  case final => exact fun _ _ _ secured => secured.1

theorem safe_activate :
    wp (OwnerPromise tenant owner) assumes (fun _ => Progress tenant owner place member)
      (activateTenantMember config principal user version reason) standing committed := by
  apply wp_lift
  intro _ _
  apply wp_lift
  intro _ _
  apply wp_lift
  intro _ _
  apply (Steady.and progress_steady steady_unwritten).wp_read ⟨progress, unwritten⟩
  rintro now _ ⟨progress, unwritten⟩ _
  rw [target]
  apply wp_mutate (fun _ => Progress tenant owner place member) home progress unwritten
  case before => exact fun _ _ _ _ _ recalling => wp_pure recalling.1
  case update =>
    intro current changed applied inTenant ofMember
    obtain ⟨_, sameTenant, sameUser, active⟩ := Membership.activate_ok applied
    apply keeps_updateMember progress_steady
    intro change status
    rw [sameTenant, sameUser, inTenant, ofMember]
    apply safe_updateMembership
    intro row _ _
    exact (status row).trans active
  case final => exact fun _ _ _ => id

theorem safe_updateProfile {profile : Profile} :
    wp (OwnerPromise tenant owner) assumes (fun _ => Progress tenant owner place member)
      (updateTenantMemberProfile config principal user version profile) standing committed := by
  apply wp_lift
  intro _ _
  apply wp_lift
  intro _ _
  rw [target]
  apply wp_mutate (fun current => Recalling tenant owner place member version current.status)
    home progress unwritten
  case before =>
    intro current standing now _ _ recalling
    apply keeps_whenever _ _ _ recalling
    intro _
    exact Steady.read recalling_steady _
  case update => exact fun _ _ => recalling_updateMember
  case final => exact fun _ _ _ recalling => recalling.1

omit progress unwritten in
theorem safe_remove : Safe tenant owner place member assumes
    (removeTenantMember config principal user version reason) := by
  intro standing committed progress
  apply wp_lift
  intro _ _
  apply wp_lift
  intro _ _
  apply wp_lift
  intro found trusted
  rw [trustedTenantId_ok trusted, home, target]
  apply Steady.wp_read progress_steady progress
  intro now current progress seen
  obtain ⟨_, _, inTenant, ofMember, _⟩ := getMember_ok seen
  apply wp_require
  intro _
  have same : trimSpace current.userId = member := by
    rw [ofMember, ← target, trimSpace_trimSpace]
  rw [wp_bind]
  apply wp_mono _ (assertDeactivation_secures home same progress)
  intro _ standing committed secured
  apply wp_lift
  intro removed passed
  obtain ⟨_, sameTenant, sameUser⟩ := Membership.remove_ok passed
  apply wp_mono (fun _ _ _ (secured : Secured ..) => secured.1)
  apply secured_of_bounds _ _ _ secured
  apply bounds_removeMember
  rw [sameTenant, inTenant, sameUser, ofMember]
  exact removable_lowers

omit progress unwritten in
theorem safe_restore : Safe tenant owner place member assumes
    (restoreTenantMember config principal user version reason) := by
  intro standing committed progress
  apply wp_lift
  intro _ _
  apply wp_lift
  intro _ _
  apply wp_lift
  intro found trusted
  rw [trustedTenantId_ok trusted, home, target]
  apply Steady.wp_read progress_steady progress
  intro now current progress seen
  obtain ⟨_, _, inTenant, ofMember, _⟩ := getMember_ok seen
  apply wp_require
  intro _
  apply wp_lift
  intro restored passed
  obtain ⟨sameTenant, sameUser⟩ := Membership.restore_ok passed
  apply Keeps.bind (safe_restoreMember (sameTenant.trans inTenant) (sameUser.trans ofMember)) _ _ _
    progress
  intro roles
  apply Keeps.bind
  · apply keeps_forM
    intro role _
    exact safe_assignTenantRoleMember home (by rw [← target, trimSpace_trimSpace])
  intro _
  apply Keeps.bind (Steady.read progress_steady _)
  intro _
  exact keeps_pure ()

theorem safe_update {request : UpdateRequest} (named : request.userId = user) :
    wp (OwnerPromise tenant owner) assumes (fun _ => Progress tenant owner place member)
      (updateTenantMember config principal request) standing committed := by
  have again : trimSpace (trimSpace user) = member := by rw [trimSpace_trimSpace, target]
  subst named
  apply wp_lift
  intro _ _
  apply wp_lift
  intro roles _
  apply wp_require
  intro _
  apply wp_lift
  intro found trusted
  rw [trustedTenantId_ok trusted, home]
  apply (Steady.and progress_steady steady_unwritten).wp_read ⟨progress, unwritten⟩
  rintro now _ ⟨progress, unwritten⟩ _
  apply Steady.wp_read progress_steady progress
  intro now current progress seen
  rw [target] at seen
  obtain ⟨_, rowFound, inTenant, ofMember, status, itsVersion, _⟩ := getMember_ok seen
  have recalled := progress.seen unwritten rowFound
  rw [← status, ← itsVersion] at recalled
  apply wp_require
  intro sameVersion
  rw [sameVersion] at recalled
  apply wp_lift
  intro changed applied
  rw [wp_bind]
  apply wp_mono _ (recalling_updateMember applied inTenant ofMember _ _ ⟨progress, recalled⟩)
  rintro _ standing committed ⟨progress, _⟩
  apply Keeps.bind _ _ _ _ progress
  · apply keeps_forM
    intro role _
    exact safe_assignTenantRoleMember home again
  intro _
  apply Keeps.bind
  · apply keeps_forM
    intro role _
    exact safe_revokeTenantRoleMember home again
  intro _
  apply Keeps.bind (Steady.read progress_steady _)
  intro _
  exact keeps_pure ()

end Calls

theorem safe_deleteSelf {config : Config} {verification : Verification} {home : String}
    {answer : Answer} {now : Time.Instant} (there : trimSpace home = place)
    (target : trimSpace user = member) : Safe tenant owner place member assumes
      (settled (completeTenantDeletion config verification user home answer version now)) := by
  apply Keeps.bind _ fun _ => keeps_pure ()
  intro standing committed progress
  unfold completeTenantDeletion
  rw [there, target]
  apply wp_require
  intro _
  rw [wp_bind]
  apply wp_mono _ (canLeave_secures progress)
  rintro outcome standing committed ⟨progress, secured⟩
  cases outcome with
  | error failure => exact wp_pure progress
  | ok _ =>
    apply wp_mono (fun _ _ _ (secured : Secured ..) => secured.1)
    apply secured_of_bounds _ _ _ (secured rfl)
    exact bounds_deleteOwnMembership (fun _ _ _ => ⟨trivial, trivial⟩)
      fun _ _ _ _ _ _ => removable_lowers

end Operations

/-- The operations on a member of a tenant. -/
def Op.Managing : Op → Prop
  | .assign .. | .revoke .. | .suspend .. | .activate .. | .remove .. | .restore ..
  | .updateProfile .. | .update .. | .deleteSelf .. => True
  | _ => False

theorem progress_fresh {tenant owner place member : String} {committed : Db}
    (role : committed.ownerRole tenant = some owner) :
    Progress tenant owner place member .fresh committed where
  role := role
  covered := covered_fresh
  own := fun _ listed => nomatch listed
  behind := fun _ taken => nomatch taken
  moves := alters_fresh moves_refl
  raises := fun _ => .inl (alters_fresh raises_refl)

/-- Every operation on a member makes good progress from its first statement to its last. -/
theorem settles_of_managing {service : Service} {op : Op} (managing : op.Managing)
    {tenant owner : String} {committed : Db} (role : committed.ownerRole tenant = some owner)
    {assumes : Assumption Row} :
    Ends (OwnerPromise tenant owner) assumes op (program service op) .fresh committed := by
  suffices ∃ place member, wp (OwnerPromise tenant owner) assumes
      (fun _ => Progress tenant owner place member) (program service op) .fresh committed by
    obtain ⟨_, _, progressing⟩ := this
    exact wp_mono (fun _ _ _ progress => progress.settles) progressing
  cases op with
  | assign => exact ⟨_, _, safe_assignTenantRoleMember rfl rfl _ _ (progress_fresh role)⟩
  | revoke => exact ⟨_, _, safe_revokeTenantRoleMember rfl rfl _ _ (progress_fresh role)⟩
  | suspend => exact ⟨_, _, safe_suspend rfl rfl (progress_fresh role) rfl⟩
  | activate => exact ⟨_, _, safe_activate rfl rfl (progress_fresh role) rfl⟩
  | remove => exact ⟨_, _, safe_remove rfl rfl _ _ (progress_fresh role)⟩
  | restore => exact ⟨_, _, safe_restore rfl rfl _ _ (progress_fresh role)⟩
  | updateProfile => exact ⟨_, _, safe_updateProfile rfl rfl (progress_fresh role) rfl⟩
  | update => exact ⟨_, _, safe_update rfl rfl (progress_fresh role) rfl rfl⟩
  | deleteSelf => exact ⟨_, _, safe_deleteSelf rfl rfl _ _ (progress_fresh role)⟩
  | _ => exact managing.elim

/-- A tenant keeps an owner. However the operations on its members interleave, some active
member holds the owner role in every committed state. -/
theorem owner_stays {service : Service} {tenant owner : String} {start : Db}
    (bootstrapped : start.ownerRole tenant = some owner)
    (owned : start.activeHolders tenant owner ≠ []) {events : List Event} {last : System}
    (managing : ∀ id op, .start id op ∈ events → op.Managing)
    (run : Run (Steps service) (quiet start) events last) :
    Db.ownerRole last.committed tenant = some owner ∧
      ∃ user, Db.activeMember last.committed tenant user = true ∧
        Key.memberRole tenant user owner ∈ last.committed := by
  have kept : ∀ (op : Op) (held : List Key) (before after : Db),
      (before.ownerRole tenant = some owner ∧ Owned tenant owner before) →
      OwnerPromise tenant owner op held before after →
      (after.ownerRole tenant = some owner ∧ Owned tenant owner after) := by
    rintro op held before after ⟨role, owned⟩ ⟨moves, keeps⟩
    exact ⟨(ownerRole_congr fun id => moves (.role id)).trans role, keeps owned⟩
  have holder : Owned tenant owner start := by
    obtain ⟨user, holds⟩ := List.exists_mem_of_ne_nil _ owned
    exact ⟨user, mem_activeHolders.mp holds⟩
  have sound := sound_of_run kept
    (fun op managing committed holds => settles_of_managing managing holds.1)
    (run_admitted managing run) (sound_quiet ⟨bootstrapped, holder⟩)
  exact sound.invariant

section Sample

/-- The second member becomes an owner while their suspension is under way. -/
def ownedEvents : List Event :=
  [.start 0 (.assign firstOwner "t:owner" "b"), .start 1 (.suspend firstOwner "b" 2 ""),
    .advance 1, .advance 0, .advance 0, .advance 0, .advance 0, .advance 0,
    .advance 1, .advance 1, .advance 1, .advance 1, .advance 1, .advance 1]

theorem ownedStart_ready : ownedStart.ownerRole "t" = some "t:owner" ∧
    ownedStart.activeHolders "t" "t:owner" = ["a"] ∧
    (ownedEvents.foldlM (step (program plainService))
      (quiet ownedStart)).isSome = true := by
  decide +kernel

theorem owner_stays_for_suspension : ∃ last : System,
    Run (Steps plainService) (quiet ownedStart) ownedEvents last ∧
      ∃ user, Db.activeMember last.committed "t" user = true ∧
        Key.memberRole "t" user "t:owner" ∈ last.committed := by
  obtain ⟨role, _, ran⟩ := ownedStart_ready
  obtain ⟨last, reached⟩ := Option.isSome_iff_exists.mp ran
  have run := run_of_foldlM reached
  refine ⟨last, run, (owner_stays role ?_ ?_ run).2⟩
  · exact List.cons_ne_nil _ _
  · intro id op listed
    simp only [ownedEvents, List.mem_cons, Isolation.Event.start.injEq, reduceCtorEq,
      List.not_mem_nil, or_false] at listed
    rcases listed with ⟨_, rfl⟩ | ⟨_, rfl⟩ <;> trivial

end Sample

end Biz.Access
