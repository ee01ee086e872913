import Biz.Access.Footprints

/-!
# Removed members

A removal locks the membership, copies the roles of the member out of its snapshot,
deletes the current ones and marks the membership as removed. A restore reads the copies
back. An assignment of a role locks the role, not the membership, so that it can cross a
removal: it may be committed after the removal, or between the snapshot of the removal
and its commit. The sites are only written under the lock on the membership.
-/

namespace Biz.Access

open Runs Text Isolation

/-- The operations that give a member a role or a site, or take all of them away. -/
def Op.furnishes : Op → Bool
  | .assign .. | .setBusinessScope .. | .remove .. | .restore .. => true
  | _ => false

/-- When an assignment is committed, the membership is not removed; when a removal is
committed, its snapshot shows all roles of the member. -/
def Op.Uncrossed (op : Op) (kind : Code.Kind) (standing : Standing Row) (committed : Db) : Prop :=
  match op, kind with
  | .assign principal _ user, .commit =>
    ∀ row ∈ committed.membership? (trimSpace principal.tenantId) (trimSpace user),
      row.status ≠ .removed
  | .remove principal user _ _, .commit =>
    ∀ snapshot ∈ standing.snapshot,
      ∀ role ∈ committed.rolesOf (trimSpace principal.tenantId) (trimSpace user),
        role ∈ Db.rolesOf snapshot (trimSpace principal.tenantId) (trimSpace user)
  | _, _ => True

instance (op : Op) (kind : Code.Kind) (standing : Standing Row) (committed : Db) :
    Decidable (op.Uncrossed kind standing committed) := by
  unfold Op.Uncrossed
  split <;> infer_instance

section Relations

variable (tenant user : String)

/-- A removed member has neither roles nor sites. -/
def Bare (db : Db) : Prop :=
  ∀ row ∈ db.membership? tenant user, row.status = .removed →
    db.rolesOf tenant user = [] ∧ db.sitesOf tenant user = []

/-- The identifiers of the assigned roles are trimmed, as every request trims them. -/
def Tidy (db : Db) : Prop := ∀ role ∈ db.rolesOf tenant user, trimSpace role = role

/-- A member that is bare if removed, with tidy roles. -/
abbrev Orderly (db : Db) : Prop := Bare tenant user db ∧ Tidy tenant user db

/-- A role that the removal which left this version has kept. -/
def KeptRole (db : Db) (version : Nat) (role : String) : Prop :=
  ∃ kept, db.lookup (.removedRole tenant user role) = some kept ∧ kept.removedVersion = version

/-- The role exists in the tenant and is active. -/
def ActiveRole (db : Db) (role : String) : Prop :=
  ∃ row, db.role? tenant role = some row ∧ row.status = .active

/-- The rows of a member between two writes of the membership: roles may be assigned. -/
structure Unmoved (before after : Db) : Prop where
  membership : after.lookup (.membership tenant user) = before.lookup (.membership tenant user)
  roles : ∀ role, Key.memberRole tenant user role ∈ before → Key.memberRole tenant user role ∈ after
  sites : ∀ site, after.lookup (.memberSite tenant user site) =
    before.lookup (.memberSite tenant user site)
  kept : ∀ role, after.lookup (.removedRole tenant user role) =
    before.lookup (.removedRole tenant user role)

/-- The membership has a later version. -/
def Newer (before after : Db) : Prop :=
  ∃ row next, before.lookup (.membership tenant user) = some row ∧
    after.lookup (.membership tenant user) = some next ∧ row.version < next.version

/-- How the rows of a member develop: whatever may take something away gives the
membership a later version. -/
def Since (before after : Db) : Prop :=
  (∀ id, after.lookup (.role id) = before.lookup (.role id)) ∧
    (Unmoved tenant user before after ∨ Newer tenant user before after)

/-- What a removal and a restore of the member do. -/
def Op.effect : Op → Db → Db → Prop
  | .remove principal target _ _, before, after =>
    trimSpace principal.tenantId = tenant → trimSpace target = user →
      ∃ row, after.membership? tenant user = some row ∧
        ∀ role, KeptRole tenant user after row.version role ↔ role ∈ before.rolesOf tenant user
  | .restore principal target _ _, before, after =>
    trimSpace principal.tenantId = tenant → trimSpace target = user →
      after.sitesOf tenant user = [] ∧ ∃ row, before.membership? tenant user = some row ∧
        ∀ role, role ∈ after.rolesOf tenant user ↔ ∃ stored, trimSpace stored = role ∧
          KeptRole tenant user before row.version stored ∧ ActiveRole tenant before stored
  | _, _, _ => True

/-- What a transaction promises to the others. -/
def RemovalPromise (op : Op) (_ : List Key) (before after : Db) : Prop :=
  Since tenant user before after ∧ (Bare tenant user before ∧ Tidy tenant user before →
    (Bare tenant user after ∧ Tidy tenant user after) ∧ op.effect tenant user before after)

end Relations

section Develops

variable {tenant user : String} {first second third : Db} {held : List Key}

theorem unmoved_refl (db : Db) : Unmoved tenant user db db :=
  ⟨rfl, fun _ => id, fun _ => rfl, fun _ => rfl⟩

theorem Unmoved.trans (early : Unmoved tenant user first second)
    (late : Unmoved tenant user second third) : Unmoved tenant user first third where
  membership := late.membership.trans early.membership
  roles := fun role present => late.roles role (early.roles role present)
  sites := fun site => (late.sites site).trans (early.sites site)
  kept := fun role => (late.kept role).trans (early.kept role)

theorem since_refl (db : Db) : Since tenant user db db :=
  ⟨fun _ => rfl, .inl (unmoved_refl db)⟩

theorem Since.trans (early : Since tenant user first second)
    (late : Since tenant user second third) :
    Since tenant user first third := by
  refine ⟨fun id => (late.1 id).trans (early.1 id), ?_⟩
  rcases early.2 with same | ⟨row, middle, rowFound, middleFound, newer⟩
  · rcases late.2 with again | ⟨middle, next, middleFound, nextFound, newer⟩
    · exact .inl (same.trans again)
    · exact .inr ⟨middle, next, same.membership.symm.trans middleFound, nextFound, newer⟩
  · rcases late.2 with same | ⟨_, next, againFound, nextFound, newest⟩
    · exact .inr ⟨row, middle, rowFound, same.membership.trans middleFound, newer⟩
    · cases middleFound.symm.trans againFound
      exact .inr ⟨row, next, rowFound, nextFound, newer.trans newest⟩

/-- A membership that is not newer has not moved. -/
theorem Since.unmoved (since : Since tenant user first second)
    (notNewer : ¬Newer tenant user first second) : Unmoved tenant user first second :=
  since.2.resolve_right notNewer

theorem not_newer_of_eq
    (same : second.lookup (.membership tenant user) = first.lookup (.membership tenant user)) :
    ¬Newer tenant user first second := by
  rintro ⟨row, next, rowFound, nextFound, newer⟩
  cases rowFound.symm.trans (same.symm.trans nextFound)
  exact lt_irrefl _ newer

/-- Two rows of one version cannot be newer than each other. -/
theorem not_newer_of_version {row next : MembershipRecord}
    (rowFound : first.membership? tenant user = some row)
    (nextFound : second.membership? tenant user = some next) (same : next.version = row.version) :
    ¬Newer tenant user first second := by
  rintro ⟨other, later, otherFound, laterFound, newer⟩
  cases rowFound.symm.trans otherFound
  cases nextFound.symm.trans laterFound
  rw [same] at newer
  exact lt_irrefl _ newer

section

variable (rely : Rely (RemovalPromise tenant user) held first second)

include rely

theorem since_rely : Since tenant user first second :=
  rely.induct (Since tenant user) since_refl Since.trans fun _ _ promised => promised.1

/-- Nobody moves a locked membership. -/
theorem unmoved_rely (locked : .membership tenant user ∈ held) : Unmoved tenant user first second :=
  (since_rely rely).unmoved (not_newer_of_eq (rely.lookup locked))

theorem orderly_rely (orderly : Orderly tenant user first) : Orderly tenant user second :=
  rely.invariant (fun _ _ _ _ orderly promised => (promised.2 orderly).1) orderly

end

theorem bare_iff : Bare tenant user first ↔ ∀ row ∈ first.membership? tenant user,
    row.status = .removed → (∀ role, Key.memberRole tenant user role ∉ first) ∧
      ∀ site, Key.memberSite tenant user site ∉ first := by
  simp only [Bare, List.eq_nil_iff_forall_not_mem, mem_rolesOf, mem_sitesOf]

theorem tidy_iff : Tidy tenant user first ↔
    ∀ role, Key.memberRole tenant user role ∈ first → trimSpace role = role := by
  simp only [Tidy, mem_rolesOf]

end Develops

/-! ## Operations on other members -/

/-- Everything written belongs to one member. -/
def Confined (place member : String) (standing : Standing Row) (_ : Db) : Prop :=
  ∀ write ∈ standing.writes, write.1.within place member

section Confined

variable {tenant user place member : String}
  {assumes : Assumption Row}

/-- What an operation on another member leaves alone. -/
theorem Confined.settles {standing : Standing Row} {committed : Db} {op : Op}
    (confined : Confined place member standing committed)
    (apart : ¬(tenant = place ∧ user = member))
    (silent : ∀ before after, op.effect tenant user before after) :
    Settles (RemovalPromise tenant user) assumes op standing committed := by
  intro now _ _
  have same : ∀ key : Key, ¬key.within place member →
      (standing.currentView now).lookup key = now.lookup key := by
    intro key foreign
    apply lookup_overlay_of_untouched
    rintro write listed rfl
    exact foreign (confined write listed)
  have membership := same (.membership tenant user) apart
  have roles := fun role => same (.memberRole tenant user role) apart
  have sites := fun site => same (.memberSite tenant user site) apart
  have unmoved : Unmoved tenant user now (standing.currentView now) := by
    constructor
    case membership => exact membership
    case roles => exact fun role present => (mem_congr (roles role)).mpr present
    case sites => exact sites
    case kept => exact fun role => same _ apart
  refine ⟨⟨fun id => same _ not_false, .inl unmoved⟩, fun orderly => ⟨?_, silent _ _⟩⟩
  simp only [bare_iff, tidy_iff, Db.membership?, membership, mem_congr (roles _),
    mem_congr (sites _)] at orderly ⊢
  exact orderly

end Confined

/-! ## Operations on the member -/

section Member

variable {tenant user : String} {assumes : Assumption Row} {op : Op} {row next : MembershipRecord}
  {base snapshot committed : Db} {writes : List Write} {standing : Standing Row} {α β : Type}
  {post : β → Assertion Row}

/-- Before the lock on the membership: nothing is written, and the snapshot is behind. -/
structure Reading (tenant user : String) (snapshot : Db) (standing : Standing Row)
    (committed : Db) : Prop where
  unwritten : standing.writes = []
  opened : standing.snapshot = some snapshot
  since : Since tenant user snapshot committed
  orderly : Orderly tenant user committed

/-- Under the lock on the membership, which was taken over `base`. -/
structure Pinned (tenant user : String) (base snapshot : Db) (writes : List Write)
    (standing : Standing Row) (committed : Db) : Prop where
  locked : .membership tenant user ∈ standing.held
  roles : ∀ id, committed.lookup (.role id) = base.lookup (.role id)
  unmoved : Unmoved tenant user base committed
  orderly : Orderly tenant user committed
  opened : standing.snapshot = some snapshot
  written : standing.writes = writes

theorem reading_steady {snapshot : Db} :
    Steady (RemovalPromise tenant user) (Reading tenant user snapshot) where
  rely := fun reading rely => ⟨reading.unwritten, reading.opened,
    reading.since.trans (since_rely rely), orderly_rely rely reading.orderly⟩
  opened := fun reading => ⟨reading.unwritten, by rw [Standing.opened, reading.opened]; rfl,
    reading.since, reading.orderly⟩
  locked := fun rows reading => ⟨List.append_eq_nil_iff.mpr ⟨reading.unwritten, rfl⟩,
    reading.opened, reading.since, reading.orderly⟩

theorem pinned_steady {base snapshot : Db} {writes : List Write} :
    Steady (RemovalPromise tenant user) (Pinned tenant user base snapshot writes) where
  rely := fun pinned rely => ⟨pinned.locked,
    fun id => ((since_rely rely).1 id).trans (pinned.roles id),
    pinned.unmoved.trans (unmoved_rely rely pinned.locked), orderly_rely rely pinned.orderly,
    pinned.opened, pinned.written⟩
  opened := fun pinned => ⟨pinned.locked, pinned.roles, pinned.unmoved, pinned.orderly,
    by rw [Standing.opened, pinned.opened]; rfl, pinned.written⟩
  locked := fun rows pinned => ⟨List.mem_append_left _ pinned.locked, pinned.roles,
    pinned.unmoved, pinned.orderly, pinned.opened, (List.append_nil _).trans pinned.written⟩

/-- The first plain read opens the snapshot. -/
theorem wp_firstRead {f : Db → Except Failure α} {rest : α → Tx β}
    (orderly : Orderly tenant user committed)
    (holds : ∀ snapshot value standing, f snapshot = .ok value →
      Reading tenant user snapshot standing snapshot →
      wp (RemovalPromise tenant user) assumes post (rest value) standing snapshot) :
    wp (RemovalPromise tenant user) assumes post (read f >>= rest) .fresh committed := by
  apply wp_read
  intro now rely _ value seen
  exact holds now value _ seen ⟨rfl, rfl, since_refl now, orderly_rely rely orderly⟩

/-- The lock on the membership. -/
theorem wp_lockMembership {rest : MembershipRecord → Tx β}
    (reading : Reading tenant user snapshot standing committed)
    (holds : ∀ base row standing, base.membership? tenant user = some row →
      Since tenant user snapshot base → Pinned tenant user base snapshot [] standing base →
      wp (RemovalPromise tenant user) assumes post (rest row) standing base) :
    wp (RemovalPromise tenant user) assumes post (lockMembership tenant user >>= rest) standing
      committed := by
  apply Steady.wp_lock reading_steady reading
  intro now row reading seen
  have found := Checks.found_ok.mp seen
  have unwritten : standing.writes = [] := (List.append_eq_nil_iff.mp reading.unwritten).1
  rw [Standing.currentView, unwritten, overlay_nil] at found
  have present : Key.membership tenant user ∈ now :=
    AList.lookup_isSome.mp (Option.isSome_of_eq_some found)
  apply holds now row _ found reading.since
  constructor
  case locked => simp [Standing.extend, mem_present, Standing.currentView, unwritten, present]
  case roles => exact fun _ => rfl
  case unmoved => exact unmoved_refl now
  case orderly => exact reading.orderly
  case opened => exact reading.opened
  case written => exact reading.unwritten

section

variable (pinned : Pinned tenant user base snapshot writes standing committed) {rest : α → Tx β}

include pinned

/-- A write under the lock. -/
theorem wp_pinnedModify {f : Db → Except Failure (β × List Write)}
    (holds : ∀ now value more standing, Unmoved tenant user base now →
      f (overlay now writes) = .ok (value, more) →
      Pinned tenant user base snapshot (writes ++ more) standing now → post value standing now) :
    wp (RemovalPromise tenant user) assumes post (modify f) standing committed := by
  apply wp_modify_last
  intro now rely _ value more outcome
  have pinned := Steady.rely pinned_steady pinned rely
  rw [Standing.currentView, pinned.written] at outcome
  apply holds now value more _ pinned.unmoved outcome
  exact ⟨List.mem_append_left _ pinned.locked, pinned.roles, pinned.unmoved, pinned.orderly,
    pinned.opened, by rw [Standing.extend, pinned.written]⟩

/-- A plain read under the lock sees the snapshot and the writes. -/
theorem wp_pinnedRead {f : Db → Except Failure α}
    (holds : ∀ now value standing, f (overlay snapshot writes) = .ok value →
      Pinned tenant user base snapshot writes standing now →
      wp (RemovalPromise tenant user) assumes post (rest value) standing now) :
    wp (RemovalPromise tenant user) assumes post (read f >>= rest) standing committed := by
  apply Steady.wp_read pinned_steady pinned
  intro now value pinned' seen
  rw [Standing.plainView, pinned.opened, pinned.written] at seen
  exact holds now value _ seen pinned'

/-- Rows of one kind are deleted under the lock. -/
theorem wp_pinnedDelete {query : Db → List String} {make : String → Key} {rest : Unit → Tx β}
    (holds : ∀ now values standing, Unmoved tenant user base now →
      values = query (overlay now writes) →
      Pinned tenant user base snapshot
        (writes ++ (values.map make).map fun key => ⟨key, none⟩) standing now →
      wp (RemovalPromise tenant user) assumes post (rest ()) standing now) :
    wp (RemovalPromise tenant user) assumes post
      (deleteRows (fun db => (query db).map make) >>= rest) standing committed := by
  unfold deleteRows
  rw [wp_bind]
  apply wp_pinnedModify pinned
  intro now _ more standing unmoved outcome pinned
  obtain ⟨_, rfl⟩ := Prod.mk.inj (Except.ok.inj outcome)
  exact holds now _ standing unmoved rfl pinned

end

/-- A transaction that ends with a later version of the membership. -/
theorem Pinned.settles (pinned : Pinned tenant user base snapshot writes standing committed)
    (found : base.membership? tenant user = some row)
    (membership : ∀ db, (overlay db writes).lookup (.membership tenant user) = some next)
    (newer : row.version < next.version)
    (roles : ∀ db id, (overlay db writes).lookup (.role id) = db.lookup (.role id))
    (effect : ∀ now, assumes .commit standing now → Unmoved tenant user base now →
      (∀ id, now.lookup (.role id) = base.lookup (.role id)) →
      Orderly tenant user now →
      Orderly tenant user (overlay now writes) ∧
        op.effect tenant user now (overlay now writes)) :
    Settles (RemovalPromise tenant user) assumes op standing committed := by
  intro now rely assumed
  have pinned := Steady.rely pinned_steady pinned rely
  rw [Standing.currentView, pinned.written]
  refine ⟨⟨roles now,
    .inr ⟨row, next, pinned.unmoved.membership.trans found, membership now, newer⟩⟩, ?_⟩
  exact effect now assumed pinned.unmoved pinned.roles

/-- A transaction that has written nothing. -/
theorem Pinned.settles_unwritten (pinned : Pinned tenant user base snapshot [] standing committed)
    (silent : ∀ before after, op.effect tenant user before after) :
    Settles (RemovalPromise tenant user) assumes op standing committed := by
  intro now _ _
  rw [Standing.currentView, pinned.written, overlay_nil]
  exact ⟨since_refl now, fun orderly => ⟨orderly, silent _ _⟩⟩

/-- An assignment writes assignments of trimmed roles. -/
def Granting (tenant user : String) (standing : Standing Row) (_ : Db) : Prop :=
  ∀ write ∈ standing.writes, ∃ role, trimSpace role = role ∧
    write = ⟨.memberRole tenant user role, some ()⟩

theorem Granting.settles (granting : Granting tenant user standing committed)
    (present : ∀ now, assumes .commit standing now →
      ∀ row ∈ Db.membership? now tenant user, row.status ≠ .removed)
    (silent : ∀ before after, op.effect tenant user before after) :
    Settles (RemovalPromise tenant user) assumes op standing committed := by
  intro now _ assumed
  have same : ∀ key : Key, (∀ role, key ≠ .memberRole tenant user role) →
      (standing.currentView now).lookup key = now.lookup key := by
    intro key other
    apply lookup_overlay_of_untouched
    intro write listed written
    obtain ⟨role, _, rfl⟩ := granting write listed
    exact other role written.symm
  have membership := same (.membership tenant user) (fun _ => nofun)
  have roles : ∀ role, Key.memberRole tenant user role ∈ now →
      Key.memberRole tenant user role ∈ standing.currentView now := by
    intro role there
    rcases lookup_overlay_cases now standing.writes (.memberRole tenant user role)
      with kept | written
    · exact (mem_congr kept).mpr there
    · obtain ⟨_, _, same⟩ := granting _ written
      obtain ⟨_, contents⟩ := Sigma.mk.inj same
      exact AList.lookup_isSome.mp (Option.isSome_of_eq_some (eq_of_heq contents))
  refine ⟨⟨fun id => same _ fun _ => nofun, .inl ⟨membership, roles,
    fun _ => same _ fun _ => nofun, fun _ => same _ fun _ => nofun⟩⟩, ?_⟩
  rintro ⟨_, tidy⟩
  refine ⟨⟨?_, ?_⟩, silent _ _⟩
  · intro row found removed
    rw [Db.membership?, membership] at found
    exact absurd removed (present now assumed row found)
  · rw [tidy_iff] at tidy ⊢
    intro role there
    rcases lookup_overlay_cases now standing.writes (.memberRole tenant user role)
      with kept | written
    · exact tidy role ((mem_congr kept).mp there)
    · obtain ⟨_, trimmed, same⟩ := granting _ written
      cases (Sigma.mk.inj same).1
      exact trimmed

/-- The membership that a conditional update under the lock finds. -/
theorem Unmoved.updated {now : Db} {refused : Failure} {condition : MembershipRecord → Bool}
    {change : MembershipRecord → MembershipRecord} {more : List Write}
    (unmoved : Unmoved tenant user base now) (found : base.membership? tenant user = some row)
    (untouched : ∀ write ∈ writes, write.1 ≠ .membership tenant user)
    (outcome : membershipUpdate tenant user refused condition change (overlay now writes) =
      .ok ((), more)) :
    condition row = true ∧
      more = [⟨.membership tenant user, some { change row with version := row.version + 1 }⟩] := by
  obtain ⟨_, sameFound, passed, written⟩ := membershipUpdate_ok outcome
  rw [Db.membership?, lookup_overlay_of_untouched untouched, unmoved.membership] at sameFound
  cases found.symm.trans sameFound
  exact ⟨passed, written⟩

/-- The sites of a member are replaced. -/
theorem Pinned.settles_scope {old new : List String} (pinned : Pinned tenant user base snapshot
      ([] ++ (old.map (Key.memberSite tenant user)).map (fun key => ⟨key, none⟩) ++
        new.map (fun site => ⟨.memberSite tenant user site, some ()⟩) ++
        [⟨.membership tenant user, some { row with version := row.version + 1 }⟩])
      standing committed) (found : base.membership? tenant user = some row)
    (present : row.status ≠ .removed)
    (silent : ∀ before after, op.effect tenant user before after) :
    Settles (RemovalPromise tenant user) assumes op standing committed := by
  apply pinned.settles found (fun db => lookup_overlay_last db _ _) (Nat.lt_succ_self _)
  · intro db id
    apply lookup_overlay_of_untouched
    simp [or_imp, forall_and]
  · rintro now _ _ _ ⟨_, tidy⟩
    refine ⟨⟨?_, ?_⟩, silent _ _⟩
    · intro next nextFound removed
      rw [Db.membership?, lookup_overlay_last, Option.mem_some_iff] at nextFound
      rw [← nextFound] at removed
      exact absurd removed present
    · rw [tidy_iff] at tidy ⊢
      intro role there
      apply tidy role
      apply (mem_congr _).mp there
      apply lookup_overlay_of_untouched
      simp [or_imp, forall_and]

/-- What a removal writes: which copies it clears, which rows it copies and which it
deletes. -/
structure Clearance where
  keptRoles : List String
  keptSites : List String
  oldRoles : List String
  oldSites : List String
  roles : List String
  sites : List String

/-- The writes of a removal that leaves the membership `next`. -/
def Clearance.statements (clearance : Clearance) (tenant user : String) (next : MembershipRecord) :
    List Write :=
  [] ++ (clearance.keptRoles.map (Key.removedRole tenant user)).map (fun key => ⟨key, none⟩) ++
    (clearance.keptSites.map (Key.removedSite tenant user)).map (fun key => ⟨key, none⟩) ++
    clearance.oldRoles.map (fun role => ⟨.removedRole tenant user role, some ⟨next.version⟩⟩) ++
    clearance.oldSites.map (fun site => ⟨.removedSite tenant user site, some ⟨next.version⟩⟩) ++
    (clearance.roles.map (Key.memberRole tenant user)).map (fun key => ⟨key, none⟩) ++
    (clearance.sites.map (Key.memberSite tenant user)).map (fun key => ⟨key, none⟩) ++
    [⟨.membership tenant user, some next⟩]

section Clearance

variable (clearance : Clearance) (next : MembershipRecord) (db : Db)

theorem Clearance.membership :
    (overlay db (clearance.statements tenant user next)).lookup
      (.membership tenant user) = some next :=
  lookup_overlay_last db _ _

theorem Clearance.roleRow (id : String) :
    (overlay db (clearance.statements tenant user next)).lookup (.role id) = db.lookup
      (.role id) := by
  apply lookup_overlay_of_untouched
  simp [Clearance.statements, or_imp, forall_and]

theorem Clearance.role (role : String) :
    (overlay db (clearance.statements tenant user next)).lookup (.memberRole tenant user role) =
      if role ∈ clearance.roles then none else db.lookup (.memberRole tenant user role) := by
  unfold Clearance.statements
  rw [overlay_append, overlay_append, lookup_overlay_of_untouched,
    lookup_overlay_of_untouched, overlay_append,
    lookup_overlay_deleted, lookup_overlay_of_untouched]
  all_goals simp [or_imp, forall_and]

theorem Clearance.site (site : String) :
    (overlay db (clearance.statements tenant user next)).lookup (.memberSite tenant user site) =
      if site ∈ clearance.sites then none else db.lookup (.memberSite tenant user site) := by
  unfold Clearance.statements
  rw [overlay_append, lookup_overlay_of_untouched, overlay_append,
    lookup_overlay_deleted, lookup_overlay_of_untouched]
  all_goals simp [or_imp, forall_and]

theorem Clearance.keptRole (role : String) :
    (overlay db (clearance.statements tenant user next)).lookup (.removedRole tenant user role) =
      if role ∈ clearance.oldRoles then some (RemovedRecord.mk next.version)
      else if role ∈ clearance.keptRoles then none
      else db.lookup (.removedRole tenant user role) := by
  have injective : (Key.removedRole tenant user).Injective := fun _ _ same => by cases same; rfl
  unfold Clearance.statements
  rw [overlay_append, lookup_overlay_of_untouched, overlay_append,
    lookup_overlay_of_untouched, overlay_append,
    lookup_overlay_of_untouched, overlay_append,
    lookup_overlay_of_untouched, overlay_append,
    lookup_overlay_map _ _ injective, overlay_append,
    lookup_overlay_of_untouched, List.nil_append, lookup_overlay_deleted]
  all_goals simp

end Clearance

/-- The roles of a member are copied from the snapshot, and all it has is deleted. -/
theorem Pinned.settles_removal {clearance : Clearance} {principal : Principal}
    {target reason : String} {version : Nat}
    (pinned : Pinned tenant user base snapshot (clearance.statements tenant user next) standing
      committed)
    (found : base.membership? tenant user = some row) (newer : row.version < next.version)
    (cleared : ∀ role, Key.removedRole tenant user role ∈ base → role ∈ clearance.keptRoles)
    (copied : ∀ role, role ∈ clearance.oldRoles ↔ Key.memberRole tenant user role ∈ snapshot)
    (behind : ∀ role, Key.memberRole tenant user role ∈ snapshot →
      Key.memberRole tenant user role ∈ base)
    (dropped : ∀ role, Key.memberRole tenant user role ∈ base → role ∈ clearance.roles)
    (vacated : ∀ site, Key.memberSite tenant user site ∈ base → site ∈ clearance.sites)
    (shown : ∀ now, assumes .commit standing now →
      ∀ role, Key.memberRole tenant user role ∈ now → Key.memberRole tenant user role ∈ snapshot) :
    Settles (RemovalPromise tenant user) assumes (.remove principal target version reason) standing
      committed := by
  apply pinned.settles found (clearance.membership next) newer (clearance.roleRow next)
  intro now assumed unmoved _ _
  have noRoles : ∀ role,
      Key.memberRole tenant user role ∉ overlay now (clearance.statements tenant user next) := by
    intro role there
    rw [← AList.lookup_isSome, clearance.role next now] at there
    split at there
    · cases there
    · rename_i unlisted
      exact unlisted
        (dropped role (behind role (shown now assumed role (AList.lookup_isSome.mp there))))
  have noSites : ∀ site,
      Key.memberSite tenant user site ∉ overlay now (clearance.statements tenant user next) := by
    intro site there
    rw [← AList.lookup_isSome, clearance.site next now, unmoved.sites] at there
    split at there
    · cases there
    · rename_i unlisted
      exact unlisted (vacated site (AList.lookup_isSome.mp there))
  refine ⟨⟨?_, ?_⟩, fun _ _ => ⟨next, clearance.membership next now, ?_⟩⟩
  · exact bare_iff.mpr fun _ _ _ => ⟨noRoles, noSites⟩
  · exact tidy_iff.mpr fun role there => absurd there (noRoles role)
  · intro role
    rw [KeptRole, clearance.keptRole next now, mem_rolesOf, unmoved.kept]
    split
    · rename_i listed
      have there := unmoved.roles role (behind role ((copied role).mp listed))
      exact iff_of_true ⟨_, rfl, rfl⟩ there
    · rename_i unlisted
      have absent : Key.memberRole tenant user role ∉ now :=
        fun there => unlisted ((copied role).mpr (shown now assumed role there))
      split
      · simp [absent]
      · rename_i uncleared
        have unkept : base.lookup (.removedRole tenant user role) = none :=
          AList.lookup_eq_none.mpr fun there => uncleared (cleared role there)
        simp [absent, unkept]

theorem mem_restorable {db : Db} {version : Nat} {role : String} :
    role ∈ db.restorable tenant user version ↔
      KeptRole tenant user db version role ∧ ActiveRole tenant db role := by
  simp only [Db.restorable, (List.perm_insertionSort _ _).mem_iff, List.mem_filter,
    mem_removedRolesOf, Bool.and_eq_true, Option.any_eq_true, decide_eq_true_eq]
  constructor
  · exact fun listed => listed.2
  · rintro ⟨⟨kept, found, same⟩, active⟩
    exact ⟨AList.lookup_isSome.mp (Option.isSome_of_eq_some found), ⟨kept, found, same⟩, active⟩

/-- The writes of a restore: the membership, and an assignment of each role. -/
def restoration (tenant user : String) (next : MembershipRecord) (roles : List String) :
    List Write :=
  ⟨.membership tenant user, some next⟩ ::
    roles.map fun role => ⟨.memberRole tenant user (trimSpace role), some ()⟩

section Restoration

variable (next : MembershipRecord) (roles : List String) (db : Db)

theorem restoration_membership :
    (overlay db (restoration tenant user next roles)).lookup (.membership tenant user) =
      some next := by
  rw [restoration, overlay_cons, lookup_overlay_of_untouched]
  · exact lookup_put_self _ _ _
  · simp

theorem restoration_other {key : Key} (membership : key ≠ .membership tenant user)
    (assignment : ∀ role, key ≠ .memberRole tenant user role) :
    (overlay db (restoration tenant user next roles)).lookup key = db.lookup key := by
  apply lookup_overlay_of_untouched
  intro write listed written
  rcases List.mem_cons.mp listed with rfl | later
  · exact membership written.symm
  · obtain ⟨_, _, rfl⟩ := List.mem_map.mp later
    exact assignment _ written.symm

theorem restoration_roles (none : ∀ role, Key.memberRole tenant user role ∉ db) (role : String) :
    Key.memberRole tenant user role ∈ overlay db (restoration tenant user next roles) ↔
      ∃ stored ∈ roles, trimSpace stored = role := by
  constructor
  · intro there
    rcases lookup_overlay_cases db (restoration tenant user next roles)
      (.memberRole tenant user role) with kept | written
    · exact absurd ((mem_congr kept).mp there) (none role)
    · rcases List.mem_cons.mp written with same | later
      · cases (Sigma.mk.inj same).1
      · obtain ⟨stored, listed, same⟩ := List.mem_map.mp later
        cases (Sigma.mk.inj same).1
        exact ⟨stored, listed, rfl⟩
  · rintro ⟨stored, listed, rfl⟩
    have touched : ∃ write ∈ restoration tenant user next roles,
        write.1 = .memberRole tenant user (trimSpace stored) :=
      ⟨_, .tail _ (List.mem_map.mpr ⟨stored, listed, rfl⟩), rfl⟩
    rcases List.mem_cons.mp (lookup_overlay_of_touched touched db) with same | later
    · cases (Sigma.mk.inj same).1
    · obtain ⟨_, _, same⟩ := List.mem_map.mp later
      have content : some () = AList.lookup (.memberRole tenant user (trimSpace stored))
        (overlay db (restoration tenant user next roles)) := eq_of_heq (Sigma.mk.inj same).2
      exact AList.lookup_isSome.mp (Option.isSome_of_eq_some content.symm)

end Restoration

/-- A removed member gets back the roles that its removal has kept and that are active. -/
theorem Pinned.settles_restoration {roles : List String} {principal : Principal}
    {target reason : String} {version : Nat}
    (pinned : Pinned tenant user base snapshot (restoration tenant user next roles) standing
      committed)
    (found : base.membership? tenant user = some row) (removed : row.status = .removed)
    (newer : row.version < next.version) (active : next.status = .active)
    (behind : Since tenant user snapshot base ∧ Unmoved tenant user snapshot base)
    (restorable : roles = snapshot.restorable tenant user row.version) :
    Settles (RemovalPromise tenant user) assumes (.restore principal target version reason) standing
      committed := by
  apply pinned.settles found (restoration_membership next roles) newer
  · exact fun db id => restoration_other next roles db nofun fun _ => nofun
  rintro now _ unmoved roleRows ⟨bare, _⟩
  have nowFound : Db.membership? now tenant user = some row := unmoved.membership.trans found
  obtain ⟨noRoles, noSites⟩ := bare_iff.mp bare row nowFound removed
  have given := restoration_roles next roles now noRoles
  refine ⟨⟨?_, ?_⟩, fun _ _ => ⟨?_, row, nowFound, ?_⟩⟩
  · intro after afterFound afterRemoved
    rw [Db.membership?, restoration_membership, Option.mem_some_iff] at afterFound
    rw [← afterFound, active] at afterRemoved
    cases afterRemoved
  · rw [tidy_iff]
    intro role there
    obtain ⟨stored, _, rfl⟩ := (given role).mp there
    exact trimSpace_trimSpace stored
  · apply List.eq_nil_iff_forall_not_mem.mpr
    intro site there
    rw [mem_sitesOf] at there
    apply noSites site
    apply (mem_congr _).mp there
    exact restoration_other next roles now nofun fun _ => nofun
  · intro role
    have same : ∀ stored, stored ∈ roles ↔
        KeptRole tenant user now row.version stored ∧ ActiveRole tenant now stored := by
      intro stored
      rw [restorable, mem_restorable]
      simp only [KeptRole, ActiveRole, Db.role?, unmoved.kept, behind.2.kept, roleRows,
        behind.1.1]
    rw [mem_rolesOf, given]
    simp only [same, and_comm]

section Calls

variable {config : Config} {principal : Principal} {target : String} {version : Nat}
  {reason : String} {op : Op}
  (home : trimSpace principal.tenantId = tenant) (named : trimSpace target = user)
  (orderly : Orderly tenant user committed)

include home named orderly

theorem settles_setBusinessScope {sites : List String}
    (silent : ∀ before after, op.effect tenant user before after) :
    Ends (RemovalPromise tenant user) assumes op
      (setTenantMemberBusinessScope config principal target version sites) .fresh committed := by
  apply wp_lift
  intro _ _
  apply wp_lift
  intro found trusted
  rw [trustedTenantId_ok trusted, home, named]
  apply wp_lift
  intro sites _
  apply wp_firstRead orderly
  intro snapshot current standing _ reading
  apply wp_require
  intro _
  apply wp_require
  intro _
  apply wp_require
  intro _
  apply wp_require
  intro _
  apply wp_lift
  intro sites _
  apply wp_lockMembership reading
  intro base row standing found _ pinned
  apply wp_require
  intro present
  apply wp_require
  intro _
  apply wp_pinnedRead pinned
  intro now current standing _ pinned
  unfold whenever Code.whenever
  split
  · apply wp_pinnedDelete pinned
    intro now deleted standing _ _ pinned
    rw [wp_bind]
    apply wp_pinnedModify pinned
    intro now _ inserted standing _ outcome pinned
    cases outcome
    apply wp_pinnedModify pinned
    intro now _ written standing unmoved outcome pinned
    obtain ⟨_, rfl⟩ := unmoved.updated found (by simp [or_imp, forall_and]) outcome
    exact pinned.settles_scope found present silent
  · exact wp_pure (pinned.settles_unwritten silent)

theorem settles_remove
    (shown : ∀ standing now, assumes .commit standing now → ∀ snapshot ∈ standing.snapshot,
      ∀ role, Key.memberRole tenant user role ∈ now → Key.memberRole tenant user role ∈ snapshot) :
    Ends (RemovalPromise tenant user) assumes (.remove principal target version reason)
      (removeTenantMember config principal target version reason) .fresh committed := by
  apply wp_lift
  intro _ _
  apply wp_lift
  intro _ _
  apply wp_lift
  intro found trusted
  rw [trustedTenantId_ok trusted, home, named]
  apply wp_firstRead orderly
  intro snapshot current standing seen reading
  obtain ⟨_, earlyFound, inTenant, ofMember, _, itsVersion, _⟩ := getMember_ok seen
  apply wp_require
  intro current
  rw [wp_bind]
  apply wp_mono _ (bounds_assertDeactivation.keeps_steady reading_steady _ _ reading)
  intro _ standing committed reading
  apply wp_lift
  intro removed passed
  obtain ⟨_, sameTenant, sameUser⟩ := Membership.remove_ok passed
  unfold removeMember
  rw [sameTenant, sameUser, inTenant, ofMember]
  apply wp_require
  intro _
  apply wp_require
  intro _
  apply wp_lockMembership reading
  intro base row standing found since pinned
  apply wp_require
  rintro ⟨rowVersion, _⟩
  have behind : Unmoved tenant user snapshot base := by
    apply since.unmoved
    apply not_newer_of_version earlyFound found
    rw [rowVersion, ← current, itsVersion]
  subst rowVersion
  apply wp_pinnedDelete pinned
  intro first keptRoles standing firstUnmoved theirKept pinned
  apply wp_pinnedDelete pinned
  intro now keptSites standing _ _ pinned
  apply wp_pinnedRead pinned
  intro now oldRoles standing theirRoles pinned
  rw [wp_bind]
  apply wp_pinnedModify pinned
  intro now _ _ standing _ copied pinned
  cases copied
  apply wp_pinnedRead pinned
  intro now oldSites standing _ pinned
  rw [wp_bind]
  apply wp_pinnedModify pinned
  intro now _ _ standing _ copied pinned
  cases copied
  apply wp_pinnedDelete pinned
  intro second roles standing secondUnmoved currentRoles pinned
  apply wp_pinnedDelete pinned
  intro third sites standing thirdUnmoved currentSites pinned
  apply wp_pinnedModify pinned
  intro now _ written standing unmoved outcome pinned
  obtain ⟨_, rfl⟩ := unmoved.updated found (by simp [or_imp, forall_and]) outcome
  have cleared : Pinned tenant user base snapshot
    (Clearance.statements ⟨keptRoles, keptSites, oldRoles, oldSites, roles, sites⟩ tenant user
      { row with status := .removed, version := row.version + 1 }) standing now := pinned
  apply cleared.settles_removal found (Nat.lt_succ_self _)
  case cleared =>
    intro role there
    rw [theirKept, mem_removedRolesOf, overlay_nil]
    exact (mem_congr (firstUnmoved.kept role)).mpr there
  case copied =>
    intro role
    rw [← Except.ok.inj theirRoles, mem_rolesOf]
    apply mem_congr
    apply lookup_overlay_of_untouched
    simp [or_imp, forall_and]
  case behind => exact behind.roles
  case dropped =>
    intro role there
    rw [currentRoles, mem_rolesOf]
    apply (mem_congr _).mpr (secondUnmoved.roles role there)
    apply lookup_overlay_of_untouched
    simp [or_imp, forall_and]
  case vacated =>
    intro site there
    rw [currentSites, mem_sitesOf]
    apply (mem_congr _).mpr ((mem_congr (thirdUnmoved.sites site)).mpr there)
    apply lookup_overlay_of_untouched
    simp [or_imp, forall_and]
  case shown => exact fun now assumed => shown standing now assumed snapshot pinned.opened

omit named orderly in
theorem wp_pinnedAssign {role : String} (twice : trimSpace target = user)
    (pinned : Pinned tenant user base snapshot writes standing committed) :
    wp (RemovalPromise tenant user) assumes
      (fun _ => Pinned tenant user base snapshot
        (writes ++ [⟨.memberRole tenant user (trimSpace role), some ()⟩]))
      (assignTenantRoleMember principal role target) standing committed := by
  apply wp_require
  intro _
  apply wp_lift
  intro found trusted
  rw [trustedTenantId_ok trusted, home, twice]
  rw [wp_bind]
  apply Steady.wp_lock pinned_steady pinned
  intro now _ pinned _
  apply Steady.wp_read pinned_steady pinned
  intro now _ pinned _
  rw [wp_bind]
  apply wp_pinnedModify pinned
  intro now _ _ standing _ assigned pinned
  cases assigned
  apply wp_mono _ (Steady.read pinned_steady _ _ _ pinned)
  intro _ standing committed pinned
  exact wp_pure pinned

theorem settles_restore :
    Ends (RemovalPromise tenant user) assumes (.restore principal target version reason)
      (restoreTenantMember config principal target version reason) .fresh committed := by
  apply wp_lift
  intro _ _
  apply wp_lift
  intro _ _
  apply wp_lift
  intro found trusted
  rw [trustedTenantId_ok trusted, home, named]
  apply wp_firstRead orderly
  intro snapshot current standing seen reading
  obtain ⟨_, earlyFound, inTenant, ofMember, _, itsVersion, _⟩ := getMember_ok seen
  apply wp_require
  rintro ⟨current, _⟩
  apply wp_lift
  intro restored passed
  obtain ⟨sameTenant, sameUser⟩ := Membership.restore_ok passed
  rw [wp_bind]
  unfold restoreMember
  rw [sameTenant, sameUser, inTenant, ofMember]
  apply wp_require
  intro _
  apply wp_require
  intro _
  apply wp_lockMembership reading
  intro base row standing found since pinned
  apply wp_require
  rintro ⟨rowVersion, removed⟩
  apply wp_require
  intro _
  have behind : Unmoved tenant user snapshot base := by
    apply since.unmoved
    apply not_newer_of_version earlyFound found
    rw [rowVersion, ← current, itsVersion]
  subst rowVersion
  apply wp_pinnedRead pinned
  intro now roles standing restorable pinned
  rw [wp_bind]
  apply wp_pinnedModify pinned
  intro now _ written standing unmoved outcome pinned
  obtain ⟨_, rfl⟩ := unmoved.updated found (by simp) outcome
  apply wp_pure
  rw [wp_bind]
  let next : MembershipRecord := { row with status := .active, version := row.version + 1 }
  have start : Pinned tenant user base snapshot (restoration tenant user next []) standing now :=
    pinned
  apply wp_mono _ (wp_forM_done
    (fun done => Pinned tenant user base snapshot (restoration tenant user next done)) _ start)
  · intro _ standing committed pinned
    apply Steady.wp_read pinned_steady pinned
    intro now _ pinned _
    apply wp_pure
    exact pinned.settles_restoration found removed (Nat.lt_succ_self _) rfl ⟨since, behind⟩
      (Except.ok.inj restorable).symm
  · intro done role standing committed pinned
    apply wp_mono _ (wp_pinnedAssign home (by rw [← named, trimSpace_trimSpace]) pinned)
    intro _ standing committed pinned
    rw [restoration, List.map_append]
    exact pinned

end Calls

end Member

section Settles

variable {service : Service} {tenant user : String} {committed : Db}

/-- An operation on another member keeps the promise. -/
theorem settles_elsewhere {op : Op} {place member : String}
    (bounds : Bounds (fun _ => True) (fun _ write => write.1.within place member)
      (program service op))
    (apart : ¬(tenant = place ∧ user = member))
    (silent : ∀ before after, op.effect tenant user before after) :
    Ends (RemovalPromise tenant user) op.Uncrossed op (program service op) .fresh committed := by
  apply wp_mono _ (bounds.keeps_writes _ _ fun _ listed => absurd listed List.not_mem_nil)
  exact fun _ _ _ confined => Confined.settles confined apart silent

/-- Every operation keeps the promise about the member, its own or another. -/
theorem settles_of_furnishing {op : Op} (furnishing : op.furnishes)
    (orderly : Orderly tenant user committed) :
    Ends (RemovalPromise tenant user) op.Uncrossed op (program service op) .fresh committed := by
  cases op with
  | assign principal role target =>
    by_cases own : tenant = trimSpace principal.tenantId ∧ user = trimSpace target
    · obtain ⟨rfl, rfl⟩ := own
      have granting : Bounds (fun _ => True) (fun _ write => ∃ role, trimSpace role = role ∧
          write = ⟨.memberRole (trimSpace principal.tenantId) (trimSpace target) role, some ()⟩)
          (program service (.assign principal role target)) :=
        bounds_assign fun _ => ⟨_, trimSpace_trimSpace role, rfl⟩
      apply wp_mono _ (granting.keeps_writes _ _ fun _ listed => absurd listed List.not_mem_nil)
      intro _ standing committed granting
      exact Granting.settles granting (fun now assumed => assumed) fun _ _ => trivial
    · exact settles_elsewhere (bounds_assign fun _ => ⟨rfl, rfl⟩) own fun _ _ => trivial
  | setBusinessScope principal target version sites =>
    by_cases own : tenant = trimSpace principal.tenantId ∧ user = trimSpace target
    · obtain ⟨rfl, rfl⟩ := own
      exact settles_setBusinessScope rfl rfl orderly fun _ _ => trivial
    · refine settles_elsewhere ?_ own fun _ _ => trivial
      exact bounds_setBusinessScope rfl rfl fun _ _ _ _ _ =>
        ⟨fun _ _ _ _ _ => ⟨rfl, rfl⟩, fun _ _ _ => ⟨rfl, rfl⟩⟩
  | remove principal target version reason =>
    by_cases own : tenant = trimSpace principal.tenantId ∧ user = trimSpace target
    · obtain ⟨rfl, rfl⟩ := own
      apply settles_remove rfl rfl orderly
      intro standing now assumed snapshot taken role there
      exact mem_rolesOf.mp (assumed snapshot taken role (mem_rolesOf.mpr there))
    · refine settles_elsewhere ?_ own fun _ _ here named => absurd ⟨here.symm, named.symm⟩ own
      exact bounds_remove rfl rfl fun _ _ _ _ _ => ⟨fun _ _ _ _ _ => ⟨rfl, rfl⟩,
        fun _ _ => ⟨rfl, rfl⟩, fun _ _ => ⟨rfl, rfl⟩, fun _ _ _ => ⟨rfl, rfl⟩,
        fun _ _ _ => ⟨rfl, rfl⟩⟩
  | restore principal target version reason =>
    by_cases own : tenant = trimSpace principal.tenantId ∧ user = trimSpace target
    · obtain ⟨rfl, rfl⟩ := own
      exact settles_restore rfl rfl orderly
    · refine settles_elsewhere ?_ own fun _ _ here named => absurd ⟨here.symm, named.symm⟩ own
      exact bounds_restore rfl rfl (fun _ _ _ _ _ => ⟨rfl, rfl⟩) fun _ _ => ⟨rfl, rfl⟩
  | _ => cases furnishing

end Settles

/-- The steps of the operations on roles and sites of members, none of them crossed. -/
abbrev UncrossedSteps (service : Service) : System → Event → System → Prop :=
  Guarded (Steps service) (Condition (·.furnishes) Op.Uncrossed)

/-- A step that commits an operation. -/
def Commits (service : Service) (op : Op) (before after : System) : Prop :=
  ∃ id session, session ∈ before.live.lookup id ∧ session.op = op ∧ session.code.kind = .commit ∧
    UncrossedSteps service before (.advance id) after

section Runs

variable {service : Service} {tenant user : String}

theorem sound_of_uncrossed {first last : System} {events : List Event} {invariant : Db → Prop}
    (kept : ∀ op held before after, invariant before →
      RemovalPromise tenant user op held before after →
      invariant after)
    (orderly : ∀ db, invariant db → Orderly tenant user db)
    (run : Run (UncrossedSteps service) first events last)
    (start : Sound (RemovalPromise tenant user) Op.Uncrossed invariant first) :
    Sound (RemovalPromise tenant user) Op.Uncrossed invariant last :=
  sound_of_run kept
    (fun _ furnishing committed holds => settles_of_furnishing furnishing (orderly committed holds))
    run start

theorem Commits.promised {op : Op} {before after : System} {invariant : Db → Prop}
    (commits : Commits service op before after)
    (sound : Sound (RemovalPromise tenant user) Op.Uncrossed invariant before) :
    ∃ held, RemovalPromise tenant user op held before.committed after.committed := by
  obtain ⟨id, session, live, rfl, kind, stepped, condition⟩ := commits
  have assumed := condition session live
  obtain ⟨_, standing, code⟩ := session
  cases code with
  | done value =>
    obtain ⟨_, sameLive, taken⟩ := Option.bind_eq_some_iff.mp stepped
    cases live.symm.trans sameLive
    cases taken
    exact ⟨standing.held, sound.promised live rfl assumed⟩
  | fail failure => cases kind
  | plain next => cases kind
  | current rows writes next => cases kind

end Runs

/-- In every interleaving of assignments, changes of business scope, removals and restores
that are not crossed, a removed member has neither roles nor sites. A restore gives back
exactly the roles that were held when the member was removed and are active, and no site. -/
theorem removed_hold_nothing {service : Service} {tenant user : String} {start : Db}
    (bare : Bare tenant user start) (tidy : Tidy tenant user start) {events : List Event}
    {last : System} (run : Run (UncrossedSteps service) (quiet start) events last) :
    Bare tenant user last.committed ∧
      ∀ firstOwner removal removedVersion removalReason restorer restoration version reason
        (removed next after : System) (more : List Event),
        trimSpace firstOwner.tenantId = tenant → trimSpace removal = user →
        trimSpace restorer.tenantId = tenant → trimSpace restoration = user →
        Commits service (.remove firstOwner removal removedVersion removalReason) last removed →
        Run (UncrossedSteps service) removed more next →
        Db.membership? next.committed tenant user = Db.membership? removed.committed tenant user →
        Commits service (.restore restorer restoration version reason) next after →
        (∀ role, role ∈ Db.rolesOf after.committed tenant user ↔
          role ∈ Db.rolesOf last.committed tenant user ∧ ActiveRole tenant after.committed role) ∧
        Db.sitesOf after.committed tenant user = [] := by
  have sound : Sound (RemovalPromise tenant user) Op.Uncrossed
      (fun db => Orderly tenant user db) last :=
    sound_of_uncrossed (fun _ _ _ _ orderly promised => (promised.2 orderly).1) (fun _ => id) run
      (sound_quiet ⟨bare, tidy⟩)
  refine ⟨sound.invariant.1, ?_⟩
  intro firstOwner removal removedVersion removalReason restorer restoration version reason
    removed next after more firstOwnerHome removalNamed restorerHome restorationNamed removing
    between same restoring
  obtain ⟨_, _, removal⟩ := removing.promised sound
  obtain ⟨orderly, effect⟩ := removal sound.invariant
  obtain ⟨row, rowFound, kept⟩ := effect firstOwnerHome removalNamed
  have removedSound : Sound (RemovalPromise tenant user) Op.Uncrossed
      (fun db => Orderly tenant user db ∧
        Since tenant user removed.committed db) removed := by
    obtain ⟨_, _, _, _, _, stepped⟩ := removing
    have stays := sound_of_uncrossed (fun _ _ _ _ orderly promised => (promised.2 orderly).1)
      (fun _ => id) (.step stepped (.done removed)) sound
    exact ⟨⟨orderly, since_refl _⟩, stays.verified, stays.exclusive⟩
  have nextSound := sound_of_uncrossed
    (fun _ _ _ _ holds promised => ⟨(promised.2 holds.1).1, holds.2.trans promised.1⟩)
    (fun _ holds => holds.1) between removedSound
  obtain ⟨_, since, restored⟩ := restoring.promised nextSound
  obtain ⟨_, restoredEffect⟩ := restored nextSound.invariant.1
  obtain ⟨noSites, _, nextFound, given⟩ := restoredEffect restorerHome restorationNamed
  cases rowFound.symm.trans (same.symm.trans nextFound)
  have unmoved := nextSound.invariant.2.unmoved (not_newer_of_eq same)
  refine ⟨fun role => ?_, noSites⟩
  have active : ∀ role, ActiveRole tenant after.committed role ↔
      ActiveRole tenant next.committed role := by
    intro role
    simp only [ActiveRole, Db.role?, since.1]
  have keptNext : ∀ role, KeptRole tenant user next.committed row.version role ↔
      role ∈ Db.rolesOf last.committed tenant user := by
    intro role
    rw [← kept role]
    simp only [KeptRole, unmoved.kept]
  rw [given, active]
  constructor
  · rintro ⟨stored, rfl, isKept, isActive⟩
    have held := (keptNext stored).mp isKept
    rw [sound.invariant.2 stored held]
    exact ⟨held, isActive⟩
  · rintro ⟨held, isActive⟩
    exact ⟨role, sound.invariant.2 role held, (keptNext role).mpr held, isActive⟩

section Sample

/-- A tenant with an owner, a second member and a role that nobody holds. -/
def staffed : Db :=
  ownedStart.insert (.role "r") ⟨"t", "guard", "", none, false, none, .active, 1⟩

def roleGrant : Op := .assign firstOwner "r" "b"
def memberRemoval : Op := .remove firstOwner "b" 2 ""
def memberRestore : Op := .restore firstOwner "b" 3 ""

/-- The member is removed after an assignment has read the membership. -/
def crossedAssignment : List Event :=
  [.start 0 roleGrant, .advance 0, .advance 0, .start 1 memberRemoval] ++
    List.replicate 14 (.advance 1) ++ List.replicate 3 (.advance 0)

/-- A role is assigned after a removal has opened its snapshot. -/
def crossedRemoval : List Event :=
  [.start 0 memberRemoval, .advance 0, .start 1 roleGrant] ++ List.replicate 5 (.advance 1) ++
    List.replicate 12 (.advance 0)

/-- The role is assigned before the removal starts. -/
def uncrossedRemoval : List Event :=
  [.start 1 roleGrant] ++ List.replicate 5 (.advance 1) ++ [.start 0 memberRemoval] ++
    List.replicate 13 (.advance 0)

/-- The removal is committed, and the member is restored, with this many statements. -/
def restoreAfter (statements : Nat) : List Event :=
  [.advance 0, .start 2 memberRestore] ++ List.replicate statements (.advance 2)

def uncrossedStep (system : System) (event : Event) : Option System :=
  if Condition (·.furnishes) Op.Uncrossed system event
  then step (program plainService) system event else none

theorem staffed_crossed :
    (crossedAssignment.foldlM (step (program plainService))
      (quiet staffed)).any (fun last =>
        (Db.membership? last.committed "t" "b").any (fun row => row.status = .removed) &&
          Db.rolesOf last.committed "t" "b" = ["r"]) = true ∧
    (crossedRemoval.foldlM (step (program plainService))
      (quiet staffed)).any (fun last =>
        Db.rolesOf last.committed "t" "b" = ["r"] &&
        ((restoreAfter 6).foldlM (step (program plainService)) last).any fun after =>
            Db.rolesOf after.committed "t" "b" = [] &&
            (Db.role? after.committed "t" "r").any fun row => row.status = .active) = true := by
  decide +kernel

theorem staffed_orderly : Bare "t" "b" staffed ∧ Tidy "t" "b" staffed := by
  have bare : (staffed.membership? "t" "b").all (fun row => row.status ≠ .removed) = true := by
    decide +kernel
  constructor
  · intro row found removed
    rw [Option.mem_def.mp found] at bare
    exact absurd removed (of_decide_eq_true bare)
  · intro role listed
    cases listed

/-- A removed member with a role, and a role that is lost between removal and restore. -/
theorem crossed_members :
    (∃ last : System, Run (Steps plainService) (quiet staffed) crossedAssignment last ∧
      ¬Bare "t" "b" last.committed) ∧
    ∃ last after : System, Run (Steps plainService) (quiet staffed) crossedRemoval last ∧
      Run (Steps plainService) last (restoreAfter 6) after ∧
      "r" ∈ Db.rolesOf last.committed "t" "b" ∧ ActiveRole "t" after.committed "r" ∧
      Db.rolesOf after.committed "t" "b" = [] := by
  obtain ⟨assigned, lost⟩ := staffed_crossed
  constructor
  · obtain ⟨last, reached, outcome⟩ := (Option.any_eq_true _ _).mp assigned
    simp only [Bool.and_eq_true, decide_eq_true_eq] at outcome
    obtain ⟨row, found, removed⟩ := (Option.any_eq_true _ _).mp outcome.1
    refine ⟨last, run_of_foldlM reached, fun bare => ?_⟩
    have none := (bare row found (of_decide_eq_true removed)).1
    rw [outcome.2] at none
    cases none
  · obtain ⟨last, reached, outcome⟩ := (Option.any_eq_true _ _).mp lost
    simp only [Bool.and_eq_true, decide_eq_true_eq] at outcome
    obtain ⟨held, restored⟩ := outcome
    obtain ⟨after, restoredTo, afterOutcome⟩ := (Option.any_eq_true _ _).mp restored
    simp only [Bool.and_eq_true, decide_eq_true_eq] at afterOutcome
    obtain ⟨row, found, active⟩ := (Option.any_eq_true _ _).mp afterOutcome.2
    refine ⟨last, after, run_of_foldlM reached, run_of_foldlM restoredTo, ?_,
      ⟨row, found, of_decide_eq_true active⟩, afterOutcome.1⟩
    rw [held]
    exact List.mem_singleton_self _

/-- The next step of a transaction commits an operation of the given kind on the member. -/
def commitsNext (system : System) (id : Nat) (target : Op → Bool) : Bool :=
  (system.live.lookup id).any fun session => session.code.kind = .commit && target session.op

def removesMember : Op → Bool
  | .remove principal user _ _ => trimSpace principal.tenantId = "t" && trimSpace user = "b"
  | _ => false

def restoresMember : Op → Bool
  | .restore principal user _ _ => trimSpace principal.tenantId = "t" && trimSpace user = "b"
  | _ => false

theorem staffed_uncrossed :
    (uncrossedRemoval.foldlM uncrossedStep (quiet staffed)).any (fun last =>
      commitsNext last 0 removesMember &&
      (uncrossedStep last (.advance 0)).any fun removed =>
        ((.start 2 memberRestore :: List.replicate 9 (.advance 2)).foldlM uncrossedStep removed).any
          fun next => commitsNext next 2 restoresMember &&
            Db.membership? next.committed "t" "b" = Db.membership? removed.committed "t" "b" &&
            (uncrossedStep next (.advance 2)).isSome) = true := by
  decide +kernel

theorem commits_of_next {system after : System} {id : Nat} {target : Op → Bool}
    (next : commitsNext system id target = true)
    (stepped : uncrossedStep system (.advance id) = some after) :
    ∃ op, target op = true ∧ Commits plainService op system after := by
  obtain ⟨session, live, found⟩ := (Option.any_eq_true _ _).mp next
  simp only [Bool.and_eq_true, decide_eq_true_eq] at found
  rw [uncrossedStep, Option.ite_none_right_eq_some] at stepped
  exact ⟨session.op, found.2, id, session, live, rfl, found.1, stepped.2, stepped.1⟩

theorem uncrossed_member_restored : ∃ last after : System,
    Run (UncrossedSteps plainService) (quiet staffed) uncrossedRemoval last ∧
      Bare "t" "b" last.committed ∧
      (∀ role, role ∈ Db.rolesOf after.committed "t" "b" ↔
        role ∈ Db.rolesOf last.committed "t" "b" ∧ ActiveRole "t" after.committed role) ∧
      Db.sitesOf after.committed "t" "b" = [] := by
  obtain ⟨last, reached, outcome⟩ := (Option.any_eq_true _ _).mp staffed_uncrossed
  rw [Bool.and_eq_true] at outcome
  obtain ⟨removes, outcome⟩ := outcome
  obtain ⟨removed, stepped, outcome⟩ := (Option.any_eq_true _ _).mp outcome
  obtain ⟨next, went, outcome⟩ := (Option.any_eq_true _ _).mp outcome
  simp only [Bool.and_eq_true, decide_eq_true_eq] at outcome
  obtain ⟨⟨restores, same⟩, ended⟩ := outcome
  obtain ⟨after, restored⟩ := Option.isSome_iff_exists.mp ended
  have run := guarded_of_foldlM reached
  obtain ⟨removal, isRemoval, removing⟩ := commits_of_next removes stepped
  obtain ⟨restore, isRestore, restoring⟩ := commits_of_next restores restored
  cases removal <;> try cases isRemoval
  cases restore <;> try cases isRestore
  simp only [removesMember, restoresMember, Bool.and_eq_true, decide_eq_true_eq]
    at isRemoval isRestore
  obtain ⟨bare, exact⟩ := removed_hold_nothing staffed_orderly.1 staffed_orderly.2 run
  exact ⟨last, after, run, bare, exact _ _ _ _ _ _ _ _ removed next after _ isRemoval.1 isRemoval.2
    isRestore.1 isRestore.2 removing (guarded_of_foldlM went) same restoring⟩

end Sample

end Biz.Access
