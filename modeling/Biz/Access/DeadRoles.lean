import Biz.Access.Footprints

/-!
# Assignments of roles that are gone

A role is locked before it is assigned, disabled or deleted, and it is disabled or
deleted only when a plain count finds no assignment of it. A deletion opens its snapshot
at that count, under the lock. A disabling has opened it earlier, when it read the role,
so an assignment that is committed in between is not counted.
-/

namespace Biz.Access

open Runs Text Isolation

/-- Every role that is assigned in the tenant exists there and is active. -/
def RolesAlive (tenant : String) (db : Db) : Prop :=
  ∀ user role, Key.memberRole tenant user role ∈ db →
    ∃ row, db.role? tenant role = some row ∧ row.status = .active

/-- The operations that make an assignment or take a role away. -/
def Op.assigns : Op → Bool
  | .assign .. | .restore .. | .changeRole .. | .deleteRole .. => true
  | _ => false

/-- The committed assignments of a role are in the snapshot of a transaction. -/
def Shown (tenant role : String) (standing : Standing Row) (committed : Db) : Prop :=
  ∀ snapshot ∈ standing.snapshot, ∀ user,
    Key.memberRole tenant user role ∈ committed → Key.memberRole tenant user role ∈ snapshot

/-- When a disabling takes a current statement, its snapshot shows the assignments of its
role. -/
def Op.Current (op : Op) (kind : Code.Kind) (standing : Standing Row) (committed : Db) : Prop :=
  match op, kind with
  | .changeRole principal role _ .disable, .lock =>
    Shown (trimSpace principal.tenantId) (trimSpace role) standing committed
  | _, _ => True

instance (tenant role : String) (standing : Standing Row) (committed : Db) :
    Decidable (Shown tenant role standing committed) :=
  decidable_of_iff (∀ snapshot ∈ standing.snapshot, ∀ user ∈ committed.holders tenant role,
      Key.memberRole tenant user role ∈ snapshot) (by simp only [mem_holders, Shown])

instance (op : Op) (kind : Code.Kind) (standing : Standing Row) (committed : Db) :
    Decidable (op.Current kind standing committed) := by
  unfold Op.Current
  split <;> infer_instance

section Assertions

variable (tenant : String)

/-- What a transaction promises to the others: a role is newly assigned only under its
lock. -/
def AssignmentPromise (_ : Op) (held : List Key) (before after : Db) : Prop :=
  (∀ user role, Key.memberRole tenant user role ∈ after →
      Key.memberRole tenant user role ∈ before ∨ .role role ∈ held) ∧
    (RolesAlive tenant before → RolesAlive tenant after)

/-- The role is locked and active. -/
def Assignable (role : String) (standing : Standing Row) (committed : Db) : Prop :=
  .role role ∈ standing.held ∧ ∃ row, committed.role? tenant role = some row ∧ row.status = .active

/-- What holds at each statement of a transaction that assigns roles. -/
structure Assigning (standing : Standing Row) (committed : Db) : Prop where
  covered : Covered standing
  alive : RolesAlive tenant committed
  roles : ∀ write ∈ standing.writes, ∀ role, write.1 ≠ .role role
  assigned : ∀ write ∈ standing.writes, ∀ user role, write.1 = .memberRole tenant user role →
    Assignable tenant role standing committed

/-- The role is locked and nobody holds it. -/
def Unassigned (role : String) (standing : Standing Row) (committed : Db) : Prop :=
  .role role ∈ standing.held ∧ ∀ user, Key.memberRole tenant user role ∉ committed

/-- The role is locked and its assignments are those of the snapshot. -/
def Counted (role : String) (standing : Standing Row) (committed : Db) : Prop :=
  .role role ∈ standing.held ∧ Shown tenant role standing committed

/-- What holds at each statement of a transaction that changes one role. -/
structure Changing (role : String) (standing : Standing Row) (committed : Db) : Prop where
  covered : Covered standing
  alive : RolesAlive tenant committed
  assignments : ∀ write ∈ standing.writes, ∀ user role, write.1 ≠ .memberRole tenant user role
  own : ∀ write ∈ standing.writes, ∀ other, write.1 = .role other → other = role
  keeps : Unassigned tenant role standing committed ∨
    ∀ content, ⟨.role role, content⟩ ∈ standing.writes →
      ∃ row ∈ content, row.tenantId = tenant ∧ row.status = .active

end Assertions

section Steps

variable {tenant : String} {role : String} {standing : Standing Row} {committed : Db}

theorem rolesAlive_rely {held : List Key} {before after : Db} (alive : RolesAlive tenant before)
    (rely : Rely (AssignmentPromise tenant) held before after) : RolesAlive tenant after :=
  rely.invariant (fun _ _ _ _ alive promised => promised.2 alive) alive

/-- The assignments of a locked role do not grow. -/
theorem assigned_of_rely {held : List Key} {before after : Db}
    (rely : Rely (AssignmentPromise tenant) held before after) (locked : .role role ∈ held)
    {user : String} (present : Key.memberRole tenant user role ∈ after) :
    Key.memberRole tenant user role ∈ before := by
  apply rely.induct (fun before after => Key.memberRole tenant user role ∈ after →
    Key.memberRole tenant user role ∈ before) (fun _ => id)
      (fun early late => early ∘ late) _ present
  intro op others before after disjoint _ promised present
  rcases promised.1 user role present with already | taken
  · exact already
  · exact absurd taken (disjoint locked)

theorem Assignable.extend (assignable : Assignable tenant role standing committed) (rows : List Key)
    (writes : List Write) : Assignable tenant role (standing.extend rows writes) committed :=
  ⟨List.mem_append_left _ assignable.1, assignable.2⟩

theorem Unassigned.extend (unassigned : Unassigned tenant role standing committed) (rows : List Key)
    (writes : List Write) : Unassigned tenant role (standing.extend rows writes) committed :=
  ⟨List.mem_append_left _ unassigned.1, unassigned.2⟩

theorem assignable_steady :
    Steady (AssignmentPromise tenant) (Assignable tenant role) where
  rely := by
    rintro standing before after ⟨locked, active⟩ rely
    refine ⟨locked, ?_⟩
    rw [Db.role?, rely.lookup locked]
    exact active
  opened := fun assignable => assignable
  locked := fun rows assignable => assignable.extend rows []

theorem unassigned_steady :
    Steady (AssignmentPromise tenant) (Unassigned tenant role) where
  rely := fun unassigned rely =>
    ⟨unassigned.1, fun user present =>
      unassigned.2 user (assigned_of_rely rely unassigned.1 present)⟩
  opened := fun unassigned => unassigned
  locked := fun rows unassigned => unassigned.extend rows []

theorem counted_steady : Steady (AssignmentPromise tenant) (Counted tenant role) where
  rely := fun counted rely => ⟨counted.1, fun snapshot taken user present =>
    counted.2 snapshot taken user (assigned_of_rely rely counted.1 present)⟩
  opened := by
    rintro standing committed ⟨locked, counted⟩
    refine ⟨locked, fun snapshot taken user present => ?_⟩
    rcases mem_opened taken with rfl | earlier
    · exact present
    · exact counted snapshot earlier user present
  locked := fun _ counted => ⟨List.mem_append_left _ counted.1, counted.2⟩

variable {writes : List Write} {rows : List Key}

theorem Assigning.write (assigning : Assigning tenant standing committed)
    (roles : ∀ write ∈ writes, ∀ role, write.1 ≠ .role role)
    (assigned : ∀ write ∈ writes, ∀ user role, write.1 = .memberRole tenant user role →
      Assignable tenant role standing committed) :
    Assigning tenant (standing.extend rows writes) committed where
  covered := assigning.covered.extend rows writes
  alive := assigning.alive
  roles := fun write written =>
    (List.mem_append.mp written).elim (assigning.roles write) (roles write)
  assigned := fun write written user role same =>
    ((List.mem_append.mp written).elim (assigning.assigned write) (assigned write) user role
      same).extend rows writes

theorem Changing.write (changing : Changing tenant role standing committed)
    (assignments : ∀ write ∈ writes, ∀ user role, write.1 ≠ .memberRole tenant user role)
    (own : ∀ write ∈ writes, ∀ other, write.1 = .role other → other = role)
    (keeps : Unassigned tenant role standing committed ∨
      ∀ content, ⟨.role role, content⟩ ∈ writes →
        ∃ row ∈ content, row.tenantId = tenant ∧ row.status = .active) :
    Changing tenant role (standing.extend rows writes) committed := by
  constructor
  case covered => exact changing.covered.extend rows writes
  case alive => exact changing.alive
  case assignments =>
    intro write written
    exact (List.mem_append.mp written).elim (changing.assignments write) (assignments write)
  case own =>
    intro write written
    exact (List.mem_append.mp written).elim (changing.own write) (own write)
  case keeps =>
    rcases changing.keeps with unassigned | before
    · exact .inl (unassigned.extend rows writes)
    · rcases keeps with unassigned | after
      · exact .inl (unassigned.extend rows writes)
      · exact .inr fun content written =>
          (List.mem_append.mp written).elim (before content) (after content)

theorem assigning_steady : Steady (AssignmentPromise tenant) (Assigning tenant) where
  rely := fun assigning rely => ⟨assigning.covered, rolesAlive_rely assigning.alive rely,
    assigning.roles, fun write written user role same =>
      Steady.rely assignable_steady (assigning.assigned write written user role same) rely⟩
  opened := fun assigning =>
    ⟨assigning.covered, assigning.alive, assigning.roles, assigning.assigned⟩
  locked := fun _ assigning => assigning.write nofun nofun

theorem changing_steady : Steady (AssignmentPromise tenant) (Changing tenant role) where
  rely := fun changing rely => ⟨changing.covered, rolesAlive_rely changing.alive rely,
    changing.assignments, changing.own,
    changing.keeps.imp_left fun unassigned => Steady.rely unassigned_steady unassigned rely⟩
  opened := fun changing =>
    ⟨changing.covered, changing.alive, changing.assignments, changing.own, changing.keeps⟩
  locked := fun _ changing => changing.write nofun nofun (.inr nofun)

/-- A transaction that assigns roles sees the committed rows of roles. -/
theorem Assigning.viewRole (assigning : Assigning tenant standing committed) (place id : String) :
    Db.role? (standing.currentView committed) place id = committed.role? place id := by
  rw [Db.role?, Db.role?, Standing.currentView, lookup_overlay_of_untouched]
  exact fun write written => assigning.roles write written id

theorem Assigning.settles (assigning : Assigning tenant standing committed)
    {assumes : Assumption Row} {op : Op} :
    Settles (AssignmentPromise tenant) assumes op standing committed := by
  intro now rely _
  have there := Steady.rely assigning_steady assigning rely
  have origin : ∀ user role, Key.memberRole tenant user role ∈ standing.currentView now →
      Key.memberRole tenant user role ∈ now ∨ Assignable tenant role standing now := by
    intro user role present
    rcases lookup_overlay_cases now standing.writes (.memberRole tenant user role)
      with kept | written
    · exact .inl ((mem_congr kept).mp present)
    · exact .inr (there.assigned _ written user role rfl)
  constructor
  · intro user role present
    exact (origin user role present).imp_right And.left
  · intro alive user id present
    rw [there.viewRole tenant id]
    rcases origin user id present with already | assignable
    · exact alive user id already
    · exact assignable.2

theorem Changing.settles (changing : Changing tenant role standing committed)
    {assumes : Assumption Row} {op : Op} :
    Settles (AssignmentPromise tenant) assumes op standing committed := by
  intro now rely _
  have there := Steady.rely changing_steady changing rely
  have origin : ∀ user role, Key.memberRole tenant user role ∈ standing.currentView now →
      Key.memberRole tenant user role ∈ now := by
    intro user role present
    apply (mem_congr _).mp present
    exact lookup_overlay_of_untouched
      (fun write written => there.assignments write written user role) _
  constructor
  · exact fun user role present => .inl (origin user role present)
  · intro alive user id present
    have assigned := origin user id present
    rcases lookup_overlay_cases now standing.writes (.role id) with kept | written
    · rw [Db.role?, Standing.currentView, kept]
      exact alive user id assigned
    · cases there.own _ written id rfl
      rcases there.keeps with unassigned | active
      · exact absurd assigned (unassigned.2 user)
      · obtain ⟨row, found, here, isActive⟩ := active _ written
        exact ⟨row, role?_eq_some.mpr ⟨found, here⟩, isActive⟩

/-- A write to neither a role nor an assignment of the tenant. -/
def Aside (tenant : String) : Key → Prop
  | .role _ => False
  | .memberRole place _ _ => place ≠ tenant
  | _ => True

theorem Assigning.writeAside (assigning : Assigning tenant standing committed)
    (aside : ∀ write ∈ writes, Aside tenant write.1) :
    Assigning tenant (standing.extend rows writes) committed := by
  apply assigning.write
  · intro write written role same
    have := aside write written
    rwa [same] at this
  · intro write written user role same
    have := aside write written
    rw [same] at this
    exact absurd rfl this

theorem Assigning.writeAssignment (assigning : Assigning tenant standing committed) {user : String}
    (assignable : Assignable tenant role standing committed) :
    Assigning tenant (standing.extend [] [⟨.memberRole tenant user role, some ()⟩]) committed := by
  apply assigning.write
  · intro write written other same
    cases List.mem_singleton.mp written
    cases same
  · intro write written holder other same
    cases List.mem_singleton.mp written
    cases same
    exact assignable

end Steps

section Operations

variable {tenant place role user : String} {assumes : Assumption Row} {standing : Standing Row}
  {committed : Db} {version : Nat} {principal : Principal}

theorem assigning_assignMember :
    Keeps (AssignmentPromise tenant) assumes (Assigning tenant) (assignMember place role user) := by
  intro standing committed assigning
  apply Steady.wp_lock assigning_steady assigning
  intro now row assigning seen
  have assignable : place = tenant → Assignable tenant role
      (standing.extend (Db.present (standing.currentView now) [.role role]) []) now := by
    rintro rfl
    obtain ⟨found, active⟩ := Option.filter_eq_some_iff.mp (Checks.found_ok.mp seen)
    have present := AList.lookup_isSome.mp (Option.isSome_of_eq_some (role?_eq_some.mp found).1)
    have view := assigning.viewRole place role
    rw [currentView_extend, overlay_nil, found] at view
    refine ⟨?_, row, view.symm, of_decide_eq_true active⟩
    simp [Standing.extend, mem_present, present]
  have steady : Steady (AssignmentPromise tenant) fun standing committed =>
      Assigning tenant standing committed ∧
        (place = tenant → Assignable tenant role standing committed) :=
    Steady.and assigning_steady
      { rely := fun holds rely here => Steady.rely assignable_steady (holds here) rely
        opened := fun holds => holds
        locked := fun rows holds here => Steady.locked assignable_steady rows (holds here) }
  apply wp_mono (fun _ _ _ both => And.left both)
  apply Keeps.bind (steady.read _) _ _ _ ⟨assigning, assignable⟩
  intro _
  apply Keeps.bind
  · apply steady.modify
    rintro standing now value writes ⟨assigning, assignable⟩ written
    cases written
    constructor
    · by_cases here : place = tenant
      · subst here
        exact assigning.writeAssignment (assignable rfl)
      · apply assigning.writeAside
        intro write written
        cases List.mem_singleton.mp written
        exact here
    · exact fun here => (assignable here).extend ..
  · intro _
    exact steady.read _

theorem assigning_assignTenantRoleMember :
    Keeps (AssignmentPromise tenant) assumes (Assigning tenant)
      (assignTenantRoleMember principal role user) := by
  apply Keeps.bind (keeps_require _ _)
  intro _
  apply Keeps.bind (keeps_lift _)
  intro place
  apply Keeps.bind assigning_assignMember
  intro _
  exact keeps_pure ()

theorem assigning_restoreMember {member : Membership} :
    Keeps (AssignmentPromise tenant) assumes (Assigning tenant) (restoreMember member version) := by
  have bounds : Bounds (fun _ => True) (fun _ write => Aside tenant write.1)
      (restoreMember member version) := bounds_restoreMember fun _ _ _ _ _ => trivial
  exact bounds.keeps assigning_steady (fun _ _ _ => trivial) (fun _ _ _ => trivial)
    fun _ _ _ _ assigning aside => assigning.writeAside aside

theorem assigning_restoreTenantMember {config : Config} {reason : String} :
    Keeps (AssignmentPromise tenant) assumes (Assigning tenant)
      (restoreTenantMember config principal user version reason) := by
  apply Keeps.bind (keeps_lift _)
  intro _
  apply Keeps.bind (keeps_lift _)
  intro _
  apply Keeps.bind (keeps_lift _)
  intro place
  apply Keeps.bind (Steady.read assigning_steady _)
  intro current
  apply Keeps.bind (keeps_require _ _)
  intro _
  apply Keeps.bind (keeps_lift _)
  intro restored
  apply Keeps.bind assigning_restoreMember
  intro roles
  apply Keeps.bind
  · apply keeps_forM
    intro role _
    exact assigning_assignTenantRoleMember
  intro _
  apply Keeps.bind (Steady.read assigning_steady _)
  intro _
  exact keeps_pure ()

/-- Before the role is written: nobody holds it, or it stays active. -/
def Decided (tenant role : String) (stays : Prop) (standing : Standing Row) (committed : Db) :
    Prop :=
  Changing tenant role standing committed ∧ (Unassigned tenant role standing committed ∨ stays)

theorem decided_steady {stays : Prop} :
    Steady (AssignmentPromise tenant) (Decided tenant role stays) where
  rely := fun decided rely => ⟨Steady.rely changing_steady decided.1 rely,
    decided.2.imp_left fun unassigned => Steady.rely unassigned_steady unassigned rely⟩
  opened := fun decided => ⟨Steady.opened changing_steady decided.1, decided.2⟩
  locked := fun rows decided => ⟨Steady.locked changing_steady rows decided.1,
    decided.2.imp_left (Steady.locked unassigned_steady rows)⟩

section

variable (changing : Changing tenant role standing committed)

include changing

/-- The lock that a change of a role takes. -/
theorem wp_lockRole {β : Type} (unwritten : standing.writes = []) {post : β → Assertion Row}
    {rest : RoleRecord → Tx β}
    (holds : ∀ row now locked, assumes .lock standing now → locked.snapshot = standing.snapshot →
      Changing tenant role locked now → locked.writes = [] → .role role ∈ locked.held →
      Db.role? now place role = some row →
      wp (AssignmentPromise tenant) assumes post (rest row) locked now) :
    wp (AssignmentPromise tenant) assumes post (lockRole place role >>= rest) standing
      committed := by
  apply wp_lock
  intro now rely assumed row seen
  have changing := Steady.locked changing_steady
    (Db.present (standing.currentView now) [.role role])
    (Steady.rely changing_steady changing rely)
  have found := Checks.found_ok.mp seen
  rw [Standing.currentView, unwritten, overlay_nil] at found
  have present := AList.lookup_isSome.mp (Option.isSome_of_eq_some (role?_eq_some.mp found).1)
  apply holds row now (standing.extend (Db.present (standing.currentView now) [.role role]) [])
    assumed rfl changing _ _ found
  · simp [Standing.extend, unwritten]
  · simp [Standing.extend, mem_present, Standing.currentView, unwritten, present]

/-- A role of another tenant or one that is not active has no assignments. -/
theorem Changing.unassigned (locked : .role role ∈ standing.held) {row : RoleRecord}
    (found : committed.role? place role = some row) (dead : place ≠ tenant ∨ row.status ≠ .active) :
    Unassigned tenant role standing committed := by
  refine ⟨locked, fun user present => ?_⟩
  obtain ⟨_, aliveFound, active⟩ := changing.alive user role present
  obtain ⟨looked, home⟩ := role?_eq_some.mp found
  obtain ⟨again, here⟩ := role?_eq_some.mp aliveFound
  cases looked.symm.trans again
  rcases dead with foreign | inactive
  · exact foreign (home.symm.trans here)
  · exact inactive active

/-- The count under the lock, of a snapshot that knows all assignments. -/
theorem wp_checkUnused (unwritten : standing.writes = [])
    (counted : Counted tenant role standing committed) :
    wp (AssignmentPromise tenant) assumes (fun _ => Decided tenant role False)
      (checkUnused tenant role) standing committed := by
  have steady : Steady (AssignmentPromise tenant) fun standing committed =>
      Changing tenant role standing committed ∧ Counted tenant role standing committed :=
    Steady.and changing_steady counted_steady
  apply steady.wp_read ⟨changing, counted⟩
  rintro now count ⟨changing, counted⟩ seen
  cases seen
  apply wp_require_last
  intro none
  refine ⟨changing, .inl ⟨counted.1, fun user present => ?_⟩⟩
  have shown := counted.2 _ rfl user present
  have holder : user ∈ Db.holders (standing.plainView now) tenant role := by
    rw [mem_holders, Standing.plainView, unwritten, overlay_nil]
    exact shown
  rw [List.length_eq_zero_iff.mp none] at holder
  cases holder

end

theorem wp_updateRole {role : Role} (changing : Changing tenant role.id standing committed)
    (unwritten : standing.writes = [])
    (current : role.tenantId = tenant → role.status ≠ .active → ∀ now, assumes .lock standing now →
      Shown tenant role.id standing now) :
    wp (AssignmentPromise tenant) assumes (fun _ => Changing tenant role.id)
      (updateRole role version)
      standing committed := by
  apply wp_require
  intro _
  apply wp_lockRole changing unwritten
  intro row now locked assumed sameSnapshot changing unwritten held found
  apply wp_require
  intro _
  apply wp_require
  intro _
  have written : ∀ standing committed,
      Decided tenant role.id (role.tenantId = tenant ∧ role.status = .active) standing committed →
      wp (AssignmentPromise tenant) assumes (fun _ => Changing tenant role.id)
        (modify fun db => do
          let row ← Checks.found Failure.roleConflict (db.role? role.tenantId role.id)
          Checks.require .roleConflict (row.version = version)
          return ((), [⟨.role role.id, some { row with
            name := role.name
            description := role.description
            status := role.status
            version := row.version + 1 }⟩])) standing committed := by
    intro standing committed decided
    apply wp_mono (fun _ _ _ (decided : Decided ..) => decided.1)
    apply Steady.modify decided_steady _ _ _ decided
    rintro standing now value writes ⟨changing, stays⟩ written
    obtain ⟨row, seen, checked⟩ := Checks.bind_ok.mp written
    obtain ⟨_, _, returned⟩ := Checks.bind_ok.mp checked
    cases returned
    have home := (role?_eq_some.mp (Checks.found_ok.mp seen)).2
    constructor
    · apply changing.write
      · intro write listed user other same
        cases List.mem_singleton.mp listed
        cases same
      · intro write listed other same
        cases List.mem_singleton.mp listed
        cases same
        rfl
      · apply stays.imp_right
        rintro ⟨here, active⟩ content listed
        cases List.mem_singleton.mp listed
        exact ⟨_, rfl, home.trans here, active⟩
    · exact stays.imp_left fun unassigned => unassigned.extend ..
  by_cases dead : role.tenantId ≠ tenant ∨ row.status ≠ .active
  · have unassigned := changing.unassigned held found dead
    rw [wp_bind]
    have kept : Keeps (AssignmentPromise tenant) assumes
        (Decided tenant role.id (role.tenantId = tenant ∧ role.status = .active))
        (whenever (row.status = .active ∧ role.status = .disabled)
          (checkUnused role.tenantId role.id)) := by
      apply keeps_whenever
      intro _
      apply Keeps.bind (Steady.read decided_steady _)
      intro _
      exact keeps_require _ _
    apply wp_mono (fun _ => written) (kept _ _ ⟨changing, .inl unassigned⟩)
  · rw [not_or, not_not, not_not] at dead
    obtain ⟨rfl, active⟩ := dead
    apply wp_whenever
    · rintro ⟨_, disabled⟩
      rw [wp_bind]
      have inactive : role.status ≠ .active := fun same => nomatch same.symm.trans disabled
      have counted : Counted role.tenantId role.id locked now := by
        refine ⟨held, ?_⟩
        rw [Shown, sameSnapshot]
        exact current rfl inactive now assumed
      apply wp_mono _ (wp_checkUnused changing unwritten counted)
      rintro _ standing committed ⟨changing, unassigned⟩
      exact written standing committed ⟨changing, unassigned.imp_right False.elim⟩
    · intro enabled
      apply written _ _ ⟨changing, .inr ⟨rfl, ?_⟩⟩
      cases status : role.status with
      | active => rfl
      | disabled => exact absurd ⟨active, status⟩ enabled

theorem wp_changeTenantRole {change : RoleChange}
    (changing : Changing tenant (trimSpace role) standing committed)
    (unwritten : standing.writes = [])
    (current : trimSpace principal.tenantId = tenant → change = .disable →
      ∀ standing now, assumes .lock standing now → Shown tenant (trimSpace role) standing now) :
    wp (AssignmentPromise tenant) assumes (fun _ => Changing tenant (trimSpace role))
      (changeTenantRole principal role version change) standing committed := by
  apply wp_require
  intro _
  apply wp_lift
  intro place trusted
  cases trustedTenantId_ok trusted
  apply Steady.wp_read changing_steady changing
  intro now read changing seen
  obtain ⟨_, found, converted⟩ := Checks.bind_ok.mp seen
  cases converted
  have home := (role?_eq_some.mp (Checks.found_ok.mp found)).2
  apply wp_require
  intro _
  apply wp_lift
  intro changed applied
  obtain ⟨sameId, sameTenant, keepsActive⟩ := RoleChange.apply_ok applied
  have named : changed.id = trimSpace role := sameId
  have placed : changed.tenantId = trimSpace principal.tenantId := sameTenant.trans home
  rw [← named] at changing current ⊢
  apply wp_updateRole changing unwritten
  intro here inactive now assumed
  apply current (placed.symm.trans here) _ _ now assumed
  by_contra other
  exact inactive (keepsActive other)

/-- Once nobody holds the role, it and its grants may be written. -/
theorem changing_modify {f : Db → Except Failure (Unit × List Write)}
    (written : ∀ db value writes, f db = .ok (value, writes) → ∀ write ∈ writes,
      write.1 = .role role ∨ ∃ home permission, write.1 = .grant home role permission) :
    Keeps (AssignmentPromise tenant) assumes (Decided tenant role False) (modify f) := by
  apply Steady.modify decided_steady
  rintro standing now value writes ⟨changing, unassigned⟩ outcome
  replace unassigned := unassigned.resolve_right id
  refine ⟨changing.write ?_ ?_ (.inl unassigned), .inl (unassigned.extend ..)⟩
  · intro write listed user other same
    rcases written _ _ _ outcome write listed with itself | ⟨_, _, grant⟩
    · cases same.symm.trans itself
    · cases same.symm.trans grant
  · intro write listed other same
    rcases written _ _ _ outcome write listed with itself | ⟨_, _, grant⟩
    · cases same.symm.trans itself
      rfl
    · cases same.symm.trans grant

theorem wp_deleteTenantRole (changing : Changing tenant (trimSpace role) standing committed)
    (unwritten : standing.writes = []) (unread : standing.snapshot = none) :
    wp (AssignmentPromise tenant) assumes (fun _ => Changing tenant (trimSpace role))
      (deleteTenantRole principal role version) standing committed := by
  apply wp_require
  intro _
  apply wp_lift
  intro place _
  apply wp_require
  intro _
  apply wp_lockRole changing unwritten
  intro row now locked _ sameSnapshot changing unwritten held found
  apply wp_require
  intro _
  apply wp_require
  intro _
  rw [wp_bind]
  have checked : wp (AssignmentPromise tenant) assumes
      (fun _ => Decided tenant (trimSpace role) False) (checkUnused place (trimSpace role)) locked
      now := by
    by_cases here : place = tenant
    · subst here
      apply wp_checkUnused changing unwritten
      refine ⟨held, ?_⟩
      rw [Shown, sameSnapshot, unread]
      exact fun _ taken => nomatch taken
    · apply Keeps.bind (Steady.read decided_steady _) _ _ _
        ⟨changing, .inl (changing.unassigned held found (.inl here))⟩
      intro _
      exact keeps_require _ _
  apply wp_mono _ checked
  intro _ standing committed decided
  apply wp_mono (fun _ _ _ (decided : Decided ..) => decided.1)
  apply Keeps.bind _ _ _ _ decided
  · apply changing_modify
    intro db value writes outcome write listed
    cases outcome
    obtain ⟨key, _, picked⟩ := List.mem_filterMap.mp listed
    cases key with
    | grant home other permission =>
      simp only [Option.ite_none_right_eq_some, Option.some.injEq] at picked
      obtain ⟨⟨_, rfl⟩, rfl⟩ := picked
      exact .inr ⟨_, _, rfl⟩
    | _ => cases picked
  · intro _
    apply changing_modify
    intro db value writes outcome write listed
    cases outcome
    split at listed
    · split at listed
      · cases List.mem_singleton.mp listed
        exact .inl rfl
      · cases listed
    · cases listed

end Operations

variable {tenant : String} {committed : Db}

theorem assigning_fresh (alive : RolesAlive tenant committed) :
    Assigning tenant .fresh committed where
  covered := covered_fresh
  alive := alive
  roles := fun _ listed => nomatch listed
  assigned := fun _ listed => nomatch listed

theorem changing_fresh {role : String} (alive : RolesAlive tenant committed) :
    Changing tenant role .fresh committed where
  covered := covered_fresh
  alive := alive
  assignments := fun _ listed => nomatch listed
  own := fun _ listed => nomatch listed
  keeps := .inr fun _ listed => nomatch listed

theorem settles_of_assigning {service : Service} {op : Op} (assigning : op.assigns)
    (alive : RolesAlive tenant committed) :
    Ends (AssignmentPromise tenant) op.Current op (program service op) .fresh committed := by
  cases op with
  | assign =>
    apply wp_mono (fun _ _ _ assigning => Assigning.settles assigning)
    exact assigning_assignTenantRoleMember _ _ (assigning_fresh alive)
  | restore =>
    apply wp_mono (fun _ _ _ assigning => Assigning.settles assigning)
    exact assigning_restoreTenantMember _ _ (assigning_fresh alive)
  | changeRole =>
    apply wp_mono (fun _ _ _ changing => Changing.settles changing)
    apply wp_changeTenantRole (changing_fresh alive) rfl
    rintro rfl rfl standing now assumed
    exact assumed
  | deleteRole =>
    apply wp_mono (fun _ _ _ changing => Changing.settles changing)
    exact wp_deleteTenantRole (changing_fresh alive) rfl rfl
  | _ => cases assigning

/-- However assignments, restores, changes and deletions of roles interleave, no role is
assigned that is disabled or gone, if every disabling finds the committed assignments of
its role in its snapshot. -/
theorem roles_stay_alive {service : Service} {tenant : String} {start : Db}
    (alive : RolesAlive tenant start) {events : List Event} {last : System}
    (run : Run (Guarded (Steps service) (Condition (·.assigns) Op.Current))
      (quiet start) events last) :
    RolesAlive tenant last.committed := by
  refine (sound_of_run ?_ (fun op assigning committed alive => settles_of_assigning assigning alive)
    run (sound_quiet alive)).invariant
  exact fun _ _ _ _ alive promised => promised.2 alive

section Sample

/-- A tenant with one member and an active role that nobody holds. -/
def unheldRole : Db :=
  (((serve plainService ∅ (.bootstrapMember "t" "a" "a@x")).getD ∅).insert (.role "r")
    ⟨"t", "guard", "", none, false, none, .active, 1⟩)

/-- The role is assigned after its disabling has read it. -/
def lateAssignment : List Event :=
  [.start 0 (.changeRole firstOwner "r" 1 .disable), .advance 0,
    .start 1 (.assign firstOwner "r" "a"), .advance 1, .advance 1, .advance 1, .advance 1,
    .advance 1, .advance 0, .advance 0, .advance 0, .advance 0]

/-- The assignment waits until the role is disabled, and is refused. -/
def earlyDisabling : List Event :=
  [.start 0 (.changeRole firstOwner "r" 1 .disable), .advance 0,
    .start 1 (.assign firstOwner "r" "a"), .advance 0, .advance 0, .advance 0, .advance 0,
    .advance 1, .advance 1]

theorem unheldRole_runs :
    (unheldRole.keys.all fun | .memberRole _ _ _ => false | _ => true) = true ∧
    (lateAssignment.foldlM (step (program plainService))
      (quiet unheldRole)).any (fun last =>
        decide (Key.memberRole "t" "a" "r" ∈ last.committed) &&
          (Db.role? last.committed "t" "r").all fun row => row.status = .disabled) = true ∧
    (earlyDisabling.foldlM (fun system event =>
      if Condition (·.assigns) Op.Current system event
      then step (program plainService) system event else none)
      (quiet unheldRole)).isSome = true := by
  decide +kernel

theorem unheldRole_alive : RolesAlive "t" unheldRole := by
  intro user role present
  have listed := List.all_eq_true.mp unheldRole_runs.1 _ (AList.mem_keys.mpr present)
  cases listed

theorem late_assignment_dead : ∃ last : System,
    Run (Steps plainService) (quiet unheldRole) lateAssignment last ∧
      (∀ id op, .start id op ∈ lateAssignment → op.assigns) ∧
      RolesAlive "t" unheldRole ∧ ¬RolesAlive "t" last.committed := by
  obtain ⟨last, reached, outcome⟩ := (Option.any_eq_true _ _).mp unheldRole_runs.2.1
  simp only [Bool.and_eq_true, decide_eq_true_eq] at outcome
  obtain ⟨assigned, disabled⟩ := outcome
  refine ⟨last, run_of_foldlM reached, ?_, unheldRole_alive, ?_⟩
  · intro id op listed
    simp only [lateAssignment, List.mem_cons, Isolation.Event.start.injEq, reduceCtorEq,
      List.not_mem_nil, or_false, false_or] at listed
    rcases listed with ⟨_, rfl⟩ | ⟨_, rfl⟩ <;> rfl
  · intro alive
    obtain ⟨_, found, active⟩ := alive "a" "r" assigned
    rw [found] at disabled
    cases active.symm.trans (of_decide_eq_true disabled)

theorem early_disabling_alive : ∃ last : System,
    Run (Guarded (Steps plainService) (Condition (·.assigns) Op.Current))
      (quiet unheldRole) earlyDisabling last ∧ RolesAlive "t" last.committed := by
  obtain ⟨last, reached⟩ := Option.isSome_iff_exists.mp unheldRole_runs.2.2
  have run := guarded_of_foldlM reached
  exact ⟨last, run, roles_stay_alive unheldRole_alive run⟩

end Sample

end Biz.Access
