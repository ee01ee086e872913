import Biz.Access.Operations

/-!
# Ownership of a tenant

Four kinds of transactions can take an owner away: a role is revoked, a member is
suspended, removed, or deletes themself. What such a transaction may rely on is said
here, row by row: nobody becomes an owner without the lock on the owner role, no role
changes, and the status of a membership changes only together with its version. The
owner who stays is one whose rows are locked, so that nobody can take them away before
the commit.
-/

namespace Biz.Access

open Isolation

/-- A row of a membership that was seen at a version and with a status: it has changed
its status only if it has changed its version. -/
def Follows (version : Nat) (status : MemberStatus) (after : Option MembershipRecord) : Prop :=
  ∃ next ∈ after, version < next.version ∨ (next.version = version ∧ next.status = status)

/-- The status of a membership changes only together with its version. -/
def Advances (before after : Option MembershipRecord) : Prop :=
  ∀ row ∈ before, Follows row.version row.status after

theorem advances_refl (row : Option MembershipRecord) : Advances row row :=
  fun row found => ⟨row, found, .inr ⟨rfl, rfl⟩⟩

theorem Follows.trans {version : Nat} {status : MemberStatus}
    {second third : Option MembershipRecord}
    (early : Follows version status second) (late : Advances second third) :
    Follows version status third := by
  obtain ⟨middle, middleFound, earlier⟩ := early
  obtain ⟨last, lastFound, later⟩ := late middle middleFound
  refine ⟨last, lastFound, ?_⟩
  rcases earlier with newer | ⟨rfl, rfl⟩
  · rcases later with newest | ⟨sameVersion, _⟩
    · exact .inl (newer.trans newest)
    · exact .inl (sameVersion ▸ newer)
  · exact later

theorem Advances.trans {first second third : Option MembershipRecord}
    (early : Advances first second) (late : Advances second third) : Advances first third :=
  fun row found => (early row found).trans late

/-- A later version is all that a write needs to advance a membership. -/
theorem advances_of_lt {before : Option MembershipRecord} {row next : MembershipRecord}
    (found : before = some row) (newer : row.version < next.version) :
    Advances before (some next) := by
  intro old seen
  cases found.symm.trans seen
  exact ⟨next, rfl, .inl newer⟩

/-- The keys that an operation on one member may write. -/
def Key.concerns (place member : String) : Key → Prop
  | .role _ => False
  | .membership home holder => home = place ∧ holder = member
  | .memberRole home holder _ => home = place ∧ holder = member
  | _ => True

section Ownership

variable (tenant owner : String)

def Owns (db : Db) (user : String) : Prop :=
  db.activeMember tenant user = true ∧ Key.memberRole tenant user owner ∈ db

/-- Some active member holds the owner role. -/
def Owned (db : Db) : Prop := ∃ user, Owns tenant owner db user

/-- What every transaction does to a row at most. The owner role is newly assigned only
by one that has locked it. -/
def Moves (locked : Prop) : (key : Key) → Option (Row key) → Option (Row key) → Prop
  | .role _, before, after => after = before
  | .membership _ _, before, after => Advances before after
  | .memberRole place _ role, before, after =>
    place = tenant → role = owner → after.isSome = true → before.isSome = true ∨ locked
  | _, _, _ => True

/-- What a transaction does that takes no owner away. -/
def Raises : (key : Key) → Option (Row key) → Option (Row key) → Prop
  | .membership place _, before, after => place = tenant → ∀ row ∈ before, row.status = .active →
      ∃ next ∈ after, next.status = .active
  | .memberRole place _ role, before, after =>
    place = tenant → role = owner → before.isSome = true → after.isSome = true
  | _, _, _ => True

/-- What a transaction promises to the others. -/
def OwnerPromise (_ : Op) (held : List Key) (before after : Db) : Prop :=
  (∀ key, Moves tenant owner (.role owner ∈ held) key (before.lookup key) (after.lookup key)) ∧
    (Owned tenant owner before → Owned tenant owner after)

/-- Another owner is locked, or the member is no owner and cannot become one. -/
def Spare (member : String) (standing : Standing Row) (committed : Db) : Prop :=
  (∃ user, user ≠ member ∧ .membership tenant user ∈ standing.held ∧
      .memberRole tenant user owner ∈ standing.held ∧ Owns tenant owner committed user) ∨
    (.role owner ∈ standing.held ∧ Key.memberRole tenant member owner ∉ committed)

/-- The rows of a snapshot and the committed rows. -/
def Older : (key : Key) → Option (Row key) → Option (Row key) → Prop
  | .membership _ _, before, after => Advances before after
  | _, _, _ => True

/-- What holds at each statement of an operation on one member. -/
structure Progress (place member : String) (standing : Standing Row) (committed : Db) : Prop where
  role : committed.ownerRole tenant = some owner
  covered : Covered standing
  own : ∀ write ∈ standing.writes, write.1.concerns place member
  behind : Behind Older standing committed
  moves : Alters (Moves tenant owner (.role owner ∈ standing.held)) standing committed
  raises : place = tenant → Alters (Raises tenant owner) standing committed ∨
    Spare tenant owner member standing committed

end Ownership

section Relations

variable {tenant owner : String} {locked : Prop}

theorem moves_refl (key : Key) (row : Option (Row key)) :
    Moves tenant owner locked key row row := by
  cases key <;> simp only [Moves]
  case membership => exact advances_refl row
  case memberRole => exact fun _ _ => .inl

theorem Moves.trans (key : Key) (first second third : Option (Row key))
    (early : Moves tenant owner locked key first second)
    (late : Moves tenant owner locked key second third) :
    Moves tenant owner locked key first third := by
  cases key <;> simp only [Moves] at early late ⊢
  case role => exact late.trans early
  case membership => exact Advances.trans early late
  case memberRole =>
    intro here same present
    rcases late here same present with middle | held
    · exact early here same middle
    · exact .inr held

theorem Moves.mono {weaker : Prop} (implied : locked → weaker) (key : Key)
    (before after : Option (Row key)) (moves : Moves tenant owner locked key before after) :
    Moves tenant owner weaker key before after := by
  cases key <;> simp only [Moves] at moves ⊢
  case role => exact moves
  case membership => exact moves
  case memberRole => exact fun here same present => (moves here same present).imp_right implied

theorem raises_refl (key : Key) (row : Option (Row key)) : Raises tenant owner key row row := by
  cases key <;> simp only [Raises]
  case membership => exact fun _ row found active => ⟨row, found, active⟩
  case memberRole => exact fun _ _ => id

theorem Raises.trans (key : Key) (first second third : Option (Row key))
    (early : Raises tenant owner key first second) (late : Raises tenant owner key second third) :
    Raises tenant owner key first third := by
  cases key <;> simp only [Raises] at early late ⊢
  case membership =>
    intro here row found active
    obtain ⟨middle, middleFound, middleActive⟩ := early here row found active
    exact late here middle middleFound middleActive
  case memberRole => exact fun here same present => late here same (early here same present)

theorem older_refl (key : Key) (row : Option (Row key)) : Older key row row := by
  cases key <;> simp only [Older]
  case membership => exact advances_refl row

theorem Older.trans (key : Key) (first second third : Option (Row key))
    (early : Older key first second) (late : Older key second third) : Older key first third := by
  cases key <;> simp only [Older] at early late ⊢
  case membership => exact Advances.trans early late

theorem Moves.older (key : Key) (before after : Option (Row key))
    (moves : Moves tenant owner locked key before after) : Older key before after := by
  cases key <;> simp only [Older]
  case membership => exact moves

end Relations

section Steps

variable {tenant owner place member : String} {standing : Standing Row} {committed : Db}

/-- The first owner role depends on the rows of roles only. -/
theorem ownerRole_congr {first second : Db}
    (same : ∀ id, first.lookup (.role id) = second.lookup (.role id)) :
    first.ownerRole tenant = second.ownerRole tenant := by
  have members : ∀ id, id ∈ first.ownerRoles tenant ↔ id ∈ second.ownerRoles tenant := by
    intro id
    simp only [mem_ownerRoles, Db.role?, same]
  apply Option.ext
  intro id
  simp only [Db.ownerRole, List.min?_eq_some_iff, members]

/-- The rows that an operation on a member leaves alone. -/
theorem Progress.unchanged (progress : Progress tenant owner place member standing committed)
    (key : Key) (foreign : ¬key.concerns place member) :
    (standing.currentView committed).lookup key = committed.lookup key := by
  apply lookup_overlay_of_untouched
  rintro write written rfl
  exact foreign (progress.own write written)

/-- Ownership depends on two rows. -/
theorem Owns.congr {first second : Db} {user : String} (owns : Owns tenant owner first user)
    (membership : second.lookup (.membership tenant user) = first.lookup (.membership tenant user))
    (assignment : second.lookup (.memberRole tenant user owner) =
      first.lookup (.memberRole tenant user owner)) : Owns tenant owner second user := by
  obtain ⟨active, assigned⟩ := owns
  constructor
  · rw [Db.activeMember, Db.membership?, membership]
    exact active
  · rw [← AList.lookup_isSome, assignment]
    exact AList.lookup_isSome.mpr assigned

/-- Neither a locked owner nor the lack of an assignment can be changed by others. -/
theorem Spare.rely {before after : Db} (spare : Spare tenant owner member standing before)
    (rely : Rely (OwnerPromise tenant owner) standing.held before after) :
    Spare tenant owner member standing after := by
  rcases spare with ⟨user, other, membership, assignment, owns⟩ | ⟨locked, absent⟩
  · exact .inl ⟨user, other, membership, assignment,
      owns.congr (rely.lookup membership) (rely.lookup assignment)⟩
  · refine .inr ⟨locked, ?_⟩
    apply rely.induct (fun before after => Key.memberRole tenant member owner ∉ before →
      Key.memberRole tenant member owner ∉ after) (fun _ => id) (fun early late => late ∘ early)
      _ absent
    intro op others before after disjoint _ promised absent present
    rcases promised.1 (.memberRole tenant member owner) rfl rfl (AList.lookup_isSome.mpr present)
      with already | taken
    · exact absent (AList.lookup_isSome.mp already)
    · exact disjoint locked taken

theorem Spare.mono {more : Standing Row} (spare : Spare tenant owner member standing committed)
    (wider : ∀ key ∈ standing.held, key ∈ more.held) :
    Spare tenant owner member more committed := by
  rcases spare with ⟨user, other, membership, assignment, owns⟩ | ⟨locked, absent⟩
  · exact .inl ⟨user, other, wider _ membership, wider _ assignment, owns⟩
  · exact .inr ⟨wider _ locked, absent⟩

theorem held_extend (standing : Standing Row) (rows : List Key) (writes : List Write) :
    ∀ key ∈ standing.held, key ∈ (standing.extend rows writes).held :=
  fun _ held => List.mem_append_left _ held

variable (tenant owner) in
theorem older_steady : Steady (OwnerPromise tenant owner) (Behind Older) :=
  steady_behind older_refl Older.trans
    fun _ _ _ _ promised key => Moves.older key _ _ (promised.1 key)

theorem progress_steady :
    Steady (OwnerPromise tenant owner) (Progress tenant owner place member) where
  rely := by
    intro standing before after progress rely
    have roles : ∀ id, after.lookup (.role id) = before.lookup (.role id) := fun id =>
      rely.induct (fun before after => after.lookup (.role id) = before.lookup (.role id))
        (fun _ => rfl) (fun early late => late.trans early) fun _ _ promised =>
          promised.1 (.role id)
    constructor
    case role => exact (ownerRole_congr roles).trans progress.role
    case covered => exact progress.covered
    case own => exact progress.own
    case behind => exact (older_steady tenant owner).rely progress.behind rely
    case moves => exact progress.moves.rely moves_refl progress.covered rely
    case raises =>
      intro here
      rcases progress.raises here with raises | spare
      · exact .inl (raises.rely raises_refl progress.covered rely)
      · exact .inr (spare.rely rely)
  opened := by
    intro standing committed progress
    exact ⟨progress.role, progress.covered, progress.own,
      (older_steady tenant owner).opened progress.behind,
      progress.moves, progress.raises⟩
  locked := by
    intro standing committed rows progress
    have wider := held_extend standing rows []
    constructor
    case role => exact progress.role
    case covered => exact progress.covered.extend rows []
    case own =>
      intro write written
      simp only [Standing.extend, List.append_nil] at written
      exact progress.own write written
    case behind => exact progress.behind
    case moves =>
      exact (progress.moves.extend Moves.trans rows fun key => moves_refl key _).mono
        (Moves.mono (wider _))
    case raises =>
      intro here
      rcases progress.raises here with raises | spare
      · exact .inl (raises.extend Raises.trans rows fun key => raises_refl key _)
      · exact .inr (spare.mono wider)

variable (progress : Progress tenant owner place member standing committed)

include progress

/-- An operation that ends in good progress may commit. -/
theorem Progress.settles {assumes : Assumption Row} {op : Op} :
    Settles (OwnerPromise tenant owner) assumes op standing committed := by
  intro now rely _
  have there := Steady.rely progress_steady progress rely
  have untouched : ∀ user, ¬(tenant = place ∧ user = member) → Owns tenant owner now user →
      Owns tenant owner (standing.currentView now) user := by
    intro user foreign owns
    exact owns.congr (there.unchanged _ foreign) (there.unchanged _ foreign)
  refine ⟨there.moves, ?_⟩
  rintro ⟨user, owns⟩
  by_cases here : place = tenant
  · rcases there.raises here with raises | spare
    · refine ⟨user, ?_, ?_⟩
      · obtain ⟨row, found, active⟩ := activeMember_iff.mp owns.1
        obtain ⟨next, nextFound, nextActive⟩ :=
          raises (.membership tenant user) rfl row found active
        exact activeMember_iff.mpr ⟨next, nextFound, nextActive⟩
      · exact AList.lookup_isSome.mp (raises (.memberRole tenant user owner) rfl rfl
          (AList.lookup_isSome.mpr owns.2))
    · rcases spare with ⟨other, different, _, _, owns⟩ | ⟨_, absent⟩
      · exact ⟨other, untouched other (fun same => different same.2) owns⟩
      · refine ⟨user, untouched user ?_ owns⟩
        rintro ⟨_, rfl⟩
        exact absent owns.2
  · exact ⟨user, untouched user (fun same => here same.1.symm) owns⟩

/-- A statement's writes, row by row. -/
theorem Progress.write (rows : List Key) {writes : List Write}
    (own : ∀ write ∈ writes, write.1.concerns place member)
    (moves : ∀ key, Moves tenant owner (.role owner ∈ standing.held) key
      ((standing.currentView committed).lookup key)
      ((overlay (standing.currentView committed) writes).lookup key))
    (raises : place = tenant → (∀ key, Raises tenant owner key
        ((standing.currentView committed).lookup key)
        ((overlay (standing.currentView committed) writes).lookup key)) ∨
      Spare tenant owner member standing committed) :
    Progress tenant owner place member (standing.extend rows writes) committed := by
  have wider := held_extend standing rows writes
  constructor
  case role => exact progress.role
  case covered => exact progress.covered.extend rows writes
  case own =>
    intro write written
    rcases List.mem_append.mp written with early | late
    · exact progress.own write early
    · exact own write late
  case behind => exact progress.behind
  case moves => exact (progress.moves.extend Moves.trans rows moves).mono (Moves.mono (wider _))
  case raises =>
    intro here
    rcases raises here with step | spare
    · rcases progress.raises here with raised | spare
      · exact .inl (raised.extend Raises.trans rows step)
      · exact .inr (spare.mono wider)
    · exact .inr (spare.mono wider)

/-- The membership is written at a later version. -/
theorem Progress.writeMembership {row next : MembershipRecord}
    (found : (standing.currentView committed).lookup (.membership place member) = some row)
    (newer : row.version < next.version)
    (raise : place = tenant → (row.status = .active → next.status = .active) ∨
      Spare tenant owner member standing committed) :
    Progress tenant owner place member
      (standing.extend [] [⟨.membership place member, some next⟩]) committed := by
  apply progress.write []
  · intro write written
    cases List.mem_singleton.mp written
    exact ⟨rfl, rfl⟩
  · apply overlay_one_related moves_refl
    exact advances_of_lt found newer
  · intro here
    apply (raise here).imp_left
    intro active
    apply overlay_one_related raises_refl
    intro _ old seen wasActive
    cases found.symm.trans seen
    exact ⟨next, rfl, active wasActive⟩

/-- A role is assigned by a transaction that has locked it. -/
theorem Progress.writeAssignment {role : String} (locked : .role role ∈ standing.held) :
    Progress tenant owner place member
      (standing.extend [] [⟨.memberRole place member role, some ()⟩]) committed := by
  apply progress.write []
  · intro write written
    cases List.mem_singleton.mp written
    exact ⟨rfl, rfl⟩
  · apply overlay_one_related moves_refl
    rintro - rfl -
    exact .inr locked
  · intro _
    refine .inl (overlay_one_related raises_refl _ ?_)
    exact fun _ _ _ => rfl

end Steps

end Biz.Access
