import Biz.Library.Ascent
import Biz.Access.Members

/-!
# Departments of a tenant

The department repository and the department service. A new parent is checked by walking
up from it with plain reads, and the row is then written with a check of its own version.
Nothing checks that the rows of the walk are still the committed ones, so that two moves
that are each legal in their own snapshot can close a circle.

The database compares identifiers and names by a collation, the service compares texts. So
a parent that is not spelled as it is stored passes for another one.
-/

namespace Biz.Access.Departments

open Ascent Runs Text Checks Isolation

/-- A department of the domain. -/
structure Department where
  id : String
  tenantId : String
  name : String
  parentId : String
  leaderUserId : String
  email : String
  phone : String
  status : DepartmentStatus
  sort : Int
  version : Nat

/-- What a request says about a department. -/
structure Details where
  name : String
  parentId : String
  leaderUserId : String
  email : String
  phone : String
  sort : Int

-- A collation maps a text to what the database compares.
variable (lower collation : String → String)

namespace Department

def update (department : Department) (details : Details) : Except Failure Department := do
  let name := trimSpace details.name
  let parentId := trimSpace details.parentId
  let leaderUserId := trimSpace details.leaderUserId
  let email := trimSpace (lower details.email)
  let phone := trimSpace details.phone
  require .invalidDepartment (name ≠ "" ∧ name.length ≤ 100 ∧ parentId.length ≤ 64 ∧
    leaderUserId.length ≤ 64 ∧ email.length ≤ 320 ∧ phone.length ≤ 40)
  require .invalidDepartmentMove (¬(parentId ≠ "" ∧ parentId = department.id))
  return { department with
    name := name
    parentId := parentId
    leaderUserId := leaderUserId
    email := email
    phone := phone
    sort := details.sort }

def disable (department : Department) : Except Failure Department := do
  require .invalidDepartmentStatus (department.status = .active)
  return { department with status := .disabled }

def enable (department : Department) : Except Failure Department := do
  require .invalidDepartmentStatus (department.status = .disabled)
  return { department with status := .active }

end Department

/-- `NewDepartment`. -/
def newDepartment (id tenantId : String) (details : Details) : Except Failure Department := do
  let department ← Department.update lower
    ⟨trimSpace id, trimSpace tenantId, "", "", "", "", "", .active, 0, 1⟩ details
  require .invalidDepartment (department.id ≠ "" ∧ department.tenantId ≠ "")
  return department

/-! ## The repository -/

/-- The identifiers of all departments. -/
def departments (db : Db) : List String :=
  db.select fun
    | .department id => some id
    | _ => none

/-- The primary key that the database finds for an identifier: the one that is spelled like
it, or one that compares equal. No two keys do. -/
def stored (db : Db) (id : String) : String :=
  if Key.department id ∈ db then id
  else ((departments db).find? fun known => collation known = collation id).getD id

/-- A department of the tenant; the identifier alone is the primary key. -/
def department? (db : Db) (tenant id : String) : Option DepartmentRecord :=
  (db.lookup (.department id)).filter fun row => collation row.tenantId = collation tenant

variable {db : Db}

/-- A department that is found is a stored row whose tenant compares equal. -/
theorem department?_eq_some {collation : String → String} {tenant id : String}
    {row : DepartmentRecord} :
    department? collation db tenant id = some row ↔
      db.lookup (.department id) = some row ∧ collation row.tenantId = collation tenant := by
  simp [department?, Option.filter_eq_some_iff]

/-- A row with its identifier is a department. -/
def departmentFromRecord (id : String) (row : DepartmentRecord) : Department where
  id := id
  tenantId := row.tenantId
  name := row.name
  parentId := row.parentId
  leaderUserId := row.leaderUserId
  email := row.email
  phone := row.phone
  status := row.status
  sort := row.sort
  version := row.version

/-- `TenantDepartmentRepository.Get`. -/
def getDepartment (db : Db) (tenant id : String) : Except Failure Department := do
  let key := stored collation db (trimSpace id)
  let row ← found .departmentNotFound (department? collation db (trimSpace tenant) key)
  return departmentFromRecord key row

/-- The walk of `ValidateParent` at one department, which must be new to it, not the one
that moves, and active. The walk goes on with its parent. -/
def pass (db : Db) (tenant department : String) (visited : List String) (current : String) :
    Except Failure String := do
  require .departmentHierarchy (current ∉ visited ∧ current ≠ department)
  let row ← found .departmentHierarchy
    (department? collation db tenant (stored collation db current))
  require .departmentHierarchy (row.status = .active)
  return row.parentId

/-- The walk ends at the latest when it has visited every row. -/
def climb (db : Db) (tenant department : String) : Nat → List String → String → Except Failure Unit
  | 0, _, current => require .departmentHierarchy (current = "")
  | fuel + 1, visited, current =>
    if current = "" then .ok ()
    else do
      let parent ← pass collation db tenant department visited current
      climb db tenant department fuel (current :: visited) parent

/-- `TenantDepartmentRepository.ValidateParent`. -/
def validateParent (db : Db) (tenant departmentId parentId : String) : Except Failure Unit :=
  if trimSpace parentId = "" then .ok ()
  else do
    require .departmentHierarchy (trimSpace parentId ≠ trimSpace departmentId)
    climb collation db tenant (trimSpace departmentId) db.keys.length [] (trimSpace parentId)

/-- `TenantDepartmentRepository.ValidateLeader`. -/
def validateLeader (db : Db) (tenant userId : String) : Except Failure Unit :=
  require .departmentLeader (trimSpace userId = "" ∨ db.keys.any (fun
    | .membership place user => collation place = collation tenant &&
      collation user = collation (trimSpace userId) && db.activeMember place user
    | _ => false) = true)

/-- No other department of the tenant has the name. -/
def nameFree (db : Db) (tenant id name : String) : Bool :=
  db.keys.all fun
    | .department other => other = id ||
      (db.lookup (.department other)).all fun row =>
        collation row.tenantId ≠ collation tenant || collation row.name ≠ collation name
    | _ => true

variable (department : Department)

/-- What an insert of a department writes. -/
def insertion (db : Db) : Except Failure (Unit × List Write) := do
  require .departmentExists (.department (stored collation db department.id) ∉ db ∧
    nameFree collation db department.tenantId department.id department.name = true)
  return ((), [⟨.department department.id, some ⟨department.tenantId, department.name,
    department.parentId, department.leaderUserId, department.email, department.phone,
    department.status, department.sort, department.version⟩⟩])

/-- `TenantDepartmentRepository.Create`. -/
def createDepartment : Tx Unit := modify (insertion collation department)

/-- What an update of a department at a version writes, and whether it meets the row. -/
def writing (expectedVersion : Nat) (db : Db) : Except Failure (Bool × List Write) :=
  let key := stored collation db department.id
  let looked := department? collation db department.tenantId key
  match looked.filter fun row => row.version = expectedVersion with
  | none => .ok (false, [])
  | some row => do
    require .departmentExists (nameFree collation db department.tenantId key department.name = true)
    return (true, [⟨.department key, some { row with
      name := department.name
      parentId := department.parentId
      leaderUserId := department.leaderUserId
      email := department.email
      phone := department.phone
      status := department.status
      sort := department.sort
      version := row.version + 1 }⟩])

/-- `classifyWrite`: which refusal it is when an update meets no row. -/
def classifyWrite (tenant id : String) : Tx Unit := do
  let known ← read fun db => .ok (department? collation db tenant (stored collation db id)).isSome
  demand .departmentNotFound (known = true)
  lift (.error .departmentConflict)

/-- `TenantDepartmentRepository.Update`. -/
def updateDepartment (expectedVersion : Nat) : Tx Unit := do
  let met ← modify (writing collation department expectedVersion)
  whenever (met = false) (classifyWrite collation department.tenantId department.id)

/-! ## The service -/

variable (principal : Principal)

/-- `CreateTenantDepartment`; the identifier is drawn by the service. -/
def createTenantDepartment (id : String) (details : Details) : Tx Unit := do
  demand .invalidDepartmentRequest (trimSpace details.name ≠ "")
  let tenant ← lift (trustedTenantId principal)
  read fun db => do
    validateParent collation db tenant id details.parentId
    validateLeader collation db tenant details.leaderUserId
  let department ← lift (newDepartment lower id tenant details)
  createDepartment collation department

/-- `mutate`, where the change may read the tables. -/
def mutateDepartment (id : String) (version : Nat)
    (change : Db → Department → Except Failure Department) : Tx Unit := do
  let tenant ← lift (trustedTenantId principal)
  let changed ← read fun db => do
    let current ← getDepartment collation db tenant (trimSpace id)
    require .departmentConflict (current.version = version)
    change db current
  updateDepartment collation changed version

def updateTenantDepartment (id : String) (version : Nat) (details : Details) : Tx Unit := do
  demand .invalidDepartmentRequest (trimSpace id ≠ "" ∧ trimSpace details.name ≠ "" ∧ version ≠ 0)
  mutateDepartment collation principal id version fun db department => do
    validateParent collation db department.tenantId department.id details.parentId
    validateLeader collation db department.tenantId details.leaderUserId
    department.update lower details

def enableTenantDepartment (id : String) (version : Nat) : Tx Unit := do
  demand .invalidDepartmentRequest (trimSpace id ≠ "" ∧ version ≠ 0)
  mutateDepartment collation principal id version fun _ department => department.enable

def disableTenantDepartment (id : String) (version : Nat) : Tx Unit := do
  demand .invalidDepartmentRequest (trimSpace id ≠ "" ∧ version ≠ 0)
  mutateDepartment collation principal id version fun _ department => department.disable

/-- The requests of the service. -/
inductive DepartmentOp
  | create (principal : Principal) (id : String) (details : Details)
  | update (principal : Principal) (id : String) (version : Nat) (details : Details)
  | enable (principal : Principal) (id : String) (version : Nat)
  | disable (principal : Principal) (id : String) (version : Nat)

/-- The transaction of each request. -/
def departmentProgram : DepartmentOp → Tx Unit
  | .create principal id details => createTenantDepartment lower collation principal id details
  | .update principal id version details =>
    updateTenantDepartment lower collation principal id version details
  | .enable principal id version => enableTenantDepartment collation principal id version
  | .disable principal id version => disableTenantDepartment collation principal id version

/-! ## What the calls return -/

section Returns

variable {lower collation : String → String} {department before after : Department}

/-- An update keeps who the department is and puts it under the requested parent. -/
theorem Department.update_ok {details : Details}
    (passed : before.update lower details = .ok after) :
    after.id = before.id ∧ after.tenantId = before.tenantId ∧
      after.parentId = trimSpace details.parentId := by
  obtain ⟨_, _, rest⟩ := bind_ok.mp passed
  obtain ⟨_, _, returned⟩ := bind_ok.mp rest
  cases returned
  exact ⟨rfl, rfl, rfl⟩

/-- Enabling and disabling change the status only. -/
theorem Department.enable_ok (passed : before.enable = .ok after) :
    { before with status := .active } = after :=
  let ⟨_, _, returned⟩ := bind_ok.mp passed
  Except.ok.inj returned

@[inherit_doc Department.enable_ok]
theorem Department.disable_ok (passed : before.disable = .ok after) :
    { before with status := .disabled } = after :=
  let ⟨_, _, returned⟩ := bind_ok.mp passed
  Except.ok.inj returned

/-- A new department is named by the request. -/
theorem newDepartment_ok {id tenantId : String} {details : Details}
    (made : newDepartment lower id tenantId details = .ok department) :
    department.id = trimSpace id ∧ department.tenantId = trimSpace tenantId ∧
      department.parentId = trimSpace details.parentId := by
  obtain ⟨_, detailed, rest⟩ := bind_ok.mp made
  obtain ⟨_, _, returned⟩ := bind_ok.mp rest
  cases returned
  exact Department.update_ok detailed

/-- A department is found under its own spelling. -/
theorem stored_of_mem {id : String} (known : Key.department id ∈ db) :
    stored collation db id = id := if_pos known

/-- An insert writes one row, under an identifier that is not stored. -/
theorem insertion_ok {writes : List Write}
    (inserted : insertion collation department db = .ok ((), writes)) :
    .department department.id ∉ db ∧ ∃ next : DepartmentRecord,
      next.tenantId = department.tenantId ∧ next.parentId = department.parentId ∧
        writes = [⟨.department department.id, some next⟩] := by
  obtain ⟨_, free, returned⟩ := bind_ok.mp inserted
  cases returned
  refine ⟨fun known => (require_ok.mp free).1 ?_, _, rfl, rfl, rfl⟩
  rwa [stored_of_mem known]

/-- An update that meets a row of the version replaces it and keeps its tenant. -/
theorem writing_ok {version : Nat} {writes : List Write}
    (written : writing collation department version db = .ok (true, writes)) :
    ∃ row next : DepartmentRecord,
      writes = [⟨.department (stored collation db department.id), some next⟩] ∧
      department? collation db department.tenantId (stored collation db department.id) = some row ∧
      row.version = version ∧
      next.tenantId = row.tenantId ∧ row.version < next.version ∧
      next.parentId = department.parentId := by
  dsimp only [writing] at written
  split at written
  · cases written
  · rename_i row met
    obtain ⟨looked, sameVersion⟩ := Option.filter_eq_some_iff.mp met
    obtain ⟨_, _, returned⟩ := bind_ok.mp written
    cases returned
    exact ⟨row, _, rfl, looked, of_decide_eq_true sameVersion, rfl, Nat.lt_succ_self _, rfl⟩

end Returns

/-! ## The hierarchy -/

/-- The link of each department of the tenant to its parent. -/
def links (db : Db) (tenant : String) : Links String := fun id =>
  (department? collation db tenant id).map fun row =>
    if row.parentId = "" then none else some row.parentId

/-- The link that the database gives for an identifier. -/
def reads (db : Db) (tenant : String) : Links String :=
  fun id => links collation db tenant (stored collation db id)

/-- The snapshot of a transaction spells an identifier like the request. -/
def Spelled (standing : Standing Row) (id : String) : Prop :=
  ∀ snapshot ∈ standing.snapshot, stored collation snapshot (trimSpace id) = trimSpace id

/-- The departments of the snapshot of a transaction have the parents they have there. -/
def Unmoved (tenant : String) (standing : Standing Row) (committed : Db) : Prop :=
  ∀ snapshot ∈ standing.snapshot, ∀ id ∈ departments snapshot,
    (links collation snapshot tenant id).isSome = true →
      links collation committed tenant id = links collation snapshot tenant id

/-- When they are committed, a new parent is spelled as it is stored, and so is a department
that moves, and the departments that a move has seen are unmoved. -/
def DepartmentOp.Current (op : DepartmentOp) (kind : Code.Kind) (standing : Standing Row)
    (committed : Db) : Prop :=
  match op, kind with
  | .create _ _ details, .commit => Spelled collation standing details.parentId
  | .update principal id _ details, .commit =>
    trimSpace details.parentId ≠ "" →
      Spelled collation standing id ∧ Spelled collation standing details.parentId ∧
        Unmoved collation (trimSpace principal.tenantId) standing committed
  | _, _ => True

/-- Tenants that compare equal have the same departments. -/
theorem links_congr {collation : String → String} {first second : String}
    (same : collation first = collation second) :
    links collation db first = links collation db second := by
  funext id
  rw [links, links, department?, department?, same]

section Walk

variable {collation : String → String} {db : Db} {tenant department current : String}
  {visited path : List String}

omit lower in
theorem mem_departments {id : String} : id ∈ departments db ↔ Key.department id ∈ db :=
  mem_select Key.department fun key value => by
    cases key <;> grind

omit lower in
theorem mem_departments_of_linked {id : String}
    (linked : (links collation db tenant id).isSome = true) : id ∈ departments db := by
  rw [links, Option.isSome_map] at linked
  obtain ⟨_, looked⟩ := Option.isSome_iff_exists.mp linked
  exact mem_departments.mpr
    (AList.lookup_isSome.mp (Option.isSome_of_eq_some (department?_eq_some.mp looked).1))

/-- What one step of the walk checks, and where it goes on. -/
theorem pass_iff {parent : String} :
    pass collation db tenant department visited current = .ok parent ↔
      (current ∉ visited ∧ current ≠ department) ∧
        ∃ row, department? collation db tenant (stored collation db current) = some row ∧
          row.status = .active ∧ row.parentId = parent := by
  simp [pass, -bind_pure_comp]

/-- A walk is accepted exactly if its fuel is enough for the way up, which passes active
departments only that it has not visited and that do not move. -/
theorem climb_iff {fuel : Nat} :
    climb collation db tenant department fuel visited current = .ok () ↔ current = "" ∨
      ∃ path, Rises (reads collation db tenant) current path ∧ path.length ≤ fuel ∧
        ∀ id ∈ path, (id ∉ visited ∧ id ≠ department) ∧
          ∀ row ∈ department? collation db tenant (stored collation db id),
            row.status = .active := by
  induction fuel generalizing visited current with
  | zero =>
    rw [climb, require_ok]
    refine ⟨.inl, ?_⟩
    rintro (top | ⟨path, rises, short, _⟩)
    · exact top
    · rw [List.length_eq_zero_iff.mp (Nat.le_zero.mp short)] at rises
      cases rises
  | succ fuel ih =>
    rw [climb]
    split
    · simp [*]
    rename_i below
    simp only [bind_ok, pass_iff, ih, below, false_or]
    constructor
    · rintro ⟨_, ⟨fresh, row, looked, active, rfl⟩, rest⟩
      have here : ∀ other ∈ department? collation db tenant (stored collation db current),
          other.status = .active := by
        simp [looked, active]
      by_cases top : row.parentId = ""
      · exact ⟨[current], .root (by simp [reads, links, looked, top]), by simp,
          by simpa using ⟨fresh, here⟩⟩
      · obtain ⟨path, rises, short, clear⟩ := rest.resolve_left top
        refine ⟨current :: path, .up (by simp [reads, links, looked, top]) rises,
          by simpa using short, ?_⟩
        intro id passed
        rcases List.mem_cons.mp passed with rfl | later
        · exact ⟨fresh, here⟩
        · obtain ⟨⟨unvisited, other⟩, active⟩ := clear id later
          exact ⟨⟨fun seen => unvisited (.tail _ seen), other⟩, active⟩
    · rintro ⟨path, rises, short, clear⟩
      obtain ⟨fresh, active⟩ := clear current rises.head
      obtain ⟨row, looked⟩ := Option.isSome_iff_exists.mp
        (Option.isSome_map ▸ rises.linked current rises.head)
      refine ⟨row.parentId, ⟨fresh, row, looked, active row looked, rfl⟩, ?_⟩
      -- The way up passes no department twice, so the rest is new to the walk.
      have distinct := rises.nodup
      cases rises with
      | root found =>
        simp [reads, links, looked] at found
        exact .inl found
      | @up _ above path found rest =>
        simp [reads, links, looked] at found
        obtain ⟨_, rfl⟩ := found
        refine .inr ⟨path, rest, Nat.le_of_succ_le_succ short, fun id passed => ?_⟩
        obtain ⟨⟨unvisited, other⟩, active⟩ := clear id (.tail _ passed)
        refine ⟨⟨fun seen => ?_, other⟩, active⟩
        rcases List.mem_cons.mp seen with rfl | earlier
        · exact (List.nodup_cons.mp distinct).1 passed
        · exact unvisited earlier

/-- A department can be put under a parent exactly if the way up from there, as the database
finds it, ends at a root and passes active departments only and no identifier that is
spelled like the department that moves. The fuel is enough for every such way. -/
theorem validateParent_iff {departmentId parentId : String} :
    validateParent collation db tenant departmentId parentId = .ok () ↔ trimSpace parentId = "" ∨
      ∃ path, Rises (reads collation db tenant) (trimSpace parentId) path ∧
        trimSpace departmentId ∉ path ∧
        ∀ id ∈ path, ∀ row ∈ department? collation db tenant (stored collation db id),
          row.status = .active := by
  unfold validateParent
  split
  · simp [*]
  rename_i below
  simp only [bind_ok, require_ok, climb_iff, below, false_or, exists_const]
  constructor
  · rintro ⟨_, path, rises, _, clear⟩
    exact ⟨path, rises, fun passed => (clear _ passed).1.2 rfl,
      fun id passed => (clear id passed).2⟩
  · rintro ⟨path, rises, apart, active⟩
    have inside : path.map (stored collation db) ⊆ departments db := by
      intro key listed
      obtain ⟨id, passed, rfl⟩ := List.mem_map.mp listed
      exact mem_departments_of_linked (rises.linked id passed)
    -- Identifiers that the database finds under one key have one link.
    have distinct : (path.map (stored collation db)).Nodup := by
      apply List.Nodup.of_map (links collation db tenant)
      rw [List.map_map]
      exact rises.nodup_links
    have short := (List.subperm_of_subset distinct inside).length_le
    rw [List.length_map] at short
    have short := short.trans (List.length_filterMap_le _ _)
    refine ⟨fun same => apart (same ▸ rises.head), path, rises, short, fun id passed => ?_⟩
    refine ⟨⟨List.not_mem_nil, ?_⟩, active id passed⟩
    rintro rfl
    exact apart passed

/-- A department that is not spelled as it is stored passes for a parent of itself. -/
example : (validateParent ignoreCase (AList.singleton (.department "a")
    ⟨"t", "A", "", "", "", "", .active, 0, 1⟩) "t" "a" "A").isOk = true := by
  decide +kernel

/-- In a forest the parents are spelled as they are stored, and so is every way up from an
identifier that is. -/
theorem rises_links (forest : Forest (links collation db tenant))
    (rises : Rises (reads collation db tenant) current path)
    (spelled : stored collation db current = current) :
    Rises (links collation db tenant) current path := by
  induction rises with
  | root found =>
    rw [reads, spelled] at found
    exact .root found
  | up found _ ih =>
    rw [reads, spelled] at found
    refine .up found (ih (stored_of_mem ?_))
    obtain ⟨_, way⟩ := forest _ (Option.isSome_of_eq_some found)
    cases way with
    | root again => cases found.symm.trans again
    | up again rest =>
      cases found.symm.trans again
      exact mem_departments.mp (mem_departments_of_linked (rest.linked _ rest.head))

/-- A parent that is accepted has a way up that does not pass the department. -/
theorem validateParent_ok {departmentId parentId : String}
    (forest : Forest (links collation db tenant))
    (spelled : stored collation db (trimSpace parentId) = trimSpace parentId)
    (passed : validateParent collation db tenant departmentId parentId = .ok ()) :
    trimSpace parentId = "" ∨ ∃ path, Rises (links collation db tenant) (trimSpace parentId) path ∧
      trimSpace departmentId ∉ path := by
  unfold validateParent at passed
  split at passed
  · exact .inl ‹_›
  · obtain ⟨_, _, rest⟩ := bind_ok.mp passed
    refine (climb_iff.mp rest).imp_right ?_
    rintro ⟨path, rises, _, clear⟩
    exact ⟨path, rises_links forest rises spelled, fun same => (clear _ same).1.2 rfl⟩

end Walk

/-! ## Interleavings -/

/-- How the departments develop: none is deleted or leaves its tenant, and each change
gives it a later version. -/
def Develops (before after : Db) : Prop :=
  ∀ id row, before.lookup (.department id) = some row →
    ∃ next, after.lookup (.department id) = some next ∧ next.tenantId = row.tenantId ∧
      (row.version < next.version ∨ next = row)

/-- What a transaction promises to the others. -/
def DepartmentPromise (tenant : String) (_ : DepartmentOp) (_ : List Key) (before after : Db) :
    Prop :=
  Develops before after ∧
    (Forest (links collation before tenant) → Forest (links collation after tenant))

/-- Before a department is written: the snapshot is behind the committed rows. -/
structure Reading (tenant : String) (snapshot : Db) (standing : Standing Row) (committed : Db) :
    Prop where
  unwritten : standing.writes = []
  opened : standing.snapshot = some snapshot
  develops : Develops snapshot committed
  forest : Forest (links collation committed tenant)

/-- One department is written over the row it had. -/
structure Writing (tenant : String) (snapshot : Db) (id : String) (before : Option DepartmentRecord)
    (next : DepartmentRecord) (standing : Standing Row) (committed : Db) : Prop where
  written : standing.writes = [⟨.department id, some next⟩]
  held : .department id ∈ standing.held
  found : committed.lookup (.department id) = before
  opened : standing.snapshot = some snapshot
  develops : Develops snapshot committed
  forest : Forest (links collation committed tenant)

section Steps

variable {lower collation : String → String} {tenant id : String} {assumes : Assumption Row}
  {first second third snapshot committed : Db} {standing : Standing Row} {principal : Principal}
  {op : DepartmentOp} {next : DepartmentRecord} {before : Option DepartmentRecord}

theorem develops_refl (db : Db) : Develops db db :=
  fun _ row looked => ⟨row, looked, rfl, .inr rfl⟩

/-- Departments develop step by step. -/
theorem Develops.trans (early : Develops first second) (late : Develops second third) :
    Develops first third := by
  intro id row looked
  obtain ⟨middle, middleFound, sameTenant, earlier⟩ := early id row looked
  obtain ⟨last, lastFound, again, later⟩ := late id middle middleFound
  refine ⟨last, lastFound, again.trans sameTenant, ?_⟩
  rcases later with newer | rfl
  · rcases earlier with older | rfl
    · exact .inl (older.trans newer)
    · exact .inl newer
  · exact earlier

/-- The other transactions let departments develop. -/
theorem develops_rely {held : List Key}
    (rely : Rely (DepartmentPromise collation tenant) held first second) :
    Develops first second :=
  rely.induct Develops develops_refl Develops.trans fun _ _ promised => promised.1

/-- The other transactions keep the forest. -/
theorem forest_rely {held : List Key}
    (rely : Rely (DepartmentPromise collation tenant) held first second)
    (forest : Forest (links collation first tenant)) : Forest (links collation second tenant) :=
  rely.invariant (fun _ _ _ _ forest promised => promised.2 forest) forest

/-- Nothing the others do invalidates what was read. -/
theorem reading_steady :
    Steady (DepartmentPromise collation tenant) (Reading collation tenant snapshot) where
  rely := fun reading rely => ⟨reading.unwritten, reading.opened,
    reading.develops.trans (develops_rely rely), forest_rely rely reading.forest⟩
  opened := fun reading => ⟨reading.unwritten, by rw [Standing.opened, reading.opened]; rfl,
    reading.develops, reading.forest⟩
  locked := fun _ reading => ⟨List.append_eq_nil_iff.mpr ⟨reading.unwritten, rfl⟩,
    reading.opened, reading.develops, reading.forest⟩

/-- Nothing the others do invalidates a write of a locked row. -/
theorem Writing.rely {now : Db}
    (writing : Writing collation tenant snapshot id before next standing committed)
    (rely : Rely (DepartmentPromise collation tenant) standing.held committed now) :
    Writing collation tenant snapshot id before next standing now :=
  ⟨writing.written, writing.held, (rely.lookup writing.held).trans writing.found, writing.opened,
    writing.develops.trans (develops_rely rely), forest_rely rely writing.forest⟩

/-- A write after the reads. -/
theorem Reading.writing (reading : Reading collation tenant snapshot standing committed)
    (found : committed.lookup (.department id) = before) :
    Writing collation tenant snapshot id before next
      (standing.extend [] [⟨.department id, some next⟩]) committed where
  written := by simp [Standing.extend, reading.unwritten]
  held := by simp [Standing.extend]
  found := found
  opened := reading.opened
  develops := reading.develops
  forest := reading.forest

/-- A write of one department leaves the links of the others. -/
theorem links_other {other : String} (different : other ≠ id) :
    links collation (overlay first [⟨.department id, some next⟩]) tenant other =
      links collation first tenant other := by
  rw [links, links, department?, department?, lookup_overlay_one_of_ne]
  exact fun same => different (by injection same)

/-- A write that keeps the link of its department keeps the forest. -/
theorem forest_unchanged (forest : Forest (links collation first tenant))
    (same : links collation (overlay first [⟨.department id, some next⟩]) tenant id =
      links collation first tenant id) :
    Forest (links collation (overlay first [⟨.department id, some next⟩]) tenant) := by
  apply forest.congr
  intro other
  by_cases itself : other = id
  · rw [itself, same]
  · exact links_other itself

/-- The link that is written is that of the new parent. -/
theorem links_itself (here : collation next.tenantId = collation tenant) :
    links collation (overlay first [⟨.department id, some next⟩]) tenant id =
      some (if next.parentId = "" then none else some next.parentId) := by
  have looked : (overlay first [⟨.department id, some next⟩]).lookup (.department id) = some next :=
    lookup_overlay_one _ _
  rw [links, department?_eq_some.mpr ⟨looked, here⟩, Option.map_some]

/-- A department of another tenant is none of this one. -/
theorem links_foreign (foreign : collation next.tenantId ≠ collation tenant)
    (before : ∀ row, first.lookup (.department id) = some row →
      collation row.tenantId ≠ collation tenant) :
    links collation (overlay first [⟨.department id, some next⟩]) tenant id =
      links collation first tenant id := by
  have looked : (overlay first [⟨.department id, some next⟩]).lookup (.department id) = some next :=
    lookup_overlay_one _ _
  have now :
      department? collation (overlay first [⟨.department id, some next⟩]) tenant id = none := by
    rw [department?, looked]
    simp [foreign]
  have earlier : department? collation first tenant id = none := by
    rw [department?, Option.filter_eq_none_iff]
    intro row found
    simpa using before row found
  rw [links, links, now, earlier]

/-- A department that is written with a later version and with a parent whose way up does
not pass it. -/
theorem Writing.settles
    (writing : Writing collation tenant snapshot id before next standing committed)
    (newer : ∀ row ∈ before, next.tenantId = row.tenantId ∧ row.version < next.version)
    (rooted : collation next.tenantId = collation tenant → ∀ now, assumes .commit standing now →
      Writing collation tenant snapshot id before next standing now →
      (∃ row ∈ before, row.parentId = next.parentId) ∨ next.parentId = "" ∨
        ∃ path, Rises (links collation now tenant) next.parentId path ∧ id ∉ path) :
    Settles (DepartmentPromise collation tenant) assumes op standing committed := by
  intro now rely assumed
  have writing := writing.rely rely
  rw [Standing.currentView, writing.written]
  constructor
  · intro other row looked
    by_cases same : other = id
    · subst same
      have old : row ∈ before := writing.found.symm.trans looked
      obtain ⟨sameTenant, later⟩ := newer row old
      exact ⟨next, lookup_overlay_one _ _, sameTenant, .inl later⟩
    · refine ⟨row, ?_, rfl, .inr rfl⟩
      rw [lookup_overlay_one_of_ne, looked]
      exact fun reached => same (by injection reached)
  · intro forest
    by_cases here : collation next.tenantId = collation tenant
    · have link : links collation (overlay now [⟨.department id, some next⟩]) tenant id =
          some (if next.parentId = "" then none else some next.parentId) := links_itself here
      rcases rooted here now assumed writing with ⟨row, old, same⟩ | way
      · apply forest_unchanged forest
        have looked : department? collation now tenant id = some row :=
          department?_eq_some.mpr ⟨writing.found.trans old, (newer row old).1 ▸ here⟩
        rw [link, links, looked, Option.map_some, same]
      · by_cases top : next.parentId = ""
        · rw [if_pos top] at link
          exact forest.relink (fun other different => links_other different) (.root link)
        · rw [if_neg top] at link
          obtain ⟨path, rises, apart⟩ := way.resolve_left top
          have above : Rises (links collation (overlay now [⟨.department id, some next⟩]) tenant)
              next.parentId path := by
            apply rises.congr
            intro other passed
            apply links_other
            rintro rfl
            exact apart passed
          exact forest.relink (fun other different => links_other different) (.up link above)
    · apply forest_unchanged forest
      apply links_foreign here
      intro row looked
      rw [← (newer row (writing.found.symm.trans looked)).1]
      exact here

/-- No department leaves the hierarchy. -/
theorem linked_of_develops (develops : Develops first second)
    (linked : (links collation first tenant id).isSome = true) :
    (links collation second tenant id).isSome = true := by
  rw [links, Option.isSome_map] at linked ⊢
  obtain ⟨row, looked⟩ := Option.isSome_iff_exists.mp linked
  obtain ⟨found, here⟩ := department?_eq_some.mp looked
  obtain ⟨_, nextFound, sameTenant, _⟩ := develops id row found
  exact Option.isSome_of_eq_some (department?_eq_some.mpr ⟨nextFound, sameTenant ▸ here⟩)

/-- The first read of a transaction sees a forest. -/
theorem wp_firstRead {β γ : Type} {post : γ → Assertion Row}
    {f : Db → Except Failure β} {rest : β → Tx γ}
    (forest : Forest (links collation committed tenant))
    (holds : ∀ snapshot value standing, f snapshot = .ok value →
      Reading collation tenant snapshot standing snapshot →
      wp (DepartmentPromise collation tenant) assumes post (rest value) standing snapshot) :
    wp (DepartmentPromise collation tenant) assumes post (read f >>= rest) .fresh committed := by
  apply wp_read
  intro now rely _ value seen
  exact holds now value _ seen ⟨rfl, rfl, develops_refl now, forest_rely rely forest⟩

/-- A department that is created is no department before, so that no way up passes it. -/
theorem settles_create {details : Details} (forest : Forest (links collation committed tenant)) :
    Ends (DepartmentPromise collation tenant)
      ((DepartmentOp.create principal id details).Current collation) op
      (createTenantDepartment lower collation principal id details) .fresh committed := by
  apply wp_require
  intro _
  apply wp_lift
  intro place trusted
  apply wp_firstRead forest
  intro snapshot _ standing checked reading
  have start := reading.forest
  obtain ⟨_, parentChecked, _⟩ := bind_ok.mp checked
  apply wp_lift
  intro department made
  obtain ⟨_, inTenant, under⟩ := newDepartment_ok made
  apply wp_modify_last
  intro now rely _ _ writes inserted
  have reading := Steady.rely reading_steady reading rely
  rw [Standing.currentView, reading.unwritten, overlay_nil] at inserted
  obtain ⟨absent, _, sameTenant, sameParent, rfl⟩ := insertion_ok inserted
  apply (reading.writing (AList.lookup_eq_none.mpr absent)).settles
  case newer => exact fun _ old => nomatch old
  case rooted =>
    intro here later assumed writing
    right
    rw [sameParent, under]
    have inPlace : collation place = collation tenant := by
      rw [← here, sameTenant, inTenant, trustedTenantId_ok trusted, trimSpace_trimSpace]
    rw [← links_congr inPlace] at start
    apply (validateParent_ok start (assumed _ writing.opened) parentChecked).imp_right
    rintro ⟨_, rises, _⟩
    rw [links_congr inPlace] at rises
    obtain ⟨way, rises⟩ := writing.forest (trimSpace details.parentId)
      (linked_of_develops writing.develops (rises.linked _ rises.head))
    refine ⟨way, rises, fun passed => ?_⟩
    have known := rises.linked _ passed
    rw [links, department?, writing.found] at known
    cases known

/-- A department that is read is a stored row of the tenant. -/
theorem getDepartment_ok {place : String} {department : Department}
    (got : getDepartment collation db place id = .ok department) :
    ∃ row,
      department? collation db (trimSpace place) (stored collation db (trimSpace id)) = some row ∧
      department = departmentFromRecord (stored collation db (trimSpace id)) row := by
  obtain ⟨row, looked, returned⟩ := bind_ok.mp got
  cases returned
  exact ⟨row, found_ok.mp looked, rfl⟩

/-- A change of a department that is still the one that was read. -/
theorem settles_mutate {version : Nat} {change : Db → Department → Except Failure Department}
    (forest : Forest (links collation committed tenant))
    (itself : ∀ db before after, change db before = .ok after →
      after.id = before.id ∧ after.tenantId = before.tenantId)
    (rooted : ∀ snapshot before after, change snapshot before = .ok after →
      Forest (links collation snapshot tenant) → collation before.tenantId = collation tenant →
      collation before.tenantId = collation (trimSpace principal.tenantId) →
      before.id = stored collation snapshot (trimSpace id) →
      ∀ standing now, assumes .commit standing now →
      standing.snapshot = some snapshot → after.parentId = before.parentId ∨ after.parentId = "" ∨
        ∃ path, Rises (links collation now tenant) after.parentId path ∧ before.id ∉ path) :
    Ends (DepartmentPromise collation tenant) assumes op
      (mutateDepartment collation principal id version change) .fresh committed := by
  apply wp_lift
  intro place trusted
  apply wp_firstRead forest
  intro snapshot department standing seen reading
  have start := reading.forest
  obtain ⟨_, got, rest⟩ := bind_ok.mp seen
  obtain ⟨_, versionChecked, changed⟩ := bind_ok.mp rest
  have sameVersion := require_ok.mp versionChecked
  obtain ⟨old, looked, rfl⟩ := getDepartment_ok got
  obtain ⟨sameId, _⟩ := itself _ _ _ changed
  obtain ⟨oldFound, oldPlace⟩ := department?_eq_some.mp looked
  rw [updateDepartment, wp_bind]
  apply wp_modify_last
  intro now rely _ met writes written
  have reading := Steady.rely reading_steady reading rely
  rw [Standing.currentView, reading.unwritten, overlay_nil] at written
  cases met with
  | false =>
    unfold whenever Code.whenever
    apply wp_read
    intro later _ _ known _
    apply wp_require
    intro _
    exact wp_lift_last fun _ passed => nomatch passed
  | true =>
    obtain ⟨row, _, wrote, rowLooked, rowVersion, nextTenant, newer, nextParent⟩ :=
      writing_ok written
    obtain ⟨same, found, _, develops⟩ := reading.develops _ old oldFound
    have located : stored collation now department.id =
        stored collation snapshot (trimSpace (trimSpace id)) := by
      rw [sameId]
      exact stored_of_mem (AList.lookup_isSome.mp (Option.isSome_of_eq_some found))
    rw [located] at wrote rowLooked
    subst wrote
    obtain ⟨rowFound, _⟩ := department?_eq_some.mp rowLooked
    have unchanged : row = old := by
      cases rowFound.symm.trans found
      apply develops.resolve_left
      rw [rowVersion]
      exact fun later => absurd sameVersion (Nat.ne_of_lt later)
    subst unchanged
    unfold whenever Code.whenever
    apply wp_pure
    apply (reading.writing rowFound).settles
    case newer =>
      intro other same
      cases same
      exact ⟨nextTenant, newer⟩
    case rooted =>
      intro here later assumed writing
      rw [nextParent]
      have inPlace : collation row.tenantId = collation (trimSpace principal.tenantId) := by
        rw [oldPlace, trustedTenantId_ok trusted, trimSpace_trimSpace]
      rw [nextTenant] at here
      have known := congrArg (stored collation snapshot) (trimSpace_trimSpace id)
      rcases rooted snapshot _ _ changed start here inPlace known _ later assumed
        writing.opened with same | way
      · exact .inl ⟨row, rfl, same.symm⟩
      · exact .inr way

/-- A move keeps the forest if the parents it has read are the committed ones. -/
theorem settles_update {version : Nat} {details : Details}
    (forest : Forest (links collation committed tenant)) :
    Ends (DepartmentPromise collation tenant)
      ((DepartmentOp.update principal id version details).Current collation) op
      (updateTenantDepartment lower collation principal id version details) .fresh committed := by
  apply wp_require
  intro _
  apply settles_mutate forest
  · intro db before after changed
    obtain ⟨_, _, rest⟩ := bind_ok.mp changed
    obtain ⟨_, _, updated⟩ := bind_ok.mp rest
    obtain ⟨sameId, sameTenant, _⟩ := Department.update_ok updated
    exact ⟨sameId, sameTenant⟩
  · intro snapshot before after changed forest here inPlace known standing now assumed opened
    obtain ⟨_, parentChecked, rest⟩ := bind_ok.mp changed
    obtain ⟨_, _, updated⟩ := bind_ok.mp rest
    obtain ⟨_, _, under⟩ := Department.update_ok updated
    right
    rw [under]
    by_cases top : trimSpace details.parentId = ""
    · exact .inl top
    obtain ⟨itself, spelled, current⟩ := assumed top
    rw [← links_congr here] at forest ⊢
    apply (validateParent_ok forest (spelled _ opened) parentChecked).imp_right
    rintro ⟨path, rises, apart⟩
    rw [known, itself _ opened, trimSpace_trimSpace] at apart
    rw [known, itself _ opened]
    refine ⟨path, rises.congr fun other passed => ?_, apart⟩
    have linked := rises.linked other passed
    have same := current snapshot opened other (mem_departments_of_linked linked)
    rw [← links_congr inPlace, ← links_congr inPlace] at same
    exact same linked

end Steps

/-- Every request keeps its promise. -/
theorem settles_of_department {tenant : String} {committed : Db} (op : DepartmentOp)
    (forest : Forest (links collation committed tenant)) :
    Ends (DepartmentPromise collation tenant) (op.Current collation) op
      (departmentProgram lower collation op) .fresh committed := by
  cases op with
  | create principal id details => exact settles_create forest
  | update principal id version details => exact settles_update forest
  | enable principal id version =>
    apply wp_require
    intro _
    apply settles_mutate forest
    · intro _ _ _ changed
      cases Department.enable_ok changed
      exact ⟨rfl, rfl⟩
    · intro _ _ _ changed
      cases Department.enable_ok changed
      exact fun _ _ _ _ _ _ _ _ => .inl rfl
  | disable principal id version =>
    apply wp_require
    intro _
    apply settles_mutate forest
    · intro _ _ _ changed
      cases Department.disable_ok changed
      exact ⟨rfl, rfl⟩
    · intro _ _ _ changed
      cases Department.disable_ok changed
      exact fun _ _ _ _ _ _ _ _ => .inl rfl

abbrev DepartmentSystem := Isolation.System Row Failure Unit DepartmentOp

abbrev DepartmentEvent := Isolation.Event DepartmentOp

/-- The steps of department transactions in any interleaving. -/
abbrev DepartmentSteps : DepartmentSystem → DepartmentEvent → DepartmentSystem → Prop :=
  Isolation.Steps (departmentProgram lower collation)

/-- However creations, moves and changes of status interleave, the way up from every
department of the tenant passes no department twice and ends at a root of the tenant, if
requests spell parents as they are stored and every move finds the parents of its snapshot
still there when it is committed. -/
theorem departments_stay_forest {lower collation : String → String} {tenant : String} {start : Db}
    (forest : Forest (links collation start tenant)) {events : List DepartmentEvent}
    {last : DepartmentSystem}
    (run : Run (Guarded (DepartmentSteps lower collation)
      (Condition (fun _ => True) (DepartmentOp.Current collation))) (quiet start) events
      last) :
    ∀ id row, department? collation last.committed tenant id = some row →
      ∃ path, path.Nodup ∧ Rises (links collation last.committed tenant) id path := by
  have sound : Forest (links collation last.committed tenant) := by
    refine (sound_of_run ?_
      (fun op _ committed forest => settles_of_department lower collation op forest)
      run (sound_quiet forest)).invariant
    exact fun _ _ _ _ forest promised => promised.2 forest
  intro id row looked
  have linked : (links collation last.committed tenant id).isSome = true := by
    rw [links, looked]
    rfl
  obtain ⟨path, rises⟩ := sound id linked
  exact ⟨path, rises.nodup, rises⟩

section Sample

def organizer : Principal := ⟨"t", "a", ["owner"], true⟩

def named (name parent : String) : Details := ⟨name, parent, "", "", "", 0⟩

/-- Two departments without a parent. -/
def twoRoots : Db :=
  ((AList.singleton (Key.department "a")
    (DepartmentRecord.mk "t" "A" "" "" "" "" .active 0 1)).insert
    (.department "b") ⟨"t", "B", "", "", "", "", .active, 0, 1⟩ : AList Row)

/-- Each department is moved under the other, and both moves read before one commits. -/
def crossedMoves : List DepartmentEvent :=
  [.start 0 (.update organizer "a" 1 (named "A" "b")),
    .start 1 (.update organizer "b" 1 (named "B" "a")),
    .advance 0, .advance 1, .advance 0, .advance 1, .advance 0, .advance 1]

/-- The second move reads after the first is committed, and is refused. -/
def orderedMoves : List DepartmentEvent :=
  [.start 0 (.update organizer "a" 1 (named "A" "b")), .advance 0, .advance 0, .advance 0,
    .start 1 (.update organizer "b" 1 (named "B" "a")), .advance 1, .advance 1]

instance (standing : Standing Row) (id : String) : Decidable (Spelled collation standing id) :=
  inferInstanceAs (Decidable (∀ snapshot ∈ standing.snapshot, _))

instance (tenant : String) (standing : Standing Row) (committed : Db) :
    Decidable (Unmoved collation tenant standing committed) :=
  inferInstanceAs (Decidable (∀ snapshot ∈ standing.snapshot, ∀ id ∈ departments snapshot, _))

instance (op : DepartmentOp) (kind : Code.Kind) (standing : Standing Row)
    (committed : Db) : Decidable (op.Current collation kind standing committed) := by
  unfold DepartmentOp.Current
  split <;> infer_instance

theorem twoRoots_ready :
    departments twoRoots = ["b", "a"] ∧ links ignoreCase twoRoots "t" "a" = some none ∧
    links ignoreCase twoRoots "t" "b" = some none ∧
    (crossedMoves.foldlM (step (departmentProgram id ignoreCase))
      (quiet twoRoots)).any
      (fun last => links ignoreCase last.committed "t" "a" = some (some "b") &&
        links ignoreCase last.committed "t" "b" = some (some "a")) = true ∧
    (orderedMoves.foldlM (fun system event =>
      if Condition (fun _ => True) (DepartmentOp.Current ignoreCase) system event
      then step (departmentProgram id ignoreCase) system event else none)
      (quiet twoRoots)).any
      (fun last => (department? ignoreCase last.committed "t" "a").any
        fun row => row.parentId = "b") = true := by
  decide +kernel

/-- Two roots are a forest. -/
theorem twoRoots_forest : Forest (links ignoreCase twoRoots "t") := by
  intro id linked
  have present := mem_departments_of_linked linked
  obtain ⟨_, first, second, _⟩ := twoRoots_ready
  rcases List.mem_cons.mp present with rfl | rest
  · exact ⟨_, .root second⟩
  · cases List.mem_singleton.mp rest
    exact ⟨_, .root first⟩

/-- The crossed moves close a circle. -/
theorem crossed_moves_circle : ∃ last : DepartmentSystem,
    Run (DepartmentSteps id ignoreCase) (quiet twoRoots) crossedMoves last ∧
      Forest (links ignoreCase twoRoots "t") ∧
      (links ignoreCase last.committed "t" "a").isSome = true ∧
      ¬∃ path, Rises (links ignoreCase last.committed "t") "a" path := by
  obtain ⟨last, reached, outcome⟩ := (Option.any_eq_true _ _).mp twoRoots_ready.2.2.2.1
  simp only [Bool.and_eq_true, decide_eq_true_eq] at outcome
  obtain ⟨up, down⟩ := outcome
  refine ⟨last, run_of_foldlM reached, twoRoots_forest, Option.isSome_of_eq_some up, ?_⟩
  rintro ⟨_, rises⟩
  cases rises with
  | root found => cases up.symm.trans found
  | up found rest =>
    cases up.symm.trans found
    cases rest with
    | root found => cases down.symm.trans found
    | up found rest =>
      cases down.symm.trans found
      have distinct := (Rises.up up (.up down rest)).nodup
      exact absurd (List.mem_cons_of_mem _ rest.head) (List.nodup_cons.mp distinct).1

/-- The ordered moves keep the forest. -/
theorem ordered_moves_forest : ∃ last : DepartmentSystem,
    Run (Guarded (DepartmentSteps id ignoreCase)
      (Condition (fun _ => True) (DepartmentOp.Current ignoreCase)))
      (quiet twoRoots) orderedMoves last ∧
      ∃ path, path.Nodup ∧ Rises (links ignoreCase last.committed "t") "a" path := by
  obtain ⟨last, reached, moved⟩ := (Option.any_eq_true _ _).mp twoRoots_ready.2.2.2.2
  obtain ⟨row, looked, _⟩ := (Option.any_eq_true _ _).mp moved
  have run := guarded_of_foldlM reached
  exact ⟨last, run, departments_stay_forest twoRoots_forest run "a" row looked⟩

end Sample

end Biz.Access.Departments
