import Biz.Access.BusinessScope

/-!
# Which devices a caller sees

The guard of the device service resolves the business scope of the caller and hands it
to the repository, whose queries keep to it. Devices and sites are deleted softly: the
row stays, with the time of its deletion. The queries of the repository leave deleted
devices out. The subquery that checks the site of a device under a policy is raw text
and does not leave deleted sites out.
-/

namespace Biz.Devices

open Checks Text
open Access (Binds Db EffectiveBusinessScope Grants InEffect MemberSite Principal)
open Time (Instant)

structure DeviceRecord where
  tenantId : String
  siteId : String
  name : String
  serial : String
  createdBy : String
  version : Nat
  createdAt : Instant
  deletedAt : Option Instant
  deriving DecidableEq

structure SiteRecord where
  tenantId : String
  name : String
  version : Nat
  deletedAt : Option Instant
  deriving DecidableEq

inductive Key
  | device (id : String)
  | site (id : String)
  deriving DecidableEq

@[reducible] def Row : Key → Type
  | .device _ => DeviceRecord
  | .site _ => SiteRecord

abbrev Tables := AList Row

inductive Failure
  | invalid
  | scopeMissing
  | tenantRequired
  | unauthorized
  | denied
  | notFound
  | conflict
  | duplicateKey
  deriving DecidableEq

/-! ## The guard -/

structure Scope where
  all : Bool
  self : Bool
  sites : Bool
  userId : String
  siteIds : List String
  tenantId : String
  policyBound : Bool
  policySiteIds : List String
  deriving DecidableEq

def Scope.allowsSite (scope : Scope) (siteId : String) : Bool :=
  (!scope.policyBound || decide (siteId ∈ scope.policySiteIds)) &&
    (scope.all || scope.self || (scope.sites && decide (siteId ∈ scope.siteIds)))

/-- The scope of a caller, from what was resolved. -/
def Scope.of (principal : Principal) (current : EffectiveBusinessScope) : Scope :=
  ⟨current.all, current.self, current.sites, principal.userId, current.memberSiteIds,
    principal.tenantId, current.policyBound, current.policySiteIds⟩

/-- The scope that the guard resolves for a permission. -/
def currentScope (access : Db) (now : Instant) (principal : Principal)
    (permission : String) : Except Failure Scope :=
  match access.resolveBusinessScope principal.tenantId principal.userId permission now with
  | .error .invalidPolicy => .error .denied
  | .error _ => .error .unauthorized
  | .ok current => do
    require .denied (current.all = true ∨ current.sites = true ∨ current.self = true)
    require .denied ((current.sites = true ∨ current.self = true ∨ current.policyBound = true) →
      trimSpace principal.userId ≠ "" ∧ trimSpace principal.tenantId ≠ "")
    return .of principal current

/-! ## The repository -/

structure Device where
  id : String
  tenantId : String
  createdBy : String
  name : String
  serial : String
  siteId : String
  version : Nat
  deriving DecidableEq

def DeviceRecord.domain (id : String) (row : DeviceRecord) : Device :=
  ⟨id, row.tenantId, row.createdBy, row.name, row.serial, row.siteId, row.version⟩

def trustedTenant (principal : Principal) : Except Failure String := do
  require .tenantRequired (principal.authenticated = true ∧ principal.tenantId ≠ "")
  return principal.tenantId

variable (tables : Tables) (tenant site : String)

/-- The raw subquery on the sites. -/
def Tables.siteRow : Bool :=
  (tables.lookup (.site site)).any fun row => row.tenantId = tenant

/-- `applyDeviceDataScope`, as a condition on a row. -/
def inDeviceDataScope (scope : Scope) (row : DeviceRecord) : Bool :=
  (!scope.policyBound || (scope.tenantId ≠ "" && scope.policySiteIds ≠ [] &&
    decide (row.siteId ∈ scope.policySiteIds) && tables.siteRow scope.tenantId row.siteId)) &&
  (if scope.all then true
    else if scope.sites && scope.self then
      if scope.siteIds = [] then row.createdBy = scope.userId
      else row.siteId ∈ scope.siteIds || row.createdBy = scope.userId
    else if scope.sites then scope.siteIds ≠ [] && decide (row.siteId ∈ scope.siteIds)
    else if scope.self then row.createdBy = scope.userId
    else false)

/-- The devices of the tenant that are not deleted and lie in the scope. -/
def Tables.visible (tenant : String) (scope : Scope) (row : DeviceRecord) : Bool :=
  row.tenantId = tenant && row.deletedAt.isNone && inDeviceDataScope tables scope row

/-- All devices, the last created first. -/
def Tables.devices : List (String × DeviceRecord) :=
  (tables.entries.filterMap fun
    | ⟨.device id, row⟩ => some (id, row)
    | _ => none).insertionSort fun first second => second.2.createdAt ≤ first.2.createdAt

def listVisible (principal : Principal) (scope : Scope) : Except Failure (List Device) := do
  let tenant ← trustedTenant principal
  return (tables.devices.filter fun device => tables.visible tenant scope device.2).map
    fun device => device.2.domain device.1

def getVisible (principal : Principal) (scope : Scope) (id : String) : Except Failure Device := do
  let tenant ← trustedTenant principal
  let row ← found Failure.notFound
    ((tables.lookup (.device id)).filter (tables.visible tenant scope))
  return row.domain id

theorem mem_devices {tables : Tables} {id : String} {row : DeviceRecord} :
    (id, row) ∈ tables.devices ↔ tables.lookup (.device id) = some row := by
  simp only [Tables.devices, List.mem_insertionSort, List.mem_filterMap]
  constructor
  · rintro ⟨⟨key, _⟩, listed, picked⟩
    cases key with
    | site other => cases picked
    | device other =>
      cases picked
      exact AList.mem_lookup_iff.mpr listed
  · intro found
    exact ⟨⟨.device id, row⟩, AList.mem_lookup_iff.mp found, rfl⟩

/-! ## The rule -/

/-- An authenticated user of a tenant. -/
structure Caller where
  principal : Principal
  authenticated : principal.authenticated = true
  tenant : trimSpace principal.tenantId ≠ ""
  user : trimSpace principal.userId ≠ ""

section Rule

variable (access : Db) (now : Instant) (caller : Caller) (permission : String)

/-- A policy that binds the caller's use of the permission. -/
def Caller.Bound (policy : String) : Prop :=
  Binds access (trimSpace caller.principal.tenantId) (trimSpace caller.principal.userId) permission
    policy

/-- A site of the caller. -/
def Caller.Site (site : String) : Prop :=
  MemberSite access (trimSpace caller.principal.tenantId) (trimSpace caller.principal.userId) site

/-- What a grant of a scope makes the caller eligible for. -/
def Caller.Eligible (row : DeviceRecord) : Access.DataScope → Prop
  | .all => True
  | .sites => caller.Site access row.siteId
  | .self => row.createdBy = caller.principal.userId
  | .none => False

/-- The rule for a device, given what it means that its site exists. Every policy that
binds is in effect, some grant makes the device eligible, and under a policy the site
exists, is the caller's and is listed by every policy that binds. -/
structure Caller.Sees (standing : Prop) (row : DeviceRecord) : Prop where
  effective : ∀ policy, caller.Bound access permission policy →
    InEffect access (trimSpace caller.principal.tenantId) policy now
  eligible : ∃ scope reference, Grants access (trimSpace caller.principal.tenantId)
    (trimSpace caller.principal.userId) permission scope reference ∧
    caller.Eligible access row scope
  ceiling : (∃ policy, caller.Bound access permission policy) → standing ∧
    caller.Site access row.siteId ∧ ∀ policy, caller.Bound access permission policy →
      Access.Key.policySite (trimSpace caller.principal.tenantId) policy row.siteId ∈ access

end Rule

/-- A site of the tenant that is not deleted. -/
def Tables.SiteExists : Prop :=
  ∃ row, tables.lookup (.site site) = some row ∧ row.tenantId = tenant ∧ row.deletedAt = none

/-- A site of the tenant that is deleted. -/
def Tables.SiteRetired : Prop :=
  ∃ row, tables.lookup (.site site) = some row ∧ row.tenantId = tenant ∧ row.deletedAt ≠ none

section Visible

variable {tables : Tables} {access : Db} {now : Instant} {caller : Caller}
  {permission : String} {row : DeviceRecord}

theorem siteRow_iff {tenant site : String} : tables.siteRow tenant site = true ↔
    tables.SiteExists tenant site ∨ tables.SiteRetired tenant site := by
  simp only [Tables.siteRow, Option.any_eq_true, decide_eq_true_eq, Tables.SiteExists,
    Tables.SiteRetired]
  constructor
  · rintro ⟨row, found, home⟩
    by_cases live : row.deletedAt = none
    · exact .inl ⟨row, found, home, live⟩
    · exact .inr ⟨row, found, home, live⟩
  · rintro (⟨row, found, home, _⟩ | ⟨row, found, home, _⟩)
    · exact ⟨row, found, home⟩
    · exact ⟨row, found, home⟩

theorem not_retired_of_exists {tenant site : String} (live : tables.SiteExists tenant site) :
    ¬tables.SiteRetired tenant site := by
  rintro ⟨_, found, _, deleted⟩
  obtain ⟨_, there, _, kept⟩ := live
  cases there.symm.trans found
  exact deleted kept

/-- The scope that the guard hands on, in terms of what was resolved. -/
theorem currentScope_ok {principal : Principal} {scope : Scope} :
    currentScope access now principal permission = .ok scope ↔
      ∃ current, access.resolveBusinessScope principal.tenantId principal.userId permission now =
          .ok current ∧
        (current.all = true ∨ current.sites = true ∨ current.self = true) ∧
        ((current.sites = true ∨ current.self = true ∨ current.policyBound = true) →
          trimSpace principal.userId ≠ "" ∧ trimSpace principal.tenantId ≠ "") ∧
        scope = .of principal current := by
  unfold currentScope
  split
  · rename_i refused
    simp [refused]
  · rename_i refused
    simp [refused]
  · rename_i current resolved
    simp only [resolved, Except.ok.injEq, exists_eq_left', bind_ok, require_ok,
      pure_ok, exists_const]
    constructor
    · rintro ⟨usable, named, rfl⟩
      exact ⟨usable, named, rfl⟩
    · rintro ⟨usable, named, rfl⟩
      exact ⟨usable, named, rfl⟩

/-- The condition of the query, split at its two parts. -/
theorem inDeviceDataScope_iff {scope : Scope} (named : scope.tenantId ≠ "") :
    inDeviceDataScope tables scope row = true ↔
      (scope.policyBound = true → row.siteId ∈ scope.policySiteIds ∧
        tables.siteRow scope.tenantId row.siteId = true) ∧
      (scope.all = true ∨ (scope.sites = true ∧ row.siteId ∈ scope.siteIds) ∨
        (scope.self = true ∧ row.createdBy = scope.userId)) := by
  have first : (!scope.policyBound || (scope.tenantId ≠ "" && scope.policySiteIds ≠ [] &&
      decide (row.siteId ∈ scope.policySiteIds) && tables.siteRow scope.tenantId row.siteId)) =
        true ↔
      (scope.policyBound = true → row.siteId ∈ scope.policySiteIds ∧
        tables.siteRow scope.tenantId row.siteId = true) := by
    cases bound : scope.policyBound with
    | false => simp
    | true =>
      simp only [Bool.not_true, Bool.false_or, Bool.and_eq_true, decide_eq_true_eq, true_implies]
      constructor
      · rintro ⟨⟨_, listed⟩, there⟩
        exact ⟨listed, there⟩
      · rintro ⟨listed, there⟩
        exact ⟨⟨⟨named, List.ne_nil_of_mem listed⟩, listed⟩, there⟩
  unfold inDeviceDataScope
  rw [Bool.and_eq_true, first, and_congr_right_iff]
  intro _
  cases scope.all with
  | true => simp
  | false =>
    cases scope.sites with
    | false => cases scope.self <;> simp
    | true =>
      cases scope.self with
      | false =>
        simp only [Bool.and_false, Bool.false_eq_true, ↓reduceIte, Bool.and_eq_true,
          decide_eq_true_eq, false_or, true_and, false_and, or_false, and_iff_right_iff_imp]
        exact List.ne_nil_of_mem
      | true =>
        by_cases none : scope.siteIds = []
        · simp [none]
        · simp [none]

/-- What the guard and the query let through together: the rule, with a site that has a
row counting as one that exists. -/
theorem visible_iff_sees (named : trimSpace permission ≠ "")
    (home : row.tenantId = caller.principal.tenantId) (live : row.deletedAt = none) :
    (∃ scope, currentScope access now caller.principal permission = .ok scope ∧
      tables.visible caller.principal.tenantId scope row = true) ↔
    caller.Sees access now permission (tables.SiteExists caller.principal.tenantId row.siteId ∨
      tables.SiteRetired caller.principal.tenantId row.siteId) row := by
  have condition : ∀ current, tables.visible caller.principal.tenantId
    (.of caller.principal current)
      row = true ↔ (current.policyBound = true → row.siteId ∈ current.policySiteIds ∧
        tables.siteRow caller.principal.tenantId row.siteId = true) ∧
      (current.all = true ∨ (current.sites = true ∧ row.siteId ∈ current.memberSiteIds) ∨
        (current.self = true ∧ row.createdBy = caller.principal.userId)) := by
    intro current
    rw [Tables.visible, home, live, Bool.and_eq_true, inDeviceDataScope_iff]
    · simp [Scope.of]
    · intro blank
      apply caller.tenant
      change caller.principal.tenantId = "" at blank
      rw [blank]
      rfl
  constructor
  · rintro ⟨scope, resolved, seen⟩
    obtain ⟨current, resolution, _, _, rfl⟩ := currentScope_ok.mp resolved
    have facts := Access.resolveBusinessScope_ok resolution
    obtain ⟨under, reached⟩ := (condition current).mp seen
    constructor
    case effective => exact facts.effective
    case eligible =>
      rcases reached with all | ⟨sites, listed⟩ | ⟨self, created⟩
      · obtain ⟨reference, grants⟩ := facts.all.mp all
        exact ⟨.all, reference, grants, trivial⟩
      · obtain ⟨reference, grants⟩ := facts.sites.mp sites
        exact ⟨.sites, reference, grants, (facts.memberSites _).mp listed⟩
      · obtain ⟨reference, grants⟩ := facts.self.mp self
        exact ⟨.self, reference, grants, created⟩
    case ceiling =>
      intro bound
      have policyBound := facts.bound.mpr bound
      obtain ⟨listed, there⟩ := under policyBound
      exact ⟨siteRow_iff.mp there, (facts.ceiling policyBound _).mp listed⟩
  · intro sees
    obtain ⟨current, resolution⟩ :=
      (Access.resolveBusinessScope_isOk ⟨caller.tenant, caller.user, named⟩).mpr sees.effective
    have facts := Access.resolveBusinessScope_ok resolution
    obtain ⟨scope, reference, grants, eligible⟩ := sees.eligible
    have reached : current.all = true ∨
      (current.sites = true ∧ row.siteId ∈ current.memberSiteIds) ∨
        (current.self = true ∧ row.createdBy = caller.principal.userId) := by
      cases scope with
      | all => exact .inl (facts.all.mpr ⟨reference, grants⟩)
      | sites =>
        exact .inr (.inl ⟨facts.sites.mpr ⟨reference, grants⟩, (facts.memberSites _).mpr eligible⟩)
      | self => exact .inr (.inr ⟨facts.self.mpr ⟨reference, grants⟩, eligible⟩)
      | none => exact eligible.elim
    refine ⟨_, currentScope_ok.mpr ⟨current, resolution, ?_, fun _ => ⟨caller.user, caller.tenant⟩,
      rfl⟩, ?_⟩
    · rcases reached with all | ⟨sites, _⟩ | ⟨self, _⟩
      · exact .inl all
      · exact .inr (.inl sites)
      · exact .inr (.inr self)
    · refine (condition current).mpr ⟨?_, reached⟩
      intro policyBound
      obtain ⟨there, site, listed⟩ := sees.ceiling (facts.bound.mp policyBound)
      exact ⟨(facts.ceiling policyBound _).mpr ⟨site, listed⟩, siteRow_iff.mpr there⟩

theorem Caller.trusted (caller : Caller) :
    trustedTenant caller.principal = .ok caller.principal.tenantId := by
  have named : caller.principal.tenantId ≠ "" := by
    intro blank
    apply caller.tenant
    rw [blank]
    rfl
  rw [trustedTenant, require_pos ⟨caller.authenticated, named⟩]
  rfl

end Visible

section Returned

variable (tables : Tables) (access : Db) (now : Instant) (caller : Caller)
  (permission id : String) (row : DeviceRecord)

/-- The device is returned by the scoped list. -/
def Listed : Prop :=
  ∃ scope devices, currentScope access now caller.principal permission = .ok scope ∧
    listVisible tables caller.principal scope = .ok devices ∧ row.domain id ∈ devices

/-- The device is returned by the scoped get. -/
def Got : Prop :=
  ∃ scope, currentScope access now caller.principal permission = .ok scope ∧
    getVisible tables caller.principal scope id = .ok (row.domain id)

/-- The rule for a device of the tenant. -/
def Entitled : Prop :=
  caller.Sees access now permission (tables.SiteExists caller.principal.tenantId row.siteId) row

/-- The site of the device is deleted, some policy binds the permission, and the rest of
the rule would let the device through. -/
def Resurfaces : Prop :=
  tables.SiteRetired caller.principal.tenantId row.siteId ∧
    (∃ policy, caller.Bound access permission policy) ∧ caller.Sees access now permission True row

variable {tables access now caller permission id row}

theorem Caller.Sees.mono {weak strong : Prop} (implies : weak → strong)
    (sees : caller.Sees access now permission weak row) :
    caller.Sees access now permission strong row := by
  refine ⟨sees.effective, sees.eligible, ?_⟩
  intro bound
  obtain ⟨stands, rest⟩ := sees.ceiling bound
  exact ⟨implies stands, rest⟩

/-- The rule holds of everything with a site row, except where a deleted one resurfaces. -/
theorem sees_iff_entitled :
    (caller.Sees access now permission (tables.SiteExists caller.principal.tenantId row.siteId ∨
        tables.SiteRetired caller.principal.tenantId row.siteId) row ↔
      Entitled tables access now caller permission row) ↔
    ¬Resurfaces tables access now caller permission row := by
  constructor
  · rintro same ⟨retired, bound, sees⟩
    have entitled := same.mp (sees.mono fun _ => .inr retired)
    exact not_retired_of_exists (entitled.ceiling bound).1 retired
  · intro stays
    constructor
    · intro sees
      refine ⟨sees.effective, sees.eligible, ?_⟩
      intro bound
      obtain ⟨stands, rest⟩ := sees.ceiling bound
      rcases stands with exists_ | retired
      · exact ⟨exists_, rest⟩
      · exact absurd ⟨retired, bound, sees.mono fun _ => trivial⟩ stays
    · exact fun entitled => entitled.mono .inl

theorem listed_iff (stored : tables.lookup (.device id) = some row) :
    Listed tables access now caller permission id row ↔
      ∃ scope, currentScope access now caller.principal permission = .ok scope ∧
        tables.visible caller.principal.tenantId scope row = true := by
  unfold Listed listVisible
  simp only [caller.trusted, ok_bind, pure_ok]
  constructor
  · rintro ⟨scope, _, resolved, rfl, listed⟩
    obtain ⟨⟨_, _⟩, seen, same⟩ := List.mem_map.mp listed
    obtain ⟨there, visible⟩ := List.mem_filter.mp seen
    cases congrArg Device.id same
    cases (mem_devices.mp there).symm.trans stored
    exact ⟨scope, resolved, visible⟩
  · rintro ⟨scope, resolved, visible⟩
    refine ⟨scope, _, resolved, rfl, List.mem_map.mpr ⟨(id, row), ?_, rfl⟩⟩
    exact List.mem_filter.mpr ⟨mem_devices.mpr stored, visible⟩

theorem got_iff (stored : tables.lookup (.device id) = some row) :
    Got tables access now caller permission id row ↔
      ∃ scope, currentScope access now caller.principal permission = .ok scope ∧
        tables.visible caller.principal.tenantId scope row = true := by
  unfold Got getVisible
  simp only [caller.trusted, ok_bind, bind_ok, found_ok, pure_ok,
    stored,
    Option.filter_eq_some_iff, Option.some.injEq]
  constructor
  · rintro ⟨scope, resolved, _, ⟨rfl, visible⟩, _⟩
    exact ⟨scope, resolved, visible⟩
  · rintro ⟨scope, resolved, visible⟩
    exact ⟨scope, resolved, row, ⟨rfl, visible⟩, rfl⟩

/-- The scoped list and the scoped get return a device of the tenant exactly by the rule,
unless a deleted site resurfaces under a policy. -/
theorem returned_iff_entitled (named : trimSpace permission ≠ "")
    (stored : tables.lookup (.device id) = some row)
    (home : row.tenantId = caller.principal.tenantId) (live : row.deletedAt = none) :
    ((Listed tables access now caller permission id row ↔
        Entitled tables access now caller permission row) ↔
      ¬Resurfaces tables access now caller permission row) ∧
    ((Got tables access now caller permission id row ↔
        Entitled tables access now caller permission row) ↔
      ¬Resurfaces tables access now caller permission row) := by
  rw [listed_iff stored, got_iff stored, visible_iff_sees named home live]
  exact ⟨sees_iff_entitled, sees_iff_entitled⟩

end Returned

section Sample

/-- A user with all scopes on a permission, under a policy on one site. -/
def overseen : Db :=
  Isolation.overlay ∅ [⟨.tenant "t", some ⟨.active, 1⟩⟩,
    ⟨.user "u", some ⟨none, .blank, true⟩⟩,
    ⟨.membership "t" "u", some ⟨.active, "", .blank, .blank, "", "", "", "", none, 1⟩⟩,
    ⟨.role "r", some ⟨"t", "r", "", none, false, some "p", .active, 1⟩⟩,
    ⟨.memberRole "t" "u" "r", some ()⟩,
    ⟨.grant "t" "r" "device.read", some .all⟩,
    ⟨.memberSite "t" "u" "s", some ()⟩,
    ⟨.policy "t" "p", some ⟨"p", .active, 1, none, none, by decide⟩⟩,
    ⟨.policySite "t" "p" "s", some ()⟩]

def deviceAtSite : DeviceRecord := ⟨"t", "s", "d", "1", "u", 1, 0, none⟩

/-- A device at a site that is deleted, or is not. -/
def deviceTables (deletedAt : Option Instant) : Tables :=
  Isolation.overlay ∅ [⟨.site "s", some ⟨"t", "s", 1, deletedAt⟩⟩,
    ⟨.device "d", some deviceAtSite⟩]

def reader : Caller where
  principal := ⟨"t", "u", [], true⟩
  authenticated := rfl
  tenant := by decide +kernel
  user := by decide +kernel

theorem overseen_scope : currentScope overseen 0 reader.principal "device.read" =
    .ok ⟨true, false, false, "u", ["s"], "t", true, ["s"]⟩ := by
  decide +kernel

theorem overseen_bound : reader.Bound overseen "device.read" "p" := by
  refine ⟨.all, ⟨by decide +kernel, "r", ⟨"t", "r", "", none, false, some "p", .active, 1⟩, ?_⟩,
    by decide⟩
  decide +kernel

/-- The device is returned although its site is deleted. -/
theorem retired_site_listed :
    Listed (deviceTables (some 0)) overseen 0 reader "device.read" "d" deviceAtSite ∧
      Got (deviceTables (some 0)) overseen 0 reader "device.read" "d" deviceAtSite ∧
      ¬Entitled (deviceTables (some 0)) overseen 0 reader "device.read" deviceAtSite := by
  refine ⟨⟨_, _, overseen_scope, rfl, by decide +kernel⟩, ⟨_, overseen_scope, by decide +kernel⟩,
    ?_⟩
  intro entitled
  obtain ⟨⟨_, found, _, live⟩, _⟩ := entitled.ceiling ⟨"p", overseen_bound⟩
  have retired : (deviceTables (some 0)).lookup (.site "s") = some ⟨"t", "s", 1, some 0⟩ := by
    decide +kernel
  cases found.symm.trans retired
  cases live

theorem standing_site_listed :
    Entitled (deviceTables none) overseen 0 reader "device.read" deviceAtSite := by
  have stays : ¬Resurfaces (deviceTables none) overseen 0 reader "device.read" deviceAtSite := by
    rintro ⟨⟨_, found, _, deleted⟩, _⟩
    have kept : (deviceTables none).lookup (.site "s") = some ⟨"t", "s", 1, none⟩ := by
      decide +kernel
    cases found.symm.trans kept
    exact deleted rfl
  have stored : (deviceTables none).lookup (.device "d") = some deviceAtSite := by decide +kernel
  have exact := (returned_iff_entitled (by decide +kernel) stored rfl rfl).1.mpr stays
  exact exact.mp ⟨_, _, overseen_scope, rfl, by decide +kernel⟩

end Sample

end Biz.Devices
