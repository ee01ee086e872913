import Biz.Access.PermissionVersion

/-!
# The summary of a caller's authorization

For the browser a summary lists, for each permission, the widest scope among the
caller's grants, with the sites of the member when that scope is by sites. It ranks
scopes and reads no data policy. What is enforced is the union of the scopes under the
ceiling of the policies. The last part compares the two: when the summary promises no
device that the enforcement refuses.
-/

namespace Biz.Access

open Checks Text
open Time (Instant)
open Isolation (overlay)

/-- A grant of the current roles, or one that every member has. -/
structure CurrentGrant where
  permission : String
  roleId : String
  scope : DataScope

structure CurrentGrantFact where
  permission : String
  roleId : String
  roleName : String
  scope : DataScope

structure CurrentDataPolicy where
  permission : String
  scope : DataScope
  siteIds : List String
  deriving DecidableEq

/-- The names of the tenant and its time zone are left out. -/
structure CurrentAuthorizationSnapshot where
  userId : String
  userName : String
  tenantId : String
  roles : List String
  grants : List CurrentGrantFact
  dataPolicies : List CurrentDataPolicy
  siteIds : List String
  permissionVersion : String

def brandingPermission : String := "tenant.branding.read"
def personalProfilePermission : String := "tenant.personal_profile.self"

def DataScope.rank : DataScope → Nat
  | .none => 0
  | .self => 1
  | .sites => 2
  | .all => 3

namespace Db

variable (db : Db)

/-- The rows of the join: the grants of the active roles of a member. -/
def storedGrants (tenant user : String) : List CurrentGrant :=
  if db.activeAccount tenant user = true then
    (db.activeRoles tenant user).flatMap fun (id, _) =>
      (db.grantsOf tenant id).map fun (permission, scope) => ⟨permission, id, scope⟩
  else []

/-- A grant that comes with an active membership. -/
def implicitGrant (tenant user permission : String) (scope : DataScope) : List CurrentGrant :=
  if db.activeAccount tenant user = true then
    [⟨permission, "membership:" ++ tenant ++ ":" ++ user, scope⟩]
  else []

/-- `ResolveCurrentGrants` for all permissions. -/
def resolveCurrentGrants (tenantId userId : String) : List CurrentGrant :=
  let tenant := trimSpace tenantId
  let user := trimSpace userId
  if tenant = "" ∨ user = "" then []
  else (db.storedGrants tenant user ++ db.implicitGrant tenant user brandingPermission .all ++
    db.implicitGrant tenant user personalProfilePermission .self).insertionSort fun first second =>
      toLex (first.permission, first.roleId) ≤ toLex (second.permission, second.roleId)

/-- `ResolveMemberSites`. -/
def resolveMemberSites (tenant user : String) : List String :=
  if trimSpace tenant = "" ∨ trimSpace user = "" then []
  else (db.sitesOf tenant user).insertionSort (· ≤ ·)

end Db

/-- One round of the loop of `effectiveDataPolicies`: a wider scope replaces a narrower. -/
def keepBest (best : AList fun _ : String => DataScope) (grant : CurrentGrant) :
    AList fun _ : String => DataScope :=
  match best.lookup grant.permission with
  | none => best.insert grant.permission grant.scope
  | some held =>
    if held.rank < grant.scope.rank then best.insert grant.permission grant.scope else best

def effectiveDataPolicies (grants : List CurrentGrant) (sites : List String) :
    List CurrentDataPolicy :=
  let best := grants.foldl keepBest ∅
  (best.keys.insertionSort (· ≤ ·)).filterMap fun permission =>
    (best.lookup permission).map fun scope =>
      ⟨permission, scope, if scope = .sites then sites else []⟩

/-- `CurrentAuthorization`. -/
def currentAuthorization (digest : PermissionDocument → String) (db : Db) (principal : Principal)
    (subject : String) : Except Failure CurrentAuthorizationSnapshot := do
  require .unauthorized (principal.authenticated = true)
  let tenant := trimSpace principal.tenantId
  let user := trimSpace principal.userId
  require .unauthorized (tenant ≠ "" ∧ user ≠ "")
  let membership ← found .unauthorized ((db.membership? tenant user).filter fun _ =>
    db.activeAccount tenant user)
  let roles := (db.activeRoles tenant user).insertionSort fun first second =>
    toLex (first.2.name, first.1) ≤ toLex (second.2.name, second.1)
  let names := roles.map fun role => role.2.name
  let grants := db.resolveCurrentGrants tenant user
  let sites := db.resolveMemberSites tenant user
  let version ← db.permissionVersion digest ⟨tenant, user, names, true⟩ subject
  return {
    userId := user
    userName := membership.name
    tenantId := tenant
    roles := names
    grants := grants.map fun grant => ⟨grant.permission, grant.roleId,
      ((roles.find? fun role => role.1 = grant.roleId).map fun role => role.2.name).getD "",
      grant.scope⟩
    dataPolicies := effectiveDataPolicies grants sites
    siteIds := sites
    permissionVersion := version }

/-! ## The widest scope -/

/-- A scope that some grant of the permission has, and none of them a wider one. -/
def Widest (grants : List CurrentGrant) (permission : String) (scope : DataScope) : Prop :=
  (∃ grant ∈ grants, grant.permission = permission ∧ grant.scope = scope) ∧
    ∀ grant ∈ grants, grant.permission = permission → grant.scope.rank ≤ scope.rank

/-- The table holds the widest scope of each permission among the grants. -/
structure Best (grants : List CurrentGrant) (best : AList fun _ : String => DataScope) : Prop where
  widest : ∀ permission scope, best.lookup permission = some scope → Widest grants permission scope
  listed : ∀ grant ∈ grants, grant.permission ∈ best

variable {grants : List CurrentGrant} {best : AList fun _ : String => DataScope}

theorem Widest.concat {grant : CurrentGrant} {permission : String} {scope : DataScope}
    (widest : Widest grants permission scope)
    (below : grant.permission = permission → grant.scope.rank ≤ scope.rank) :
    Widest (grants ++ [grant]) permission scope := by
  obtain ⟨⟨witness, listed, has⟩, above⟩ := widest
  exact ⟨⟨witness, List.mem_append_left _ listed, has⟩,
    List.forall_mem_append.mpr ⟨above, List.forall_mem_singleton.mpr below⟩⟩

theorem best_insert (holds : Best grants best) {grant : CurrentGrant}
    (above : ∀ more ∈ grants, more.permission = grant.permission →
      more.scope.rank ≤ grant.scope.rank) :
    Best (grants ++ [grant]) (best.insert grant.permission grant.scope) := by
  constructor
  case widest =>
    intro permission scope found
    by_cases same : permission = grant.permission
    · subst same
      rw [AList.lookup_insert] at found
      cases found
      exact ⟨⟨grant, List.mem_append_right _ List.mem_cons_self, rfl, rfl⟩,
        List.forall_mem_append.mpr ⟨above, List.forall_mem_singleton.mpr fun _ => le_rfl⟩⟩
    · rw [AList.lookup_insert_ne same] at found
      exact (holds.widest permission scope found).concat fun other => absurd other.symm same
  case listed =>
    simp only [AList.mem_insert]
    exact List.forall_mem_append.mpr ⟨fun more member => .inr (holds.listed more member),
      List.forall_mem_singleton.mpr (.inl rfl)⟩

theorem best_keepBest (holds : Best grants best) (grant : CurrentGrant) :
    Best (grants ++ [grant]) (keepBest best grant) := by
  unfold keepBest
  split
  · rename_i absent
    apply best_insert holds
    intro more member same
    have present := holds.listed more member
    rw [same] at present
    exact absurd present (AList.lookup_eq_none.mp absent)
  · rename_i held found
    have widest := holds.widest grant.permission held found
    split
    · rename_i wider
      apply best_insert holds
      exact fun more member same => (widest.2 more member same).trans wider.le
    · rename_i narrower
      constructor
      case widest =>
        intro permission scope there
        apply (holds.widest permission scope there).concat
        rintro rfl
        rw [found] at there
        cases there
        exact not_lt.mp narrower
      case listed =>
        have present := AList.lookup_isSome.mp (Option.isSome_of_eq_some found)
        exact List.forall_mem_append.mpr ⟨holds.listed, List.forall_mem_singleton.mpr present⟩

/-- The loop over the grants. -/
theorem best_foldl (grants : List CurrentGrant) {done : List CurrentGrant}
    (holds : Best done best) : Best (done ++ grants) (grants.foldl keepBest best) := by
  induction grants generalizing done best with
  | nil =>
    rw [List.append_nil]
    exact holds
  | cons grant rest ih =>
    rw [List.append_cons]
    exact ih (best_keepBest holds grant)

theorem DataScope.rank_injective {first second : DataScope} (same : first.rank = second.rank) :
    first = second := by
  cases first <;> cases second <;> first | rfl | cases same

/-- What the summary lists. -/
theorem mem_effectiveDataPolicies {sites : List String} {policy : CurrentDataPolicy} :
    policy ∈ effectiveDataPolicies grants sites ↔
      Widest grants policy.permission policy.scope ∧
        policy.siteIds = if policy.scope = .sites then sites else [] := by
  have best : Best grants (grants.foldl keepBest ∅) := by
    have start : Best [] (∅ : AList fun _ : String => DataScope) :=
      ⟨fun _ _ found => (nomatch found), fun _ member => (nomatch member)⟩
    exact best_foldl grants start
  simp only [effectiveDataPolicies, List.mem_filterMap, List.mem_insertionSort,
    Option.map_eq_some_iff]
  constructor
  · rintro ⟨permission, _, scope, found, rfl⟩
    exact ⟨best.widest permission scope found, rfl⟩
  · rintro ⟨widest, sited⟩
    obtain ⟨⟨witness, listed, named, has⟩, above⟩ := widest
    have present := best.listed witness listed
    rw [named] at present
    obtain ⟨scope, found⟩ := Option.isSome_iff_exists.mp (AList.lookup_isSome.mpr present)
    obtain ⟨⟨other, there, otherNamed, otherHas⟩, otherAbove⟩ := best.widest _ _ found
    have same : scope = policy.scope := by
      apply DataScope.rank_injective
      apply le_antisymm
      · exact otherHas ▸ above other there otherNamed
      · exact has ▸ otherAbove witness listed named
    refine ⟨policy.permission, present, scope, found, ?_⟩
    rw [same, ← sited]

/-! ## The grants in terms of the tables -/

section Grants

variable {db : Db} {tenant user permission : String}

theorem mem_grantsOf {role : String} {scope : DataScope} :
    (permission, scope) ∈ db.grantsOf tenant role ↔
      db.lookup (.grant tenant role permission) = some scope := by
  simp only [Db.grantsOf, List.mem_filterMap]
  constructor
  · rintro ⟨⟨key, _⟩, listed, picked⟩
    cases key with
    | grant home id other =>
      obtain ⟨⟨rfl, rfl⟩, made⟩ := Option.ite_none_right_eq_some.mp picked
      cases made
      exact AList.mem_lookup_iff.mpr listed
    | _ => cases picked
  · intro found
    exact ⟨⟨.grant tenant role permission, scope⟩, AList.mem_lookup_iff.mp found,
      if_pos ⟨rfl, rfl⟩⟩

/-- Some active role of the member grants the permission with the scope. -/
def Held (db : Db) (tenant user permission : String) (scope : DataScope) : Prop :=
  ∃ reference, Grants db tenant user permission scope reference

/-- The scope of the grants that every active member has. -/
def Implicit (permission : String) (scope : DataScope) : Prop :=
  (permission = brandingPermission ∧ scope = .all) ∨
    (permission = personalProfilePermission ∧ scope = .self)

theorem exists_resolveCurrentGrants {scope : DataScope}
    (named : trimSpace tenant ≠ "" ∧ trimSpace user ≠ "")
    (active : db.activeAccount (trimSpace tenant) (trimSpace user) = true) :
    (∃ grant ∈ db.resolveCurrentGrants tenant user,
      grant.permission = permission ∧ grant.scope = scope) ↔
    Held db (trimSpace tenant) (trimSpace user) permission scope ∨ Implicit permission scope := by
  simp only [Db.resolveCurrentGrants, if_neg (not_or.mpr named), List.mem_insertionSort,
    List.mem_append,
    Db.storedGrants, Db.implicitGrant, if_pos active, List.mem_flatMap, List.mem_map,
    List.mem_singleton, Prod.exists, mem_activeRoles, mem_grantsOf]
  constructor
  · rintro ⟨_, (⟨id, row, ⟨assigned, found, enabled⟩, _, _, granted, rfl⟩ | rfl) | rfl,
      rfl, rfl⟩
    · exact .inl ⟨_, active, id, row, assigned, found, enabled, granted, rfl⟩
    · exact .inr (.inl ⟨rfl, rfl⟩)
    · exact .inr (.inr ⟨rfl, rfl⟩)
  · rintro (⟨_, _, id, row, assigned, found, enabled, granted, _⟩ | ⟨rfl, rfl⟩ | ⟨rfl, rfl⟩)
    · exact ⟨⟨permission, id, scope⟩, .inl (.inl ⟨id, row, ⟨assigned, found, enabled⟩, permission,
        scope, granted, rfl⟩), rfl, rfl⟩
    · exact ⟨_, .inl (.inr rfl), rfl, rfl⟩
    · exact ⟨_, .inr rfl, rfl, rfl⟩

end Grants

/-! ## The summary against what is enforced -/

/-- The devices, by site and creator, that a reported policy covers for the caller. -/
def CurrentDataPolicy.Covers (policy : CurrentDataPolicy) (user site creator : String) : Prop :=
  match policy.scope with
  | .all => True
  | .sites => site ∈ policy.siteIds
  | .self => creator = user
  | .none => False

/-- The devices that a resolved scope reaches. -/
def EffectiveBusinessScope.Reaches (scope : EffectiveBusinessScope) (user site creator : String) :
    Prop :=
  (scope.policyBound = true → site ∈ scope.policySiteIds) ∧
    (scope.all = true ∨ (scope.sites = true ∧ site ∈ scope.memberSiteIds) ∨
      (scope.self = true ∧ creator = user))

/-- A reported policy covers nothing beyond what is enforced, and is empty where the
resolution fails. -/
def Truthful (db : Db) (principal : Principal) (now : Instant) (policy : CurrentDataPolicy) :
    Prop :=
  match db.resolveBusinessScope principal.tenantId principal.userId policy.permission now with
  | .ok scope => ∀ site creator, policy.Covers (trimSpace principal.userId) site creator →
      scope.Reaches (trimSpace principal.userId) site creator
  | .error _ => policy.scope = .none

/-- When the summary is truthful about a permission, by the widest scope it reports. -/
structure Backed (db : Db) (tenant user permission : String) (now : Instant) : Prop where
  all : Held db tenant user permission .all ∨ permission = brandingPermission →
    trimSpace permission ≠ "" ∧ Held db tenant user permission .all ∧
      ∀ policy, ¬Binds db tenant user permission policy
  sites : ¬Held db tenant user permission .all → permission ≠ brandingPermission →
    Held db tenant user permission .sites → trimSpace permission ≠ "" ∧
      (∀ policy, Binds db tenant user permission policy → InEffect db tenant policy now) ∧
      ∀ site, Key.memberSite tenant user site ∈ db → MemberSite db tenant user site ∧
        ∀ policy, Binds db tenant user permission policy → Key.policySite tenant policy site ∈ db
  self : ¬Held db tenant user permission .all → permission ≠ brandingPermission →
    ¬Held db tenant user permission .sites →
    Held db tenant user permission .self ∨ permission = personalProfilePermission →
    trimSpace permission ≠ "" ∧ Held db tenant user permission .self ∧
      ∀ policy, ¬Binds db tenant user permission policy

theorem exists_other (values : List String) : ∃ value, value ∉ values := by
  obtain ⟨value, outside⟩ := Infinite.exists_notMem_finset values.toFinset
  exact ⟨value, fun listed => outside (List.mem_toFinset.mpr listed)⟩

section Reach

variable {scope : EffectiveBusinessScope} {user : String}

/-- No list of sites has them all. -/
theorem reaches_own : (∀ site, scope.Reaches user site user) ↔
    scope.policyBound = false ∧ (scope.all = true ∨ scope.self = true) := by
  constructor
  · intro reaches
    obtain ⟨site, outside⟩ := exists_other (scope.memberSiteIds ++ scope.policySiteIds)
    simp only [List.mem_append, not_or] at outside
    obtain ⟨bounded, eligible⟩ := reaches site
    constructor
    · rw [← Bool.not_eq_true]
      exact fun bound => outside.2 (bounded bound)
    · rcases eligible with all | sited | own
      · exact .inl all
      · exact absurd sited.2 outside.1
      · exact .inr own.1
  · rintro ⟨free, eligible⟩ site
    refine ⟨fun bound => ?_, eligible.imp_right fun own => .inr ⟨own, rfl⟩⟩
    rw [free] at bound
    cases bound

theorem reaches_all : (∀ site creator, scope.Reaches user site creator) ↔
    scope.policyBound = false ∧ scope.all = true := by
  constructor
  · intro reaches
    refine ⟨(reaches_own.mp fun site => reaches site user).1, ?_⟩
    obtain ⟨site, outside⟩ := exists_other scope.memberSiteIds
    obtain ⟨creator, stranger⟩ := exists_other [user]
    rcases (reaches site creator).2 with all | sited | own
    · exact all
    · exact absurd sited.2 outside
    · exact absurd own.2 (mt List.mem_singleton.mpr stranger)
  · rintro ⟨free, all⟩ site creator
    refine ⟨fun bound => ?_, .inl all⟩
    rw [free] at bound
    cases bound

/-- A site is reached whoever created the device. -/
theorem reaches_site {site : String} : (∀ creator, scope.Reaches user site creator) ↔
    (scope.policyBound = true → site ∈ scope.policySiteIds) ∧
      (scope.all = true ∨ (scope.sites = true ∧ site ∈ scope.memberSiteIds)) := by
  constructor
  · intro reaches
    obtain ⟨creator, stranger⟩ := exists_other [user]
    refine ⟨(reaches creator).1, ?_⟩
    rcases (reaches creator).2 with all | sited | own
    · exact .inl all
    · exact .inr sited
    · exact absurd own.2 (mt List.mem_singleton.mpr stranger)
  · rintro ⟨bounded, eligible⟩ creator
    exact ⟨bounded, eligible.imp_right .inl⟩

end Reach

section Truth

variable {db : Db} {principal : Principal} {now : Instant} {policy : CurrentDataPolicy}

theorem resolveBusinessScope_named {tenantId userId permission : String}
    {scope : EffectiveBusinessScope}
    (resolved : db.resolveBusinessScope tenantId userId permission now = .ok scope) :
    trimSpace permission ≠ "" := by
  obtain ⟨_, checked, _⟩ := bind_ok.mp resolved
  exact (require_ok.mp checked).2.2

/-- A report of some scope is truthful when the resolution succeeds with a scope that
reaches what the report covers. -/
theorem truthful_iff (reported : policy.scope ≠ .none) : Truthful db principal now policy ↔
    ∃ scope, db.resolveBusinessScope principal.tenantId principal.userId policy.permission now =
        .ok scope ∧
      ∀ site creator, policy.Covers (trimSpace principal.userId) site creator →
        scope.Reaches (trimSpace principal.userId) site creator := by
  unfold Truthful
  cases db.resolveBusinessScope principal.tenantId principal.userId policy.permission now with
  | error failure =>
    constructor
    · exact fun none => absurd none reported
    · rintro ⟨_, resolved, _⟩
      cases resolved
  | ok scope =>
    constructor
    · exact fun reaches => ⟨scope, rfl, reaches⟩
    · rintro ⟨_, resolved, reaches⟩
      cases resolved
      exact reaches

theorem truthful_none (reported : policy.scope = .none) : Truthful db principal now policy := by
  unfold Truthful
  split
  · intro site creator covered
    rw [CurrentDataPolicy.Covers, reported] at covered
    exact covered.elim
  · exact reported

variable {tenant user : String} (home : trimSpace principal.tenantId = tenant)
  (caller : trimSpace principal.userId = user) (named : tenant ≠ "" ∧ user ≠ "")

include home caller named

/-- A report whose covers are reached iff nothing bounds the scope and a flag of it is set. -/
theorem truthful_unbound {flag : EffectiveBusinessScope → Prop} {held : Prop}
    (reported : policy.scope ≠ .none)
    (reaches : ∀ scope : EffectiveBusinessScope, (∀ site creator, policy.Covers user site creator →
      scope.Reaches user site creator) ↔ scope.policyBound = false ∧ flag scope)
    (flags : ∀ scope, Resolved db tenant user policy.permission now scope → (flag scope ↔ held)) :
    Truthful db principal now policy ↔ trimSpace policy.permission ≠ "" ∧ held ∧
      ∀ other, ¬Binds db tenant user policy.permission other := by
  subst home caller
  rw [truthful_iff reported]
  simp only [reaches]
  constructor
  · rintro ⟨scope, resolved, free, flagged⟩
    have holds := resolveBusinessScope_ok resolved
    refine ⟨resolveBusinessScope_named resolved, (flags scope holds).mp flagged, ?_⟩
    intro other binds
    have bound := holds.bound.mpr ⟨other, binds⟩
    rw [free] at bound
    cases bound
  · rintro ⟨usable, held, unbound⟩
    obtain ⟨scope, resolved⟩ := (resolveBusinessScope_isOk ⟨named.1, named.2, usable⟩).mpr
      fun other binds => absurd binds (unbound other)
    have holds := resolveBusinessScope_ok resolved
    refine ⟨scope, resolved, ?_, (flags scope holds).mpr held⟩
    rw [← Bool.not_eq_true]
    intro bound
    obtain ⟨other, binds⟩ := holds.bound.mp bound
    exact unbound other binds

theorem truthful_all (reported : policy.scope = .all) : Truthful db principal now policy ↔
    trimSpace policy.permission ≠ "" ∧ Held db tenant user policy.permission .all ∧
      ∀ other, ¬Binds db tenant user policy.permission other :=
  truthful_unbound home caller named (reported ▸ DataScope.noConfusion)
    (fun scope => by simpa [CurrentDataPolicy.Covers, reported] using reaches_all)
    fun scope holds => holds.all

theorem truthful_self (reported : policy.scope = .self)
    (narrow : ¬Held db tenant user policy.permission .all) : Truthful db principal now policy ↔
    trimSpace policy.permission ≠ "" ∧ Held db tenant user policy.permission .self ∧
      ∀ other, ¬Binds db tenant user policy.permission other :=
  truthful_unbound home caller named (reported ▸ DataScope.noConfusion)
    (fun scope => by simpa [CurrentDataPolicy.Covers, reported] using reaches_own)
    fun scope holds => (or_iff_right (mt holds.all.mp narrow)).trans holds.self

theorem truthful_sites (reported : policy.scope = .sites)
    (narrow : ¬Held db tenant user policy.permission .all)
    (held : Held db tenant user policy.permission .sites) : Truthful db principal now policy ↔
    trimSpace policy.permission ≠ "" ∧
      (∀ other, Binds db tenant user policy.permission other → InEffect db tenant other now) ∧
      ∀ site ∈ policy.siteIds, MemberSite db tenant user site ∧
        ∀ other, Binds db tenant user policy.permission other →
          Key.policySite tenant other site ∈ db := by
  subst home caller
  rw [truthful_iff (reported ▸ DataScope.noConfusion)]
  simp only [CurrentDataPolicy.Covers, reported]
  constructor
  · rintro ⟨scope, resolved, reaches⟩
    have holds := resolveBusinessScope_ok resolved
    refine ⟨resolveBusinessScope_named resolved, holds.effective, fun site listed => ?_⟩
    obtain ⟨bounded, eligible⟩ := reaches_site.mp fun creator => reaches site creator listed
    constructor
    · rcases eligible with all | sited
      · exact absurd (holds.all.mp all) narrow
      · exact (holds.memberSites site).mp sited.2
    · intro other binds
      have bound := holds.bound.mpr ⟨other, binds⟩
      exact ((holds.ceiling bound site).mp (bounded bound)).2 other binds
  · rintro ⟨usable, effective, inside⟩
    obtain ⟨scope, resolved⟩ :=
      (resolveBusinessScope_isOk ⟨named.1, named.2, usable⟩).mpr effective
    have holds := resolveBusinessScope_ok resolved
    refine ⟨scope, resolved, fun site creator listed => ?_⟩
    apply reaches_site.mpr
    constructor
    · exact fun bound => (holds.ceiling bound site).mpr (inside site listed)
    · exact .inr ⟨holds.sites.mpr held, (holds.memberSites site).mpr (inside site listed).1⟩

end Truth

/-! ## The result -/

/-- What a summary that is returned says about one permission. -/
theorem currentAuthorization_ok {digest : PermissionDocument → String} {db : Db}
    {principal : Principal} {subject : String} {snapshot : CurrentAuthorizationSnapshot}
    (returned : currentAuthorization digest db principal subject = .ok snapshot) :
    (trimSpace principal.tenantId ≠ "" ∧ trimSpace principal.userId ≠ "") ∧
      db.activeAccount (trimSpace principal.tenantId) (trimSpace principal.userId) = true ∧
      snapshot.dataPolicies = effectiveDataPolicies
        (db.resolveCurrentGrants (trimSpace principal.tenantId) (trimSpace principal.userId))
        (db.resolveMemberSites (trimSpace principal.tenantId) (trimSpace principal.userId)) := by
  simp only [currentAuthorization] at returned
  obtain ⟨_, _, first⟩ := bind_ok.mp returned
  obtain ⟨_, named, second⟩ := bind_ok.mp first
  obtain ⟨_, member, third⟩ := bind_ok.mp second
  obtain ⟨_, _, last⟩ := bind_ok.mp third
  rw [← pure_ok.mp last]
  refine ⟨require_ok.mp named,
    (Option.filter_eq_some_iff.mp (found_ok.mp member)).2, ?_⟩
  dsimp only

/-- A scope that a stored or an implicit grant gives. -/
def Offered (db : Db) (tenant user permission : String) (scope : DataScope) : Prop :=
  Held db tenant user permission scope ∨ Implicit permission scope

section Summary

attribute [local irreducible] trimSpace

variable {digest : PermissionDocument → String} {db : Db} {principal : Principal}
  {subject permission tenant user : String} {snapshot : CurrentAuthorizationSnapshot}

/-- The reported policies, in terms of the tables. -/
theorem mem_dataPolicies (home : trimSpace principal.tenantId = tenant)
    (caller : trimSpace principal.userId = user)
    (returned : currentAuthorization digest db principal subject = .ok snapshot)
    {policy : CurrentDataPolicy} : policy ∈ snapshot.dataPolicies ↔
      Offered db tenant user policy.permission policy.scope ∧
        (∀ scope, Offered db tenant user policy.permission scope →
          scope.rank ≤ policy.scope.rank) ∧
        policy.siteIds =
          if policy.scope = .sites then db.resolveMemberSites tenant user else [] := by
  obtain ⟨named, active, policies⟩ := currentAuthorization_ok returned
  rw [home, caller] at named active policies
  have offers : ∀ scope, (∃ grant ∈ db.resolveCurrentGrants tenant user,
      grant.permission = policy.permission ∧ grant.scope = scope) ↔
      Offered db tenant user policy.permission scope := by
    intro scope
    have grants := @exists_resolveCurrentGrants db tenant user policy.permission scope
    rw [← home, ← caller, trimSpace_trimSpace, trimSpace_trimSpace, home, caller]
      at grants
    exact grants named active
  rw [policies, mem_effectiveDataPolicies, Widest, offers, and_assoc]
  refine and_congr_right fun _ => and_congr_left fun _ => ?_
  constructor
  · intro above scope offered
    obtain ⟨grant, listed, named, rfl⟩ := (offers scope).mpr offered
    exact above grant listed named
  · intro above grant listed named
    exact above grant.scope ((offers grant.scope).mp ⟨grant, listed, named, rfl⟩)

theorem mem_resolveMemberSites {site : String}
    (named : trimSpace tenant ≠ "" ∧ trimSpace user ≠ "") :
    site ∈ db.resolveMemberSites (trimSpace tenant) (trimSpace user) ↔
      Key.memberSite (trimSpace tenant) (trimSpace user) site ∈ db := by
  rw [Db.resolveMemberSites, trimSpace_trimSpace, trimSpace_trimSpace,
    if_neg (not_or.mpr named), List.mem_insertionSort, mem_sitesOf]

theorem offered_all :
    Offered db tenant user permission .all ↔
      Held db tenant user permission .all ∨ permission = brandingPermission := by
  simp [Offered, Implicit]

theorem offered_sites :
    Offered db tenant user permission .sites ↔ Held db tenant user permission .sites := by
  simp [Offered, Implicit]

theorem offered_self :
    Offered db tenant user permission .self ↔
      Held db tenant user permission .self ∨ permission = personalProfilePermission := by
  simp [Offered, Implicit]

/-- The summary promises nothing about a permission beyond what is enforced exactly when
the widest scope is backed. -/
theorem summary_truthful_iff
    (returned : currentAuthorization digest db principal subject = .ok snapshot)
    (permission : String) (now : Instant) :
    (∀ policy ∈ snapshot.dataPolicies, policy.permission = permission →
        Truthful db principal now policy) ↔
      Backed db (trimSpace principal.tenantId) (trimSpace principal.userId) permission now := by
  obtain ⟨named, _, _⟩ := currentAuthorization_ok returned
  have sites := @mem_resolveMemberSites db principal.tenantId principal.userId
  generalize home : trimSpace principal.tenantId = tenant at named sites ⊢
  generalize caller : trimSpace principal.userId = user at named sites ⊢
  constructor
  · intro truthful
    have told : ∀ scope, Offered db tenant user permission scope →
        (∀ other, Offered db tenant user permission other → other.rank ≤ scope.rank) →
        ∃ policy, policy.permission = permission ∧ policy.scope = scope ∧
          (policy.siteIds =
            if policy.scope = .sites then db.resolveMemberSites tenant user else []) ∧
          Truthful db principal now policy := by
      intro scope offered above
      have made : ∀ sites, ∃ policy : CurrentDataPolicy, policy.permission = permission ∧
          policy.scope = scope ∧ policy.siteIds = sites :=
        fun sites => ⟨⟨permission, scope, sites⟩, rfl, rfl, rfl⟩
      obtain ⟨policy, rfl, rfl, sited⟩ := made
        (if scope = .sites then db.resolveMemberSites tenant user else [])
      have listed := (mem_dataPolicies home caller returned).mpr ⟨offered, above, sited⟩
      exact ⟨policy, rfl, rfl, sited, truthful policy listed rfl⟩
    constructor
    case all =>
      intro offered
      obtain ⟨policy, rfl, reported, _, holds⟩ := told .all (offered_all.mpr offered)
        fun other _ => by cases other <;> decide
      exact (truthful_all home caller named reported).mp holds
    case sites =>
      intro narrow other held
      obtain ⟨policy, rfl, reported, sited, holds⟩ := told .sites (offered_sites.mpr held)
        fun scope offered => by
          cases scope with
          | all => exact absurd (offered_all.mp offered) (not_or.mpr ⟨narrow, other⟩)
          | _ => decide
      obtain ⟨usable, effective, inside⟩ :=
        (truthful_sites home caller named reported narrow held).mp holds
      rw [sited, if_pos reported] at inside
      exact ⟨usable, effective,
        fun site there => inside site ((sites named).mpr there)⟩
    case self =>
      intro narrow other unsited offered
      obtain ⟨policy, rfl, reported, _, holds⟩ := told .self (offered_self.mpr offered)
        fun scope offered => by
          cases scope with
          | all => exact absurd (offered_all.mp offered) (not_or.mpr ⟨narrow, other⟩)
          | sites => exact absurd (offered_sites.mp offered) unsited
          | _ => decide
      exact (truthful_self home caller named reported narrow).mp holds
  · rintro backed policy listed rfl
    obtain ⟨offered, above, sited⟩ := (mem_dataPolicies home caller returned).mp listed
    have below : ∀ scope, policy.scope.rank < scope.rank →
        ¬Offered db tenant user policy.permission scope :=
      fun scope wider offered => absurd (above scope offered) wider.not_ge
    cases scope : policy.scope with
    | none => exact truthful_none scope
    | all =>
      rw [scope] at offered
      exact (truthful_all home caller named scope).mpr (backed.all (offered_all.mp offered))
    | sites =>
      rw [scope] at offered sited below
      obtain ⟨narrow, other⟩ := not_or.mp (mt offered_all.mpr (below .all (by decide)))
      have held := offered_sites.mp offered
      obtain ⟨usable, effective, inside⟩ := backed.sites narrow other held
      refine (truthful_sites home caller named scope narrow held).mpr
        ⟨usable, effective, fun site there => ?_⟩
      rw [sited, if_pos rfl, sites named] at there
      exact inside site there
    | self =>
      rw [scope] at offered below
      obtain ⟨narrow, other⟩ := not_or.mp (mt offered_all.mpr (below .all (by decide)))
      have unsited := mt offered_sites.mpr (below .sites (by decide))
      exact (truthful_self home caller named scope narrow).mpr
        (backed.self narrow other unsited (offered_self.mp offered))

end Summary

section Sample

theorem governor_trimmed : trimSpace governor.tenantId = "t" ∧ trimSpace governor.userId = "u" := by
  decide +kernel

/-- The summary reports the permission with scope all although a policy limits it to one
site. -/
theorem summary_ignores_policy : ∃ snapshot policy,
    currentAuthorization (fun _ => "") governed governor "user:u" = .ok snapshot ∧
      policy ∈ snapshot.dataPolicies ∧ policy.permission = "device.read" ∧
      ¬Truthful governed governor 0 policy := by
  have checked : (currentAuthorization (fun _ => "") governed governor "user:u").toOption.any
      (fun snapshot => decide (⟨"device.read", .all, []⟩ ∈ snapshot.dataPolicies)) = true := by
    decide +kernel
  obtain ⟨snapshot, returned, seen⟩ := (Option.any_eq_true _ _).mp checked
  have binds : Binds governed "t" "u" "device.read" "p" := by
    have rows : governed.activeAccount "t" "u" = true ∧ Key.memberRole "t" "u" "r" ∈ governed ∧
        governed.role? "t" "r" = some ⟨"t", "reader", "", none, false, some "p", .active, 2⟩ ∧
        governed.lookup (.grant "t" "r" "device.read") = some .all := by
      decide +kernel
    obtain ⟨active, assigned, found, granted⟩ := rows
    exact ⟨.all, ⟨active, "r", _, assigned, found, rfl, granted, rfl⟩, DataScope.noConfusion⟩
  refine ⟨snapshot, _, toOption_some.mp returned, of_decide_eq_true seen, rfl, ?_⟩
  intro truthful
  obtain ⟨_, _, unbound⟩ := (truthful_all governor_trimmed.1 governor_trimmed.2 (by decide) rfl).mp
    truthful
  exact unbound "p" binds

/-- The same tables with a role that references no policy. -/
def ungoverned : Db :=
  overlay governed [⟨.role "r", some ⟨"t", "reader", "", none, false, none, .active, 2⟩⟩]

theorem ungoverned_unbound (permission policy : String) :
    ¬Binds ungoverned "t" "u" permission policy := by
  rintro ⟨_, ⟨_, id, _, assigned, found, _, _, referenced⟩, _⟩
  have rows : ungoverned.rolesOf "t" "u" = ["r"] ∧
      ungoverned.role? "t" "r" = some ⟨"t", "reader", "", none, false, none, .active, 2⟩ := by
    decide +kernel
  have listed := mem_rolesOf.mpr assigned
  rw [rows.1, List.mem_singleton] at listed
  subst listed
  rw [rows.2] at found
  cases found
  cases referenced

theorem ungoverned_summary_truthful : ∃ snapshot,
    currentAuthorization (fun _ => "") ungoverned governor "user:u" = .ok snapshot ∧
      ∀ policy ∈ snapshot.dataPolicies, policy.permission = "device.read" →
        Truthful ungoverned governor 0 policy := by
  have checked : (currentAuthorization (fun _ => "") ungoverned governor "user:u").isOk = true ∧
      ungoverned.activeAccount "t" "u" = true ∧ Key.memberRole "t" "u" "r" ∈ ungoverned ∧
      ungoverned.role? "t" "r" = some ⟨"t", "reader", "", none, false, none, .active, 2⟩ ∧
      ungoverned.lookup (.grant "t" "r" "device.read") = some .all := by
    decide +kernel
  obtain ⟨returned, active, assigned, found, granted⟩ := checked
  have held : Held ungoverned "t" "u" "device.read" .all :=
    ⟨none, active, "r", _, assigned, found, rfl, granted, rfl⟩
  have backed : Backed ungoverned "t" "u" "device.read" 0 := by
    have usable : trimSpace "device.read" ≠ "" := by decide +kernel
    constructor
    · exact fun _ => ⟨usable, held, ungoverned_unbound _⟩
    · exact fun narrow => absurd held narrow
    · exact fun narrow => absurd held narrow
  cases outcome : currentAuthorization (fun _ => "") ungoverned governor "user:u" with
  | error failure =>
    rw [outcome] at returned
    cases returned
  | ok snapshot =>
    refine ⟨snapshot, rfl, (summary_truthful_iff outcome "device.read" 0).mpr ?_⟩
    rw [governor_trimmed.1, governor_trimmed.2]
    exact backed

end Sample

end Biz.Access
