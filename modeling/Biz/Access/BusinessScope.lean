import Biz.Access.Roles

/-!
# The business scope of a permission

What a member may reach with a permission: the union of the scopes that their active
roles grant it with, and the ceiling that the data policies of those roles put on it.
A policy that is missing or not in effect refuses the permission altogether. The
resolver reads one snapshot of the tables.

The second half says what this computes in terms of the tables: which grants a member
has, which policies bind them and which sites are left.
-/

namespace Biz.Access

open Checks Text
open Time (Instant)

structure DataPolicy where
  id : String
  tenantId : String
  status : PolicyStatus
  version : Nat
  notBefore : Option Instant
  expiresAt : Option Instant
  siteIds : List String

/-- `EffectiveAt`. -/
def DataPolicy.effectiveAt (policy : DataPolicy) (now : Instant) : Bool :=
  policy.status = .active && policy.notBefore.all (· ≤ now) && policy.expiresAt.all (now < ·)

/-- A grant of the permission; the reference to a policy is blank when there is none. -/
structure BusinessScopeGrant where
  scope : DataScope
  policyId : String
  policy : Option DataPolicy

structure EffectiveBusinessScope where
  all : Bool
  self : Bool
  sites : Bool
  memberSiteIds : List String
  policyBound : Bool
  policySiteIds : List String

def normalizedBusinessSites (values : List String) : List String :=
  ((values.map trimSpace).filter (· ≠ "")).dedup.insertionSort (· ≤ ·)

def intersectBusinessSites (left right : List String) : List String := left.filter (· ∈ right)

/-- The scope of a grant is added to what the member may reach; none adds nothing. -/
def EffectiveBusinessScope.add (result : EffectiveBusinessScope) :
    DataScope → Option EffectiveBusinessScope
  | .all => some { result with all := true }
  | .self => some { result with self := true }
  | .sites => some { result with sites := true }
  | .none => none

variable (tenantId : String)

/-- The policy that a grant references: it must be there, be the tenant's and in effect. -/
def BusinessScopeGrant.checkPolicy (now : Instant) (grant : BusinessScopeGrant) :
    Except Failure DataPolicy := do
  let policy ← found Failure.invalidPolicy grant.policy
  require .invalidPolicy (policy.id = grant.policyId ∧ tenantId ≠ "" ∧
    policy.tenantId = tenantId ∧ policy.version ≠ 0)
  require .invalidPolicy (policy.effectiveAt now = true)
  return policy

/-- One round of the loop over the grants. -/
def admitGrant (now : Instant)
    (state : EffectiveBusinessScope × List String) (grant : BusinessScopeGrant) :
    Except Failure (EffectiveBusinessScope × List String) :=
  match state.1.add grant.scope with
  | none => .ok state
  | some result =>
    if grant.policyId = "" then .ok (result, state.2)
    else do
      let policy ← grant.checkPolicy tenantId now
      return ({ result with policyBound := true }, intersectBusinessSites state.2 policy.siteIds)

variable (grants : List BusinessScopeGrant)

def resolveEffectiveBusinessScope
    (memberSites : List String) (now : Instant) : Except Failure EffectiveBusinessScope := do
  let sites := normalizedBusinessSites memberSites
  let (result, ceiling) ← grants.foldlM (admitGrant tenantId now)
    (⟨false, false, false, sites, false, []⟩, sites)
  return { result with policySiteIds := if result.policyBound then ceiling else [] }

namespace Db

variable (db : Db)

/-- An active user with an active membership of an active tenant. -/
def activeAccount (tenant user : String) : Bool :=
  (db.lookup (.tenant tenant)).any (fun row => row.status = .active) &&
    (db.user? user).any (fun row => row.active) && db.activeMember tenant user

/-- The active roles of a member, by their identifiers. -/
def activeRoles (tenant user : String) : List (String × RoleRecord) :=
  ((db.rolesOf tenant user).insertionSort (· ≤ ·)).filterMap fun id =>
    ((db.role? tenant id).filter fun row => row.status = .active).map fun row => (id, row)

/-- The sites of a policy. -/
def policySitesOf (tenant policy : String) : List String :=
  db.select fun
    | .policySite tenant' policy' site =>
      if tenant' = tenant ∧ policy' = policy then some site else none
    | _ => none

/-- The policy that a role references, as it is joined. -/
def dataPolicy? (tenant id : String) : Option DataPolicy :=
  (db.lookup (.policy tenant id)).map fun row =>
    ⟨id, tenant, row.status, row.version, row.notBefore, row.expiresAt, db.policySitesOf tenant id⟩

/-- The rows of the join: the grants of a permission by the active roles of a member. -/
def businessScopeGrants (tenant user permission : String) : List BusinessScopeGrant :=
  if db.activeAccount tenant user = true then
    (db.activeRoles tenant user).filterMap fun (id, row) =>
      (db.lookup (.grant tenant id permission)).map fun scope =>
        ⟨scope, row.dataPolicyId.getD "", row.dataPolicyId.bind (db.dataPolicy? tenant)⟩
  else []

/-- `ResolveBusinessScope`. -/
def resolveBusinessScope (tenantId userId permission : String) (now : Instant) :
    Except Failure EffectiveBusinessScope := do
  let tenant := trimSpace tenantId
  let user := trimSpace userId
  require .unauthorized (tenant ≠ "" ∧ user ≠ "" ∧ trimSpace permission ≠ "")
  resolveEffectiveBusinessScope tenant (db.businessScopeGrants tenant user permission)
    (db.sitesOf tenant user) now

end Db

/-! ## The loop in closed form -/

/-- A grant of some scope that is bound by a policy. -/
def BusinessScopeGrant.binding (grant : BusinessScopeGrant) : Bool :=
  grant.scope ≠ .none && grant.policyId ≠ ""

/-- The policy of a binding grant passes its check. -/
def BusinessScopeGrant.valid (now : Instant) (grant : BusinessScopeGrant) : Bool :=
  !grant.binding || (grant.checkPolicy tenantId now).isOk

/-- A site passes the policy of a grant. -/
def BusinessScopeGrant.passes (grant : BusinessScopeGrant) (site : String) : Bool :=
  !grant.binding || grant.policy.any fun policy => decide (site ∈ policy.siteIds)

/-- What a list of grants adds to a scope. -/
def EffectiveBusinessScope.join (result : EffectiveBusinessScope)
    (grants : List BusinessScopeGrant) : EffectiveBusinessScope :=
  { result with
    all := result.all || grants.any fun grant => grant.scope = .all
    self := result.self || grants.any fun grant => grant.scope = .self
    sites := result.sites || grants.any fun grant => grant.scope = .sites
    policyBound := result.policyBound || grants.any BusinessScopeGrant.binding }

open BusinessScopeGrant EffectiveBusinessScope

section Closed

variable {tenantId : String} {now : Instant} {grant : BusinessScopeGrant}

theorem checkPolicy_ok {policy : DataPolicy} :
    grant.checkPolicy tenantId now = .ok policy ↔ grant.policy = some policy ∧
      (policy.id = grant.policyId ∧ tenantId ≠ "" ∧ policy.tenantId = tenantId ∧
        policy.version ≠ 0) ∧ policy.effectiveAt now = true := by
  unfold BusinessScopeGrant.checkPolicy
  constructor
  · intro passed
    obtain ⟨found, there, first⟩ := bind_ok.mp passed
    obtain ⟨_, same, second⟩ := bind_ok.mp first
    obtain ⟨_, effective, returned⟩ := bind_ok.mp second
    cases returned
    exact ⟨found_ok.mp there, require_ok.mp same, require_ok.mp effective⟩
  · rintro ⟨there, same, effective⟩
    rw [there, found, ok_bind, require_pos same, ok_bind,
      require_pos effective]
    rfl

theorem checkPolicy_error {failure : Failure}
    (failed : grant.checkPolicy tenantId now = .error failure) : failure = .invalidPolicy := by
  rcases bind_error.mp failed with missing | ⟨policy, _, later⟩
  · cases there : grant.policy with
    | none =>
      rw [there] at missing
      exact (Except.error.inj missing).symm
    | some policy =>
      rw [there] at missing
      cases missing
  · rcases bind_error.mp later with foreign | ⟨_, _, last⟩
    · exact (require_error.mp foreign).2.symm
    · rcases bind_error.mp last with ineffective | ⟨_, _, none⟩
      · exact (require_error.mp ineffective).2.symm
      · cases none

/-- A grant that no policy binds only adds its scope. -/
theorem admitGrant_free (free : grant.binding = false)
    (state : EffectiveBusinessScope × List String) :
    admitGrant tenantId now state grant = .ok (state.1.join [grant], state.2) := by
  obtain ⟨scope, policyId, policy⟩ := grant
  cases scope <;>
    simp_all [admitGrant, add, join,
      binding]

/-- A grant that a policy binds lowers the ceiling, or refuses the permission. -/
theorem admitGrant_bound (bound : grant.binding = true)
    (state : EffectiveBusinessScope × List String) :
    admitGrant tenantId now state grant = grant.checkPolicy tenantId now >>= fun policy =>
      .ok (state.1.join [grant], intersectBusinessSites state.2 policy.siteIds) := by
  obtain ⟨scope, policyId, policy⟩ := grant
  cases scope <;>
    simp_all [admitGrant, add, join,
      binding] <;> rfl

/-- One round, for a grant of either kind. -/
theorem admitGrant_eq (state : EffectiveBusinessScope × List String) (grant : BusinessScopeGrant) :
    admitGrant tenantId now state grant =
      if grant.valid tenantId now = true then
        .ok (state.1.join [grant], state.2.filter grant.passes)
      else .error .invalidPolicy := by
  cases bound : grant.binding with
  | false =>
    have all : state.2.filter grant.passes = state.2 := by
      simp [passes, bound]
    rw [admitGrant_free bound, valid, bound, all]
    rfl
  | true =>
    rw [admitGrant_bound bound, valid, bound]
    cases checked : grant.checkPolicy tenantId now with
    | error failure =>
      rw [checkPolicy_error checked]
      rfl
    | ok policy =>
      have passes : state.2.filter grant.passes = intersectBusinessSites state.2
        policy.siteIds := by
        apply List.filter_congr
        intro site _
        simp [passes, bound, (checkPolicy_ok.mp checked).1]
      rw [passes]
      rfl

theorem join_nil (result : EffectiveBusinessScope) : result.join [] = result := by
  simp [join]

theorem join_cons (result : EffectiveBusinessScope) (grant : BusinessScopeGrant)
    (rest : List BusinessScopeGrant) :
    (result.join [grant]).join rest = result.join (grant :: rest) := by
  simp [join, Bool.or_assoc]

/-- The loop over the grants. -/
theorem foldlM_admitGrant (grants : List BusinessScopeGrant)
    (state : EffectiveBusinessScope × List String) :
    grants.foldlM (admitGrant tenantId now) state =
      if grants.all (valid tenantId now) = true then
        .ok (state.1.join grants, state.2.filter fun site => grants.all fun grant =>
          grant.passes site)
      else .error .invalidPolicy := by
  induction grants generalizing state with
  | nil => simp [join_nil]
  | cons grant rest ih =>
    rw [List.foldlM_cons, admitGrant_eq]
    cases valid : grant.valid tenantId now with
    | false => simp [valid, error_bind]
    | true =>
      rw [if_pos rfl, ok_bind, ih, join_cons, List.filter_filter]
      simp [valid, Bool.and_comm]

end Closed

/-- What a member reaches whose grants are all valid. -/
def effectiveBusinessScope (memberSites : List String) : EffectiveBusinessScope :=
  let sites := normalizedBusinessSites memberSites
  { all := grants.any fun grant => grant.scope = .all
    self := grants.any fun grant => grant.scope = .self
    sites := grants.any fun grant => grant.scope = .sites
    memberSiteIds := sites
    policyBound := grants.any binding
    policySiteIds := if grants.any binding then
        sites.filter fun site => grants.all fun grant => grant.passes site
      else [] }

theorem resolveEffectiveBusinessScope_eq (tenantId : String) (grants : List BusinessScopeGrant)
    (memberSites : List String) (now : Instant) :
    resolveEffectiveBusinessScope tenantId grants memberSites now =
      if grants.all (valid tenantId now) = true then
        .ok (effectiveBusinessScope grants memberSites)
      else .error .invalidPolicy := by
  simp only [resolveEffectiveBusinessScope, foldlM_admitGrant]
  split
  · simp [join, effectiveBusinessScope]
  · rfl

/-! ## In terms of the tables -/

/-- An active role of the member grants the permission with this scope, under a policy or
under none. -/
def Grants (db : Db) (tenant user permission : String) (scope : DataScope)
    (reference : Option String) : Prop :=
  db.activeAccount tenant user = true ∧ ∃ id row, Key.memberRole tenant user id ∈ db ∧
    db.role? tenant id = some row ∧ row.status = .active ∧
    db.lookup (.grant tenant id permission) = some scope ∧
    row.dataPolicyId.filter (· ≠ "") = reference

/-- A grant of the member that gives access and is bound by a policy. -/
def Binds (db : Db) (tenant user permission policy : String) : Prop :=
  ∃ scope, Grants db tenant user permission scope (some policy) ∧ scope ≠ .none

/-- The tenant has the policy, and it is in effect at the instant. -/
def InEffect (db : Db) (tenant policy : String) (now : Instant) : Prop :=
  ∃ row, db.lookup (.policy tenant policy) = some row ∧ row.status = .active ∧
    (∀ start ∈ row.notBefore, start ≤ now) ∧ ∀ finish ∈ row.expiresAt, now < finish

/-- A site of the member; a blank one counts for none. -/
def MemberSite (db : Db) (tenant user site : String) : Prop :=
  ∃ raw, Key.memberSite tenant user raw ∈ db ∧ trimSpace raw = site ∧ site ≠ ""

section Tables

variable {db : Db} {tenant user permission site : String} {now : Instant}
  {property : String → Option DataPolicy → Prop}

theorem mem_policySitesOf {policy : String} :
    site ∈ db.policySitesOf tenant policy ↔ Key.policySite tenant policy site ∈ db :=
  mem_select (fun site => .policySite tenant policy site) fun key value => by
    cases key <;> grind

theorem mem_activeRoles {id : String} {row : RoleRecord} :
    (id, row) ∈ db.activeRoles tenant user ↔ Key.memberRole tenant user id ∈ db ∧
      db.role? tenant id = some row ∧ row.status = .active := by
  simp only [Db.activeRoles, List.mem_filterMap, List.mem_insertionSort, Option.map_eq_some_iff,
    Option.filter_eq_some_iff, decide_eq_true_eq, Prod.mk.injEq]
  constructor
  · rintro ⟨_, assigned, _, there, rfl, rfl⟩
    exact ⟨mem_rolesOf.mp assigned, there⟩
  · rintro ⟨assigned, there⟩
    exact ⟨id, mem_rolesOf.mpr assigned, row, there, rfl, rfl⟩

theorem mem_businessScopeGrants {grant : BusinessScopeGrant} :
    grant ∈ db.businessScopeGrants tenant user permission ↔ db.activeAccount tenant user = true ∧
      ∃ id row, Key.memberRole tenant user id ∈ db ∧ db.role? tenant id = some row ∧
        row.status = .active ∧ db.lookup (.grant tenant id permission) = some grant.scope ∧
        grant.policyId = row.dataPolicyId.getD "" ∧
        grant.policy = row.dataPolicyId.bind (db.dataPolicy? tenant) := by
  unfold Db.businessScopeGrants
  split
  · rename_i active
    simp only [active, true_and, List.mem_filterMap, Prod.exists, mem_activeRoles,
      Option.map_eq_some_iff]
    constructor
    · rintro ⟨id, row, ⟨assigned, found, enabled⟩, scope, granted, rfl⟩
      exact ⟨id, row, assigned, found, enabled, granted, rfl, rfl⟩
    · rintro ⟨id, row, assigned, found, enabled, granted, reference, policy⟩
      exact ⟨id, row, ⟨assigned, found, enabled⟩, grant.scope, granted,
        by rw [← reference, ← policy]⟩
  · rename_i inactive
    simp [inactive]

/-- The scopes of the grants that the join finds. -/
theorem exists_scope {scope : DataScope} :
    (db.businessScopeGrants tenant user permission).any (fun grant => grant.scope = scope) = true ↔
      ∃ reference, Grants db tenant user permission scope reference := by
  simp only [List.any_eq_true, decide_eq_true_eq, mem_businessScopeGrants]
  constructor
  · rintro ⟨_, ⟨active, id, row, assigned, found, enabled, granted, _⟩, rfl⟩
    exact ⟨_, active, id, row, assigned, found, enabled, granted, rfl⟩
  · rintro ⟨_, active, id, row, assigned, found, enabled, granted, _⟩
    exact ⟨⟨scope, _, _⟩, ⟨active, id, row, assigned, found, enabled, granted, rfl, rfl⟩, rfl⟩

/-- The binding grants that the join finds, with the policies they are bound by. -/
theorem exists_binding :
    (∃ grant ∈ db.businessScopeGrants tenant user permission, grant.binding = true ∧
      property grant.policyId grant.policy) ↔
    ∃ policy, Binds db tenant user permission policy ∧
      property policy (db.dataPolicy? tenant policy) := by
  simp only [mem_businessScopeGrants, binding, Bool.and_eq_true,
    decide_eq_true_eq]
  constructor
  · rintro ⟨grant, ⟨active, id, row, assigned, found, enabled, granted, reference, joined⟩,
      ⟨usable, named⟩, holds⟩
    cases referenced : row.dataPolicyId with
    | none =>
      rw [referenced] at reference
      exact absurd reference named
    | some policy =>
      rw [referenced] at reference joined
      change grant.policyId = policy at reference
      rw [reference] at named
      rw [reference, joined] at holds
      refine ⟨policy,
        ⟨grant.scope, ⟨active, id, row, assigned, found, enabled, granted, ?_⟩, usable⟩,
        holds⟩
      simp [referenced, Option.filter, named]
  · rintro ⟨policy,
      ⟨scope, ⟨active, id, row, assigned, found, enabled, granted, reference⟩, usable⟩,
      holds⟩
    rw [Option.filter_eq_some_iff, decide_eq_true_eq] at reference
    obtain ⟨referenced, named⟩ := reference
    refine ⟨⟨scope, policy, db.dataPolicy? tenant policy⟩,
      ⟨active, id, row, assigned, found, enabled, granted, ?_, ?_⟩, ⟨usable, named⟩, holds⟩
    · rw [referenced]
      rfl
    · rw [referenced]
      rfl

theorem forall_binding :
    (∀ grant ∈ db.businessScopeGrants tenant user permission, grant.binding = true →
      property grant.policyId grant.policy) ↔
    ∀ policy, Binds db tenant user permission policy →
      property policy (db.dataPolicy? tenant policy) := by
  have failing := @exists_binding db tenant user permission fun policyId policy =>
    ¬property policyId policy
  rw [← not_iff_not]
  simp only [not_forall, exists_prop]
  exact failing

theorem policyBound_iff :
    (db.businessScopeGrants tenant user permission).any binding = true ↔
      ∃ policy, Binds db tenant user permission policy := by
  have bound := @exists_binding db tenant user permission fun _ _ => True
  simp only [and_true] at bound
  rw [← bound, List.any_eq_true]

/-- The check of a policy, in terms of its row. -/
theorem dataPolicy?_inEffect {policy : String} (named : tenant ≠ "") :
    (∃ found, db.dataPolicy? tenant policy = some found ∧ (found.id = policy ∧ tenant ≠ "" ∧
        found.tenantId = tenant ∧ found.version ≠ 0) ∧ found.effectiveAt now = true) ↔
      InEffect db tenant policy now := by
  simp only [Db.dataPolicy?, Option.map_eq_some_iff, InEffect]
  constructor
  · rintro ⟨_, ⟨row, found, rfl⟩, _, effective⟩
    simp only [DataPolicy.effectiveAt, Bool.and_eq_true, decide_eq_true_eq, Option.all_eq_true]
      at effective
    exact ⟨row, found, effective.1.1, effective.1.2, effective.2⟩
  · rintro ⟨row, found, active, started, running⟩
    refine ⟨_, ⟨row, found, rfl⟩, ⟨rfl, named, rfl, row.versioned⟩, ?_⟩
    simp only [DataPolicy.effectiveAt, Bool.and_eq_true, decide_eq_true_eq, Option.all_eq_true]
    exact ⟨⟨active, started⟩, running⟩

/-- The permission is not refused exactly when every policy that binds it is in effect. -/
theorem all_valid_iff (named : tenant ≠ "") :
    (db.businessScopeGrants tenant user permission).all
      (valid tenant now) = true ↔
      ∀ policy, Binds db tenant user permission policy → InEffect db tenant policy now := by
  have checked := @forall_binding db tenant user permission fun policyId policy =>
    ∃ found, policy = some found ∧ (found.id = policyId ∧ tenant ≠ "" ∧ found.tenantId = tenant ∧
      found.version ≠ 0) ∧ found.effectiveAt now = true
  simp only [dataPolicy?_inEffect named] at checked
  rw [← checked, List.all_eq_true]
  refine forall₂_congr fun grant _ => ?_
  cases bound : grant.binding with
  | false => simp [valid, bound]
  | true =>
    simp only [valid, bound, Bool.not_true, Bool.false_or, true_implies]
    constructor
    · intro passed
      cases outcome : grant.checkPolicy tenant now with
      | error failure =>
        rw [outcome] at passed
        cases passed
      | ok policy => exact ⟨policy, checkPolicy_ok.mp outcome⟩
    · rintro ⟨_, passes⟩
      rw [checkPolicy_ok.mpr passes]
      rfl

/-- Under policies that are all in effect, a site passes them exactly when each lists it. -/
theorem all_passes_iff (valid : ∀ policy, Binds db tenant user permission policy →
      InEffect db tenant policy now) :
    (db.businessScopeGrants tenant user permission).all (fun grant => grant.passes site) = true ↔
      ∀ policy, Binds db tenant user permission policy →
        Key.policySite tenant policy site ∈ db := by
  have listed := @forall_binding db tenant user permission fun _ policy =>
    policy.any (fun policy => decide (site ∈ policy.siteIds)) = true
  have passes :
    (db.businessScopeGrants tenant user permission).all (fun grant => grant.passes site) =
      true ↔ ∀ grant ∈ db.businessScopeGrants tenant user permission, grant.binding = true →
        grant.policy.any (fun policy => decide (site ∈ policy.siteIds)) = true := by
    rw [List.all_eq_true]
    refine forall₂_congr fun grant _ => ?_
    cases bound : grant.binding <;> simp [passes, bound]
  rw [passes, listed]
  refine forall₂_congr fun policy binds => ?_
  obtain ⟨_, found, _⟩ := valid policy binds
  simp [Db.dataPolicy?, found, mem_policySitesOf]

theorem mem_normalizedBusinessSites {values : List String} :
    site ∈ normalizedBusinessSites values ↔ ∃ raw ∈ values, trimSpace raw = site ∧ site ≠ "" := by
  simp only [normalizedBusinessSites, List.mem_insertionSort, List.mem_dedup, List.mem_filter,
    List.mem_map, decide_eq_true_eq]
  constructor
  · rintro ⟨⟨raw, listed, trimmed⟩, named⟩
    exact ⟨raw, listed, trimmed, named⟩
  · rintro ⟨raw, listed, trimmed, named⟩
    exact ⟨⟨raw, listed, trimmed⟩, named⟩

theorem mem_memberSites :
    site ∈ normalizedBusinessSites (db.sitesOf tenant user) ↔ MemberSite db tenant user site := by
  simp only [mem_normalizedBusinessSites, MemberSite, mem_sitesOf]

/-- What a successful resolution returns. -/
structure Resolved (db : Db) (tenant user permission : String) (now : Instant)
    (scope : EffectiveBusinessScope) : Prop where
  effective : ∀ policy, Binds db tenant user permission policy → InEffect db tenant policy now
  all : scope.all = true ↔ ∃ reference, Grants db tenant user permission .all reference
  self : scope.self = true ↔ ∃ reference, Grants db tenant user permission .self reference
  sites : scope.sites = true ↔ ∃ reference, Grants db tenant user permission .sites reference
  memberSites : ∀ site, site ∈ scope.memberSiteIds ↔ MemberSite db tenant user site
  bound : scope.policyBound = true ↔ ∃ policy, Binds db tenant user permission policy
  ceiling : scope.policyBound = true → ∀ site, site ∈ scope.policySiteIds ↔
    MemberSite db tenant user site ∧
      ∀ policy, Binds db tenant user permission policy → Key.policySite tenant policy site ∈ db

theorem resolveBusinessScope_ok {tenantId userId : String} {scope : EffectiveBusinessScope}
    (resolved : db.resolveBusinessScope tenantId userId permission now = .ok scope) :
    Resolved db (trimSpace tenantId) (trimSpace userId) permission now scope := by
  obtain ⟨_, checked, resolution⟩ := bind_ok.mp resolved
  obtain ⟨named, _, _⟩ := require_ok.mp checked
  rw [resolveEffectiveBusinessScope_eq] at resolution
  split at resolution
  · rename_i valid
    have effective := (all_valid_iff named).mp valid
    cases resolution
    constructor
    case effective => exact effective
    case all => exact exists_scope
    case self => exact exists_scope
    case sites => exact exists_scope
    case memberSites => exact fun site => mem_memberSites
    case bound => exact policyBound_iff
    case ceiling =>
      intro bound site
      simp only [effectiveBusinessScope] at bound ⊢
      rw [if_pos bound, List.mem_filter, mem_memberSites, all_passes_iff effective]
  · cases resolution

/-- The resolution fails exactly when a policy that binds the permission is not in effect. -/
theorem resolveBusinessScope_isOk {tenantId userId : String}
    (named : trimSpace tenantId ≠ "" ∧ trimSpace userId ≠ "" ∧ trimSpace permission ≠ "") :
    (∃ scope, db.resolveBusinessScope tenantId userId permission now = .ok scope) ↔
      ∀ policy, Binds db (trimSpace tenantId) (trimSpace userId) permission policy →
        InEffect db (trimSpace tenantId) policy now := by
  rw [← all_valid_iff named.1]
  simp only [Db.resolveBusinessScope]
  rw [require_pos named, ok_bind, resolveEffectiveBusinessScope_eq]
  split
  · rename_i valid
    exact iff_of_true ⟨_, rfl⟩ valid
  · rename_i invalid
    exact iff_of_false (fun ⟨_, outcome⟩ => nomatch outcome) invalid

end Tables

end Biz.Access
