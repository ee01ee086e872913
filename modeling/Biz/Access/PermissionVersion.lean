import Biz.Access.Policies

/-!
# The version of a caller's permissions

A digest of the facts that one statement selects for a caller: the membership, the
tenant, the roles with their versions, their grants and the sites. Data policies and
the time are not among the facts. So between two instants with one version a caller has
the same roles, grants and sites, and a permission resolves alike as far as the policies
that its roles reference are alike.

The digest is a parameter. Of it only injectivity is used, which is what a digest
without collisions of an unambiguous document gives.
-/

namespace Biz.Access

open Checks Runs Text Isolation
open Time (Instant)

def TenantStatus.text : TenantStatus → String
  | .pending => "pending"
  | .active => "active"
  | .suspended => "suspended"
  | .closed => "closed"

def MemberStatus.text : MemberStatus → String
  | .invited => "invited"
  | .active => "active"
  | .suspended => "suspended"
  | .removed => "removed"

def RoleStatus.text : RoleStatus → String
  | .active => "active"
  | .disabled => "disabled"

def DataScope.text : DataScope → String
  | .none => "none"
  | .self => "self"
  | .sites => "sites"
  | .all => "all"

/-- The status of an account; the service writes no other than active. -/
def UserRecord.statusText (row : UserRecord) : String := if row.active then "active" else "inactive"

/-- The kinds of facts, in the order of their names. -/
inductive FactKind
  | grant
  | identity
  | role
  | site
  | tenant
  deriving DecidableEq

structure Fact where
  kind : FactKind
  key : String
  value : String
  version : Nat
  deriving DecidableEq

/-- What the facts are ordered by. -/
def Fact.order (fact : Fact) : Nat ×ₗ String ×ₗ String ×ₗ Nat :=
  toLex (fact.kind.ctorIdx, toLex (fact.key, toLex (fact.value, fact.version)))

/-- The document that is hashed. -/
structure PermissionDocument where
  tenant : String
  subject : String
  facts : List Fact

namespace Db

variable (db : Db)

def tenant? (id : String) : Option TenantRecord := db.lookup (.tenant id)

variable (tenant user : String)

def identityFacts : List Fact :=
  match db.membership? tenant user, db.tenant? tenant, db.user? user with
  | some membership, some home, some account => [⟨.identity, user,
      home.status.text ++ "/" ++ membership.status.text ++ "/" ++ account.statusText,
      membership.version⟩]
  | _, _, _ => []

def tenantFacts (tenant : String) : List Fact :=
  (db.tenant? tenant).toList.map fun row => ⟨.tenant, tenant, row.status.text, row.version⟩

def roleFacts : List Fact :=
  (db.rolesOf tenant user).filterMap fun id =>
    (db.role? tenant id).map fun row => ⟨.role, id, row.status.text, row.version⟩

def grantFacts : List Fact :=
  db.entries.filterMap fun
    | ⟨.grant home role permission, scope⟩ =>
      if home = tenant ∧ role ∈ db.rolesOf tenant user then
        some ⟨.grant, role, permission ++ "/" ++ DataScope.text scope, 0⟩
      else none
    | _ => none

def siteFacts : List Fact :=
  (db.sitesOf tenant user).map fun site => ⟨.site, site, "", 0⟩

/-- The rows of the statement. -/
def permissionFacts : List Fact :=
  (db.identityFacts tenant user ++ db.tenantFacts tenant ++ db.roleFacts tenant user ++
    db.grantFacts tenant user ++ db.siteFacts tenant user).insertionSort
      fun first second => first.order ≤ second.order

/-- `PermissionVersion`, for a caller with the given subject. -/
def permissionVersion (digest : PermissionDocument → String) (principal : Principal)
    (subject : String) : Except Failure String := do
  require .unauthorized (principal.authenticated = true ∧ principal.tenantId ≠ "" ∧
    principal.userId ≠ "")
  let facts := db.permissionFacts principal.tenantId principal.userId
  require .unauthorized (facts.any (fun fact =>
    fact.kind = .identity && fact.value = "active/active/active") = true)
  return "sha256:" ++ digest ⟨principal.tenantId, subject, facts⟩

end Db

/-! ## What the facts say -/

section Facts

variable {db : Db} {tenant user : String}

section

variable {fact : Fact}

theorem kind_of_identity (listed : fact ∈ db.identityFacts tenant user) :
    fact.kind = .identity := by
  unfold Db.identityFacts at listed
  split at listed
  · cases List.mem_singleton.mp listed
    rfl
  · cases listed

theorem kind_of_tenant (listed : fact ∈ db.tenantFacts tenant) : fact.kind = .tenant := by
  obtain ⟨_, _, rfl⟩ := List.mem_map.mp listed
  rfl

theorem mem_roleFacts : fact ∈ db.roleFacts tenant user ↔
    ∃ id row, Key.memberRole tenant user id ∈ db ∧ db.role? tenant id = some row ∧
      fact = ⟨.role, id, row.status.text, row.version⟩ := by
  simp only [Db.roleFacts, List.mem_filterMap, mem_rolesOf, Option.map_eq_some_iff]
  constructor
  · rintro ⟨id, assigned, row, found, rfl⟩
    exact ⟨id, row, assigned, found, rfl⟩
  · rintro ⟨id, row, assigned, found, rfl⟩
    exact ⟨id, assigned, row, found, rfl⟩

theorem mem_grantFacts : fact ∈ db.grantFacts tenant user ↔
    ∃ role permission scope, Key.memberRole tenant user role ∈ db ∧
      db.lookup (.grant tenant role permission) = some scope ∧
      fact = ⟨.grant, role, permission ++ "/" ++ scope.text, 0⟩ := by
  simp only [Db.grantFacts, List.mem_filterMap]
  constructor
  · rintro ⟨⟨key, row⟩, listed, picked⟩
    cases key with
    | grant home role permission =>
      obtain ⟨⟨rfl, assigned⟩, made⟩ := Option.ite_none_right_eq_some.mp picked
      exact ⟨role, permission, row, mem_rolesOf.mp assigned, AList.mem_lookup_iff.mpr listed,
        (Option.some.inj made).symm⟩
    | _ => cases picked
  · rintro ⟨role, permission, scope, assigned, found, rfl⟩
    exact ⟨⟨.grant tenant role permission, scope⟩, AList.mem_lookup_iff.mp found,
      if_pos ⟨rfl, mem_rolesOf.mpr assigned⟩⟩

theorem mem_siteFacts : fact ∈ db.siteFacts tenant user ↔
    ∃ site, Key.memberSite tenant user site ∈ db ∧ fact = ⟨.site, site, "", 0⟩ := by
  simp only [Db.siteFacts, List.mem_map, mem_sitesOf, eq_comm]

/-- The kind of a fact tells which part of the statement it comes from. -/
theorem mem_permissionFacts : fact ∈ db.permissionFacts tenant user ↔
    fact.kind = .identity ∧ fact ∈ db.identityFacts tenant user ∨
      fact.kind = .tenant ∧ fact ∈ db.tenantFacts tenant ∨
      fact.kind = .role ∧ fact ∈ db.roleFacts tenant user ∨
      fact.kind = .grant ∧ fact ∈ db.grantFacts tenant user ∨
      fact.kind = .site ∧ fact ∈ db.siteFacts tenant user := by
  have role (listed : fact ∈ db.roleFacts tenant user) : fact.kind = .role := by
    obtain ⟨_, _, _, _, rfl⟩ := mem_roleFacts.mp listed
    rfl
  have grant (listed : fact ∈ db.grantFacts tenant user) : fact.kind = .grant := by
    obtain ⟨_, _, _, _, _, rfl⟩ := mem_grantFacts.mp listed
    rfl
  have site (listed : fact ∈ db.siteFacts tenant user) : fact.kind = .site := by
    obtain ⟨_, _, rfl⟩ := mem_siteFacts.mp listed
    rfl
  simp only [Db.permissionFacts, List.mem_insertionSort, List.mem_append, or_assoc,
    and_iff_right_of_imp kind_of_identity, and_iff_right_of_imp kind_of_tenant,
    and_iff_right_of_imp role, and_iff_right_of_imp grant, and_iff_right_of_imp site]

end

theorem roleFact_iff {id value : String} {version : Nat} :
    (⟨.role, id, value, version⟩ : Fact) ∈ db.permissionFacts tenant user ↔
      ∃ row, Key.memberRole tenant user id ∈ db ∧ db.role? tenant id = some row ∧
        row.status.text = value ∧ row.version = version := by
  simp [mem_permissionFacts, mem_roleFacts, eq_comm]

theorem siteFact_iff {site : String} :
    (⟨.site, site, "", 0⟩ : Fact) ∈ db.permissionFacts tenant user ↔
      Key.memberSite tenant user site ∈ db := by
  simp [mem_permissionFacts, mem_siteFacts]

/-- A grant fact is read back: no two scopes end alike. -/
theorem grantValue_injective {first second : String} {scope other : DataScope}
    (same : first ++ "/" ++ scope.text = second ++ "/" ++ other.text) :
    first = second ∧ scope = other := by
  have lists := congrArg String.toList same
  simp only [String.toList_append] at lists
  have ends := congrArg List.getLast? lists
  have equal : scope = other := by
    cases scope <;> cases other <;>
      first
      | rfl
      | simp [DataScope.text] at ends
  subst equal
  exact ⟨String.toList_injective (List.append_cancel_right (List.append_cancel_right lists)), rfl⟩

theorem grant_iff {role permission : String} {scope : DataScope} :
    (⟨.grant, role, permission ++ "/" ++ scope.text, 0⟩ : Fact) ∈ db.permissionFacts tenant user ↔
      Key.memberRole tenant user role ∈ db ∧
        db.lookup (.grant tenant role permission) = some scope := by
  simp only [mem_permissionFacts, mem_grantFacts, reduceCtorEq, false_and, false_or, true_and,
    or_false, Fact.mk.injEq, and_true]
  constructor
  · rintro ⟨_, _, _, assigned, granted, rfl, same⟩
    obtain ⟨rfl, rfl⟩ := grantValue_injective same
    exact ⟨assigned, granted⟩
  · rintro ⟨assigned, granted⟩
    exact ⟨role, permission, scope, assigned, granted, rfl, rfl⟩

theorem RoleStatus.text_injective {first second : RoleStatus} (same : first.text = second.text) :
    first = second := by
  cases first <;> cases second <;> first | rfl | exact absurd same (by decide)

theorem active_of_texts {home : TenantStatus} {member : MemberStatus} {account : UserRecord}
    (same : home.text ++ "/" ++ member.text ++ "/" ++ account.statusText = "active/active/active") :
    home = .active ∧ member = .active ∧ account.active = true := by
  unfold UserRecord.statusText at same
  revert same
  cases account.active <;> cases home <;> cases member <;> decide

end Facts

/-! ## What a version says -/

section Versions

variable {db : Db} {digest : PermissionDocument → String} {principal : Principal}
  {subject version : String}

theorem permissionVersion_ok
    (returned : db.permissionVersion digest principal subject = .ok version) :
    principal.tenantId ≠ "" ∧
      db.activeAccount principal.tenantId principal.userId = true ∧
      version = "sha256:" ++ digest ⟨principal.tenantId, subject,
        db.permissionFacts principal.tenantId principal.userId⟩ := by
  obtain ⟨_, checked, first⟩ := bind_ok.mp returned
  obtain ⟨_, active, last⟩ := bind_ok.mp first
  obtain ⟨_, homed, _⟩ := require_ok.mp checked
  refine ⟨homed, ?_, (Except.ok.inj last).symm⟩
  obtain ⟨fact, listed, accepted⟩ := List.any_eq_true.mp (require_ok.mp active)
  simp only [Bool.and_eq_true, decide_eq_true_eq] at accepted
  obtain ⟨kind, value⟩ := accepted
  simp only [mem_permissionFacts, kind, reduceCtorEq, false_and, or_false, true_and] at listed
  unfold Db.identityFacts at listed
  split at listed
  · rename_i membership home account member there user
    cases List.mem_singleton.mp listed
    obtain ⟨open', joined, alive⟩ := active_of_texts value
    have tenant : db.lookup (.tenant principal.tenantId) = some home := there
    simp [Db.activeAccount, Db.activeMember, tenant, user, member, open', joined, alive]
  · cases listed

/-- The caller's role at an instant, with its status and its version. -/
def HoldsRole (db : Db) (tenant user id : String) (status : RoleStatus) (version : Nat) : Prop :=
  ∃ row, Key.memberRole tenant user id ∈ db ∧ db.role? tenant id = some row ∧ row.status = status ∧
    row.version = version

/-- At two instants a caller has the same roles, grants and sites. -/
structure Alike (first last : Db) (tenant user : String) : Prop where
  roles : ∀ id status version,
    HoldsRole first tenant user id status version ↔ HoldsRole last tenant user id status version
  grants : ∀ role permission scope,
    (Key.memberRole tenant user role ∈ first ∧
      first.lookup (.grant tenant role permission) = some scope) ↔
    (Key.memberRole tenant user role ∈ last ∧
      last.lookup (.grant tenant role permission) = some scope)
  sites : ∀ site, Key.memberSite tenant user site ∈ first ↔ Key.memberSite tenant user site ∈ last

theorem alike_of_facts {first last : Db} {tenant user : String}
    (same : first.permissionFacts tenant user = last.permissionFacts tenant user) :
    Alike first last tenant user := by
  constructor
  case roles =>
    have text : ∀ db id status version, HoldsRole db tenant user id status version ↔
        (⟨.role, id, status.text, version⟩ : Fact) ∈ db.permissionFacts tenant user := by
      intro db id status version
      rw [roleFact_iff]
      constructor
      · rintro ⟨row, assigned, found, rfl, rfl⟩
        exact ⟨row, assigned, found, rfl, rfl⟩
      · rintro ⟨row, assigned, found, shown, rfl⟩
        exact ⟨row, assigned, found, RoleStatus.text_injective shown, rfl⟩
    intro id status version
    rw [text, text, same]
  case grants =>
    intro role permission scope
    rw [← grant_iff, ← grant_iff, same]
  case sites =>
    intro site
    rw [← siteFact_iff, ← siteFact_iff, same]

end Versions

/-! ## What a permission resolves to -/

/-- At two instants a policy limits alike: it is in effect at both or at neither, and it
lists the same sites. -/
structure PolicyAlike (first last : Db) (tenant policy : String) (earlier later : Instant) :
    Prop where
  inEffect : InEffect first tenant policy earlier ↔ InEffect last tenant policy later
  sites : ∀ site,
    Key.policySite tenant policy site ∈ first ↔ Key.policySite tenant policy site ∈ last

section Resolution

variable {first last : Db} {tenant user permission : String} {earlier later : Instant}

/-- Roles with the same versions reference the same policies. -/
theorem grants_of_alike (alike : Alike first last tenant user) (aged : Aged first last)
    (active : first.activeAccount tenant user = true ↔ last.activeAccount tenant user = true)
    {scope : DataScope} {reference : Option String} :
    Grants first tenant user permission scope reference ↔
      Grants last tenant user permission scope reference := by
  have same : ∀ {id before after}, first.role? tenant id = some before →
      last.role? tenant id = some after → after.version = before.version →
      after.dataPolicyId = before.dataPolicyId := by
    intro id before after there found version
    rcases aged id before after (role?_eq_some.mp there).1
      (role?_eq_some.mp found).1 with older | kept
    · exact absurd version older.ne'
    · exact kept.2
  refine and_congr active (exists_congr fun id => ?_)
  constructor
  · rintro ⟨row, assigned, there, enabled, granted, referenced⟩
    obtain ⟨other, present, found, status, version⟩ :=
      (alike.roles id row.status row.version).mp ⟨row, assigned, there, rfl, rfl⟩
    exact ⟨other, present, found, status.trans enabled,
      ((alike.grants id permission scope).mp ⟨assigned, granted⟩).2,
      same there found version ▸ referenced⟩
  · rintro ⟨row, assigned, there, enabled, granted, referenced⟩
    obtain ⟨other, present, found, status, version⟩ :=
      (alike.roles id row.status row.version).mpr ⟨row, assigned, there, rfl, rfl⟩
    exact ⟨other, present, found, status.trans enabled,
      ((alike.grants id permission scope).mpr ⟨assigned, granted⟩).2,
      same found there version.symm ▸ referenced⟩

/-- A list of sites is normalized by what it contains. -/
theorem normalizedBusinessSites_congr {values others : List String}
    (same : ∀ site, site ∈ values ↔ site ∈ others) :
    normalizedBusinessSites values = normalizedBusinessSites others := by
  have sorted : ∀ values, (normalizedBusinessSites values).Pairwise (· ≤ ·) :=
    fun values => List.pairwise_insertionSort (· ≤ ·) _
  have distinct : ∀ values, (normalizedBusinessSites values).Nodup :=
    fun values => (List.perm_insertionSort (· ≤ ·) _).nodup_iff.mpr (List.nodup_dedup _)
  have shared : ∀ site, site ∈ normalizedBusinessSites values ↔
      site ∈ normalizedBusinessSites others := by
    intro site
    simp only [mem_normalizedBusinessSites, same]
  apply List.Perm.eq_of_pairwise _ (sorted values) (sorted others)
    ((List.perm_ext_iff_of_nodup (distinct values) (distinct others)).mpr shared)
  exact fun _ _ _ _ below above => le_antisymm below above

/-- The loop returns a function of the grants, the sites and the policies. -/
theorem resolveEffectiveBusinessScope_congr (named : tenant ≠ "")
    (grants : ∀ scope reference, Grants first tenant user permission scope reference ↔
      Grants last tenant user permission scope reference)
    (sites : ∀ site, Key.memberSite tenant user site ∈ first ↔
      Key.memberSite tenant user site ∈ last)
    (policies : ∀ policy, Binds first tenant user permission policy →
      PolicyAlike first last tenant policy earlier later) :
    resolveEffectiveBusinessScope tenant (first.businessScopeGrants tenant user permission)
        (first.sitesOf tenant user) earlier =
      resolveEffectiveBusinessScope tenant (last.businessScopeGrants tenant user permission)
        (last.sitesOf tenant user) later := by
  have binds : ∀ policy, Binds first tenant user permission policy ↔
      Binds last tenant user permission policy :=
    fun policy => exists_congr fun scope => and_congr_left' (grants scope (some policy))
  have valid : (∀ policy, Binds first tenant user permission policy →
        InEffect first tenant policy earlier) ↔
      ∀ policy, Binds last tenant user permission policy → InEffect last tenant policy later := by
    apply forall_congr'
    intro policy
    rw [← binds policy]
    exact imp_congr_right fun bound => (policies policy bound).inEffect
  rw [resolveEffectiveBusinessScope_eq, resolveEffectiveBusinessScope_eq]
  by_cases effective : ∀ policy, Binds first tenant user permission policy →
      InEffect first tenant policy earlier
  · rw [if_pos ((all_valid_iff named).mpr effective),
      if_pos ((all_valid_iff named).mpr (valid.mp effective))]
    have scopes : ∀ scope,
        (first.businessScopeGrants tenant user permission).any (fun grant => grant.scope = scope) =
          (last.businessScopeGrants tenant user permission).any fun grant =>
            grant.scope = scope := by
      intro scope
      rw [Bool.eq_iff_iff, exists_scope, exists_scope]
      exact exists_congr fun reference => grants scope reference
    have bound : (first.businessScopeGrants tenant user permission).any BusinessScopeGrant.binding =
        (last.businessScopeGrants tenant user permission).any BusinessScopeGrant.binding := by
      rw [Bool.eq_iff_iff, policyBound_iff, policyBound_iff]
      exact exists_congr binds
    have members : normalizedBusinessSites (first.sitesOf tenant user) =
        normalizedBusinessSites (last.sitesOf tenant user) := by
      apply normalizedBusinessSites_congr
      intro site
      rw [mem_sitesOf, mem_sitesOf]
      exact sites site
    have passes : ∀ site, (first.businessScopeGrants tenant user permission).all
          (fun grant => grant.passes site) =
        (last.businessScopeGrants tenant user permission).all fun grant => grant.passes site := by
      intro site
      rw [Bool.eq_iff_iff, all_passes_iff effective, all_passes_iff (valid.mp effective)]
      apply forall_congr'
      intro policy
      rw [← binds policy]
      exact imp_congr_right fun bound => (policies policy bound).sites site
    simp only [effectiveBusinessScope, scopes, bound, members, passes]
  · rw [if_neg (mt (all_valid_iff named).mp effective),
      if_neg (mt (all_valid_iff named).mp (mt valid.mpr effective))]

/-- At two instants of a run at which the version of a caller's permissions is the same,
the caller has the same roles, grants and sites, and every permission resolves alike
whose policies limit alike. -/
theorem permission_version_determines {digest : PermissionDocument → String}
    (injective : digest.Injective) {directory : List String → Bool} {start : Db}
    {events later : List RoleEvent} {first last : RoleSystem}
    (reached : Run (RoleSteps directory) (quiet start) events first)
    (onward : Run (Guarded (RoleSteps directory) (Unrevived directory first.committed)) first later
      last)
    {principal : Principal} {subject version : String}
    (trimmed : trimSpace principal.tenantId = principal.tenantId ∧
      trimSpace principal.userId = principal.userId)
    (before : Db.permissionVersion first.committed digest principal subject = .ok version)
    (after : Db.permissionVersion last.committed digest principal subject = .ok version) :
    Alike first.committed last.committed principal.tenantId principal.userId ∧
      ∀ permission earlier later,
        (∀ policy,
          Binds first.committed principal.tenantId principal.userId permission policy →
            PolicyAlike first.committed last.committed principal.tenantId policy earlier later) →
        Db.resolveBusinessScope first.committed principal.tenantId principal.userId permission
            earlier =
          Db.resolveBusinessScope last.committed principal.tenantId principal.userId permission
            later := by
  obtain ⟨homed, active, shown⟩ := permissionVersion_ok before
  obtain ⟨_, stillActive, shownAgain⟩ := permissionVersion_ok after
  have document := injective (String.append_right_inj _ |>.mp (shown.symm.trans shownAgain))
  have alike := alike_of_facts (congrArg PermissionDocument.facts document)
  refine ⟨alike, fun permission earlier later policies => ?_⟩
  simp only [Db.resolveBusinessScope, trimmed.1, trimmed.2]
  congr 1
  funext _
  apply resolveEffectiveBusinessScope_congr homed _ alike.sites policies
  intro scope reference
  exact grants_of_alike alike (aged_run reached onward) (iff_of_true active stillActive)

end Resolution

section Sample

/-- A member who reads devices through a role under a policy. -/
def governed : Db :=
  overlay ∅ [⟨.tenant "t", some ⟨.active, 1⟩⟩,
    ⟨.user "u", some ⟨none, { Contact.blank with plain := "u" }, true⟩⟩,
    ⟨.membership "t" "u", some ⟨.active, "", .blank, .blank, "", "", "", "", none, 1⟩⟩,
    ⟨.role "r", some ⟨"t", "reader", "", none, false, some "p", .active, 2⟩⟩,
    ⟨.memberRole "t" "u" "r", some ()⟩,
    ⟨.grant "t" "r" "device.read", some .all⟩,
    ⟨.memberSite "t" "u" "s", some ()⟩,
    ⟨.policy "t" "p", some ⟨"north", .active, 1, none, none, Nat.one_ne_zero⟩⟩,
    ⟨.policySite "t" "p" "s", some ()⟩]

def governor : Principal := ⟨"t", "u", [], true⟩

/-- Whether there is a version does not depend on the digest and the subject. -/
theorem permissionVersion_of_isOk {db : Db} {principal : Principal}
    (active : (db.permissionVersion (fun _ => "") principal "").isOk = true)
    (digest : PermissionDocument → String) (subject : String) :
    db.permissionVersion digest principal subject = .ok ("sha256:" ++ digest
      ⟨principal.tenantId, subject, db.permissionFacts principal.tenantId principal.userId⟩) := by
  cases outcome : db.permissionVersion (fun _ => "") principal "" with
  | error _ =>
    rw [outcome] at active
    cases active
  | ok version =>
    simp only [Db.permissionVersion, bind_ok, require_ok] at outcome ⊢
    obtain ⟨_, named, _, active, _⟩ := outcome
    exact ⟨(), named, (), active, rfl⟩

/-- The revocation of the policy leaves the version as it was, whatever the digest, and the
permission no longer resolves. -/
theorem revocation_keeps_version : ∃ last,
    Run (RoleSteps fun _ => true) (quiet governed)
      [.start 0 (.revokePolicy governor "p" 1), .advance 0, .advance 0, .advance 0] last ∧
    (∀ digest subject, ∃ version, governed.permissionVersion digest governor subject = .ok version ∧
      Db.permissionVersion last.committed digest governor subject = .ok version) ∧
    (governed.resolveBusinessScope "t" "u" "device.read" 0).isOk = true ∧
    (Db.resolveBusinessScope last.committed "t" "u" "device.read" 0).isOk = false := by
  have ran : (([.start 0 (.revokePolicy governor "p" 1), .advance 0, .advance 0, .advance 0] :
      List RoleEvent).foldlM (step (roleProgram fun _ => true))
        (quiet governed)).any (fun last => decide
      (Db.permissionFacts last.committed "t" "u" = governed.permissionFacts "t" "u" ∧
        (governed.permissionVersion (fun _ => "") governor "").isOk = true ∧
        (Db.permissionVersion last.committed (fun _ => "") governor "").isOk = true ∧
        (governed.resolveBusinessScope "t" "u" "device.read" 0).isOk = true ∧
        (Db.resolveBusinessScope last.committed "t" "u" "device.read" 0).isOk = false)) = true := by
    decide +kernel
  obtain ⟨last, folded, seen⟩ := (Option.any_eq_true _ _).mp ran
  obtain ⟨facts, active, stillActive, before, after⟩ := of_decide_eq_true seen
  refine ⟨last, run_of_foldlM folded, fun digest subject => ?_, before, after⟩
  refine ⟨_, permissionVersion_of_isOk active digest subject, ?_⟩
  rw [permissionVersion_of_isOk stillActive]
  change Except.ok (_ ++ digest ⟨"t", subject, Db.permissionFacts last.committed "t" "u"⟩) = _
  rw [facts]
  rfl

instance countableChar : Countable Char := Function.Injective.countable fun _ _ => Char.toNat_inj.mp

instance countableString : Countable String :=
  Function.Injective.countable fun _ _ same => String.toList_injective same

deriving instance Countable for FactKind, Fact, PermissionDocument

/-- A digest without collisions is there: the documents are countable. -/
theorem exists_injective_digest : ∃ digest : PermissionDocument → String, digest.Injective := by
  obtain ⟨code, injective⟩ := Countable.exists_injective_nat PermissionDocument
  refine ⟨fun document => String.ofList (List.replicate (code document) 'x'), ?_⟩
  intro first second same
  apply injective
  have lengths := congrArg (fun text => text.toList.length) same
  simpa using lengths

/-- The tables after another role is created. -/
def recruited : Db :=
  overlay governed [⟨.role "q", some ⟨"t", "auditor", "", none, false, none, .active, 1⟩⟩]

theorem recruited_policyAlike (policy : String) (now : Instant) :
    PolicyAlike governed recruited "t" policy now now := by
  have same : ∀ key, key ≠ Key.role "q" → recruited.lookup key = governed.lookup key := by
    intro key other
    exact lookup_overlay_one_of_ne _ other
  constructor
  · unfold InEffect
    rw [same (.policy "t" policy) Key.noConfusion]
  · intro site
    exact (mem_congr (same (.policySite "t" policy site) Key.noConfusion)).symm

/-- A role that is created in between leaves the version, and the permission resolves as
before. -/
theorem creation_resolves_alike : ∃ digest : PermissionDocument → String, digest.Injective ∧
    (Alike governed recruited "t" "u" ∧
      governed.resolveBusinessScope "t" "u" "device.read" 0 =
        recruited.resolveBusinessScope "t" "u" "device.read" 0) := by
  obtain ⟨digest, injective⟩ := exists_injective_digest
  have ran : ([.start 0 (.create governor "q" "auditor" ""), .advance 0, .advance 0] :
      List RoleEvent).foldlM (fun system event =>
        if Unrevived (fun _ => true) governed system event then
          step (roleProgram fun _ => true) system event else none)
        (quiet governed) = some (quiet recruited) := rfl
  have trimmed : trimSpace governor.tenantId = governor.tenantId ∧
      trimSpace governor.userId = governor.userId := by
    decide +kernel
  have checked : recruited.permissionFacts governor.tenantId governor.userId =
        governed.permissionFacts governor.tenantId governor.userId ∧
      (governed.permissionVersion (fun _ => "") governor "").isOk = true ∧
      (recruited.permissionVersion (fun _ => "") governor "").isOk = true := by
    decide +kernel
  obtain ⟨facts, active, stillActive⟩ := checked
  have before := permissionVersion_of_isOk active digest "u"
  have after := permissionVersion_of_isOk stillActive digest "u"
  rw [facts] at after
  have determined := permission_version_determines injective (.done (quiet governed))
    (guarded_of_foldlM ran) trimmed before after
  exact ⟨digest, injective, determined.1,
    determined.2 "device.read" 0 0 fun policy _ => recruited_policyAlike policy 0⟩

end Sample

end Biz.Access
