import Biz.Entitlement.Model

/-!
# The entitlement resolver

`Resolve` of `domain/entitlement/resolve.go`. Everything it decides after the
checks reads a source only through its fields and its state at the evaluated
instant, so the decisions are functions of a list of standings, a source with its
state; the instant itself reaches the result as `EvaluatedAt` and through the next
transition.

The memo of the module reasons only saves work and is left out. The recursion over
dependencies is bounded by fuel, which the order of a valid catalogue shows to be
enough.
-/

namespace Biz.Entitlement

open Time Checks

inductive Reason
  | allowed | securityDisabled | technicalUnavailable | capabilityDisabled | moduleNotEntitled
  | dependencyUnavailable | quotaConfigurationConflict | quotaOverflow | zeroQuota
  | fieldDisabled | fieldNotEntitled | unknownCapability
  deriving DecidableEq

inductive Disposition
  | inactive | contributes | dependency | denies | limited | overriddenByReplacement
  deriving DecidableEq

structure SourceExplanation where
  id : String
  kind : SourceKind
  effect : Effect
  state : SourceState
  disposition : Disposition
  reason : String
  actorId : String
  deriving DecidableEq

structure Decision where
  kind : Kind
  moduleCode : String
  key : String
  action : Action := .none
  allowed : Bool := false
  reason : Reason
  limit : Limit := {}
  masked : Bool := false
  sources : List SourceExplanation := []
  deriving DecidableEq

structure CatalogVersion where
  moduleCode : String
  version : Nat
  deriving DecidableEq

/-- The first four fields are filled in by the callers of the resolver. -/
structure Result where
  entitlementVersion : Nat := 0
  catalogRevision : Nat := 0
  permissionVersion : String := ""
  permissionSubject : String := ""
  tenantId : String
  sourceVersion : Nat
  resolverVersion : Nat := 1
  evaluatedAt : Instant
  validUntil : Option Instant
  nextTransitionAt : Option Instant
  catalogVersions : List CatalogVersion
  decisions : List Decision
  deriving DecidableEq

/-- A source and its state at the evaluated instant. -/
structure Standing where
  source : Source
  state : SourceState

def Source.standing (now : Instant) (s : Source) : Standing := ⟨s, s.state now⟩

section Decisions

variable (catalog : Catalog) (standings : List Standing)

/-- Some active source has exactly this target and effect. -/
def active (moduleCode : String) (kind : Kind) (key : String) (action : Action)
    (effect : Effect) : Bool :=
  standings.any fun s => s.source.moduleCode = moduleCode && s.source.kind = kind &&
    s.source.key = key && s.source.action = action && s.source.effect = effect &&
    s.state = .active

def capDenial (moduleCode key : String) : Option Reason :=
  if active standings moduleCode .capability key .none .safetyDeny then some .securityDisabled
  else if active standings moduleCode .capability key .none .deny then some .capabilityDisabled
  else none

/-- A module with capabilities is granted through one of them that is not denied. -/
def granted (m : ModuleDefinition) : Bool :=
  if m.capabilities = [] then active standings m.code .module m.code .none .grant
  else m.capabilities.any fun cap => capDenial standings m.code cap = none &&
    (active standings m.code .module m.code .none .grant ||
      active standings m.code .capability cap .none .grant)

/-- The reason of a module, given those of its dependencies. -/
def reasonOf (dependencyReason : String → Reason) (m : ModuleDefinition) : Reason :=
  if active standings m.code .module m.code .none .safetyDeny then .securityDisabled
  else if m.technicalStatus ≠ .ready then .technicalUnavailable
  else if active standings m.code .module m.code .none .deny then .capabilityDisabled
  else if !granted standings m then .moduleNotEntitled
  else if m.dependencies.all fun dep => dependencyReason dep = .allowed then .allowed
  else .dependencyUnavailable

def moduleReasonWithin : Nat → String → Reason
  | 0, _ => .dependencyUnavailable
  | fuel + 1, code =>
    match catalog.definition code with
    | none => .dependencyUnavailable
    | some m => reasonOf standings (moduleReasonWithin fuel) m

def moduleReason (code : String) : Reason :=
  moduleReasonWithin catalog standings (catalog.length + 1) code

/-- The recursion of `explain` over dependencies, with the codes seen so far. -/
def visitWithin : Nat → List String → String → List String
  | 0, seen, _ => seen
  | fuel + 1, seen, code =>
    if code ∈ seen then seen
    else
      match catalog.definition code with
      | none => seen ++ [code]
      | some m => m.dependencies.foldl (visitWithin fuel) (seen ++ [code])

def visit (seen : List String) (code : String) : List String :=
  visitWithin catalog (catalog.length + 1) seen code

/-- The codes that the dependencies of a module reach. -/
def dependencyCodes (moduleCode : String) : List String :=
  match catalog.definition moduleCode with
  | none => []
  | some m => m.dependencies.foldl (visit catalog) []

def relevant (d : Decision) (s : Source) : Bool :=
  s.moduleCode = d.moduleCode && (s.kind = .module ||
    (s.kind = d.kind && s.key = d.key && s.action = d.action) ||
    (d.kind = .module && s.kind = .capability))

def disposition (d : Decision) (dependencies : List String) (s : Standing) : Disposition :=
  if s.state ≠ .active then .inactive
  else if s.source.moduleCode ∈ dependencies then .dependency
  else if s.source.effect = .deny || s.source.effect = .safetyDeny then .denies
  else if !d.allowed then .limited
  else .contributes

def explain (d : Decision) : List SourceExplanation :=
  let dependencies := dependencyCodes catalog d.moduleCode
  let explained := standings.filter fun s =>
    relevant d s.source || s.source.moduleCode ∈ dependencies
  explained.map fun s =>
    { id := s.source.id, kind := s.source.sourceKind, effect := s.source.effect,
      state := s.state, disposition := disposition d dependencies s,
      reason := s.source.reason, actorId := s.source.actorId }

/-- A decision with its explanation. -/
def explained (d : Decision) : Decision := { d with sources := explain catalog standings d }

variable (m : ModuleDefinition) (reason : Reason)

def moduleDecision : Decision :=
  explained catalog standings
    { kind := .module, moduleCode := m.code, key := m.code, allowed := reason = .allowed, reason }

def capabilityReason (cap : String) : Reason :=
  let denied := capDenial standings m.code cap
  if reason = .securityDisabled ∨ denied = some .securityDisabled then .securityDisabled
  -- A technical refusal stays above an ordinary commercial denial.
  else if reason = .technicalUnavailable then reason
  else
    match denied with
    | some denial => denial
    | none =>
      if reason = .allowed ∧ !active standings m.code .module m.code .none .grant ∧
          !active standings m.code .capability cap .none .grant then .moduleNotEntitled
      else reason

def capabilityDecision (cap : String) : Decision :=
  let r := capabilityReason standings m reason cap
  explained catalog standings
    { kind := .capability, moduleCode := m.code, key := cap, allowed := r = .allowed, reason := r }

variable (key : String)

/-- The active sources of a quota. -/
def quotaSources : List Source :=
  (standings.filter fun s => s.source.kind = .quota && s.source.moduleCode = m.code &&
    s.source.key = key && s.state = .active).map (·.source)

def quotaAdditions : List Source :=
  (quotaSources standings m key).filter fun s => s.effect = .quotaAdd

def quotaReplacements : List Source :=
  (quotaSources standings m key).filter fun s => s.effect ≠ .quotaAdd && s.sourceKind = .override

def quotaBase : List Source :=
  (quotaSources standings m key).filter fun s => s.effect ≠ .quotaAdd && s.sourceKind ≠ .override

/-- Add the additions to the limit of a quota decision, in 64 bits. -/
def addLimits (d : Decision) : List Source → Decision
  | [] => d
  | s :: rest =>
    if d.limit.unlimited then d
    else if maxInt64 - d.limit.value < s.limit.value then
      { d with allowed := false, reason := .quotaOverflow, limit := {} }
    else addLimits { d with limit := { d.limit with value := d.limit.value + s.limit.value } } rest

/-- The limit of a quota decision: the one replacement, or the base and the additions. -/
def limitDecision (d : Decision) : Decision :=
  let replacements := quotaReplacements standings m key
  let base := quotaBase standings m key
  if 1 < replacements.length ∨ (replacements.length = 0 ∧ 1 < base.length) then
    { d with allowed := false, reason := .quotaConfigurationConflict }
  else
    match replacements with
    | replacement :: _ => { d with limit := replacement.limit }
    | [] =>
      let d := match base with
        | only :: _ => { d with limit := only.limit }
        | [] => d
      addLimits d (quotaAdditions standings m key)

/-- The explanations of a quota whose total one replacement sets. -/
def overridden (replacement : Source) (e : SourceExplanation) : SourceExplanation :=
  if e.state = .active ∧ (e.effect = .quotaAdd ∨ e.effect = .quotaReplace) ∧
      (e.id ≠ replacement.id ∨ e.kind ≠ .override) then
    { e with disposition := .overriddenByReplacement }
  else e

def quotaDecision : Decision :=
  let limited := limitDecision standings m key
    { kind := .quota, moduleCode := m.code, key, allowed := reason = .allowed, reason }
  let limited :=
    if limited.allowed ∧ !limited.limit.unlimited ∧ limited.limit.value = 0 then
      { limited with reason := .zeroQuota }
    else limited
  let d := explained catalog standings limited
  match quotaReplacements standings m key with
  | [replacement] => { d with sources := d.sources.map (overridden replacement) }
  | _ => d

def fieldReason (action : Action) : Reason :=
  if reason = .securityDisabled ∨ active standings m.code .field key action .safetyDeny then
    .securityDisabled
  else if reason = .technicalUnavailable then reason
  else if active standings m.code .field key action .deny then .fieldDisabled
  else if reason = .allowed ∧ !active standings m.code .field key action .grant then
    .fieldNotEntitled
  else reason

def fieldDecision (action : Action) : Decision :=
  let r := fieldReason standings m reason key action
  explained catalog standings
    { kind := .field, moduleCode := m.code, key, action, allowed := r = .allowed, reason := r,
      masked := active standings m.code .field key action .safetyMask }

/-- Keys in the order of `sort.Strings`. -/
def sortStrings (keys : List String) : List String := keys.insertionSort (· ≤ ·)

/-- All decisions about one module. -/
def moduleDecisions : List Decision :=
  let reason := moduleReason catalog standings m.code
  moduleDecision catalog standings m reason ::
    (sortStrings m.capabilities).map (capabilityDecision catalog standings m reason) ++
    (sortStrings m.quotaKeys).map (quotaDecision catalog standings m reason) ++
    (sortStrings m.fieldKeys).flatMap fun key =>
      fieldActions.map (fieldDecision catalog standings m reason key)

/-- The modules of the catalogue by code. -/
def sortedModules : List ModuleDefinition := catalog.insertionSort fun a b => a.code ≤ b.code

/-- Requested capabilities that no module has. -/
def unknownCapabilities (requested : List String) : List String :=
  sortStrings (requested.filter fun key => !catalog.any fun m => m.capabilities.contains key).dedup

def unknownDecision : Decision :=
  { kind := .capability, moduleCode := "", key, reason := .unknownCapability }

def decisions (requested : List String) : List Decision :=
  (sortedModules catalog).flatMap (moduleDecisions catalog standings) ++
    (unknownCapabilities catalog requested).map unknownDecision

end Decisions

/-- The order of the sources: by kind, then by identity. -/
def sourceOrder (a b : Source) : Prop :=
  if a.sourceKind = b.sourceKind then a.id ≤ b.id else a.sourceKind.text ≤ b.sourceKind.text

instance : DecidableRel sourceOrder := fun a b => by unfold sourceOrder; infer_instance

def ordered (sources : List Source) : List Source := sources.insertionSort sourceOrder

/-- The loop that checks the sources, with the identities seen so far. -/
def checkSources (tenant : String) (catalog : Catalog) : List String → List Source →
    Except Err Unit
  | _, [] => .ok ()
  | seen, s :: rest => do
    require .scope (s.tenantId = tenant)
    s.validate catalog
    let identity := s.sourceKind.text ++ "/" ++ s.id
    require .invalid (identity ∉ seen)
    checkSources tenant catalog (identity :: seen) rest

/-- The earlier of the next transition and a later instant. -/
def transition (now : Instant) (next : Option Instant) (t : Option Instant) : Option Instant :=
  match t with
  | none => next
  | some t => if now < t ∧ ∀ n ∈ next, t < n then some t else next

/-- The transitions of one source that is not revoked yet. -/
def Source.transitions (s : Source) (now : Instant) (next : Option Instant) : Option Instant :=
  if s.state now = .revoked then next
  else [some s.effectiveAt, s.expiresAt, s.revokedAt].foldl (transition now) next

def nextTransition (now : Instant) (sources : List Source) : Option Instant :=
  sources.foldl (fun next s => s.transitions now next) none

def resolve (tenant : String) (revision : Nat) (now : Instant) (catalog : Catalog)
    (sources : List Source) (requested : List String) : Except Err Result := do
  require .invalid (tenant ≠ "" ∧ ¬isZero now)
  catalog.validate
  let ordered := ordered sources
  checkSources tenant catalog [] ordered
  let next := nextTransition now ordered
  require .capabilityCode (∀ key ∈ requested, validCode key)
  return {
    tenantId := tenant, sourceVersion := revision, evaluatedAt := now,
    validUntil := next, nextTransitionAt := next,
    catalogVersions := (sortedModules catalog).map fun m => ⟨m.code, m.version⟩,
    decisions := decisions catalog (ordered.map (·.standing now)) requested }

@[simp] theorem mem_sortStrings {key : String} {keys : List String} :
    key ∈ sortStrings keys ↔ key ∈ keys := List.mem_insertionSort _

variable {m : ModuleDefinition}

@[simp] theorem mem_sortedModules {catalog : Catalog} :
    m ∈ sortedModules catalog ↔ m ∈ catalog := List.mem_insertionSort _

variable {sources : List Source} {catalog : Catalog} {tenant : String}

@[simp] theorem mem_ordered {s : Source} : s ∈ ordered sources ↔ s ∈ sources :=
  List.mem_insertionSort _

theorem active_iff {standings : List Standing} {moduleCode key : String} {kind : Kind}
    {action : Action} {effect : Effect} :
    active standings moduleCode kind key action effect = true ↔
      ∃ s ∈ standings, s.source.moduleCode = moduleCode ∧ s.source.kind = kind ∧
        s.source.key = key ∧ s.source.action = action ∧ s.source.effect = effect ∧
        s.state = .active := by
  simp [active, and_assoc]

section Recursion

variable {catalog : Catalog} {standings : List Standing}

theorem reasonOf_congr {first second : String → Reason}
    (same : ∀ dep ∈ m.dependencies, first dep = second dep) :
    reasonOf standings first m = reasonOf standings second m := by
  have all : (m.dependencies.all fun dep => first dep = .allowed) =
      m.dependencies.all fun dep => second dep = .allowed := by
    rw [Bool.eq_iff_iff, List.all_eq_true, List.all_eq_true]
    exact forall₂_congr fun dep member => by rw [same dep member]
  unfold reasonOf
  rw [all]

/-- In a valid catalogue the reason of a module satisfies the equation of the
recursion that the code runs. -/
theorem moduleReason_eq (valid : catalog.validate = .ok ()) (code : String) :
    moduleReason catalog standings code =
      match catalog.definition code with
      | none => .dependencyUnavailable
      | some m => reasonOf standings (moduleReason catalog standings) m := by
  obtain ⟨-, order, topological, bound, all⟩ := Catalog.validate_ok valid
  have stable := topological.stable (moduleReasonWithin catalog standings) (fun n m node same => ?_)
    code (all code) (catalog.length + 1) (catalog.length + 2) (by omega) (by omega)
  · rw [moduleReason, stable]
    rfl
  · unfold moduleReasonWithin
    cases defined : catalog.definition node with
    | none => rfl
    | some definition =>
      exact reasonOf_congr (same definition.dependencies (by simp [Catalog.dependencies, defined]))

end Recursion

section Reasons

variable {catalog : Catalog} {standings : List Standing} {m : ModuleDefinition} {reason : Reason}

theorem capDenial_eq_none {moduleCode key : String} :
    capDenial standings moduleCode key = none ↔
      active standings moduleCode .capability key .none .safetyDeny = false ∧
        active standings moduleCode .capability key .none .deny = false := by
  unfold capDenial
  split
  · simp_all
  · split <;> simp_all

theorem reasonOf_eq_allowed {dependencyReason : String → Reason} :
    reasonOf standings dependencyReason m = .allowed ↔
      active standings m.code .module m.code .none .safetyDeny = false ∧
        m.technicalStatus = .ready ∧
        active standings m.code .module m.code .none .deny = false ∧
        granted standings m = true ∧
        ∀ dep ∈ m.dependencies, dependencyReason dep = .allowed := by
  unfold reasonOf
  repeat' split
  all_goals simp_all

theorem capDenial_ne_allowed (standings : List Standing) (moduleCode key : String) :
    capDenial standings moduleCode key ≠ some .allowed := by
  unfold capDenial
  split
  · simp
  · split <;> simp

theorem capabilityReason_eq_allowed {cap : String} :
    capabilityReason standings m reason cap = .allowed ↔
      reason = .allowed ∧ capDenial standings m.code cap = none ∧
        (active standings m.code .module m.code .none .grant = true ∨
          active standings m.code .capability cap .none .grant = true) := by
  have refused := capDenial_ne_allowed standings m.code cap
  unfold capabilityReason
  cases denied : capDenial standings m.code cap <;> grind

theorem fieldReason_eq_allowed {key : String} {action : Action} :
    fieldReason standings m reason key action = .allowed ↔
      reason = .allowed ∧ active standings m.code .field key action .safetyDeny = false ∧
        active standings m.code .field key action .deny = false ∧
        active standings m.code .field key action .grant = true := by
  unfold fieldReason
  grind

end Reasons

section Membership

variable {catalog : Catalog} {standings : List Standing} {requested : List String} {d : Decision}

/-- What a decision is about. -/
def Decision.target (d : Decision) : Kind × String × String × Action :=
  (d.kind, d.moduleCode, d.key, d.action)

theorem addLimits_target (d : Decision) (additions : List Source) :
    (addLimits d additions).target = d.target := by
  induction additions generalizing d with
  | nil => rfl
  | cons s rest ih =>
    unfold addLimits
    split
    · rfl
    · split
      · rfl
      · exact ih _

theorem limitDecision_target (m : ModuleDefinition) (key : String) (d : Decision) :
    (limitDecision standings m key d).target = d.target := by
  simp only [limitDecision]
  split
  · rfl
  · split
    · rfl
    · rw [addLimits_target]
      split <;> rfl

theorem quotaDecision_target (m : ModuleDefinition) (reason : Reason) (key : String) :
    (quotaDecision catalog standings m reason key).target = (.quota, m.code, key, .none) := by
  have limited : (limitDecision standings m key
      { kind := .quota, moduleCode := m.code, key, allowed := reason = .allowed, reason }).target =
        (.quota, m.code, key, .none) :=
    limitDecision_target m key _
  simp only [quotaDecision, explained]
  split <;> split <;> exact limited

theorem quotaDecision_kind (m : ModuleDefinition) (reason : Reason) (key : String) :
    (quotaDecision catalog standings m reason key).kind = .quota :=
  congrArg Prod.fst (quotaDecision_target m reason key)

/-- What is decided about depends on the catalogue and the request alone. -/
theorem decisions_target (first second : List Standing) :
    (decisions catalog first requested).map (·.target) =
      (decisions catalog second requested).map (·.target) := by
  have modules : ∀ m, (moduleDecisions catalog first m).map (·.target) =
      (moduleDecisions catalog second m).map (·.target) := by
    intro m
    simp only [moduleDecisions, List.cons_append, List.map_cons, List.map_append, List.map_map,
      List.map_flatMap, Function.comp_def, quotaDecision_target]
    rfl
  simp only [decisions, List.map_append, List.map_flatMap, modules]

/-- The decisions of the modules, by kind. -/
theorem mem_moduleDecisions : d ∈ moduleDecisions catalog standings m ↔
      d = moduleDecision catalog standings m (moduleReason catalog standings m.code) ∨
      (∃ cap ∈ m.capabilities,
        d = capabilityDecision catalog standings m (moduleReason catalog standings m.code) cap) ∨
      (∃ key ∈ m.quotaKeys,
        d = quotaDecision catalog standings m (moduleReason catalog standings m.code) key) ∨
      ∃ key ∈ m.fieldKeys, ∃ action ∈ fieldActions,
        d = fieldDecision catalog standings m (moduleReason catalog standings m.code) key
          action := by
  simp [moduleDecisions, eq_comm]

theorem mem_decisions :
    d ∈ decisions catalog standings requested ↔
      (∃ m ∈ catalog, d ∈ moduleDecisions catalog standings m) ∨
        ∃ key ∈ unknownCapabilities catalog requested, d = unknownDecision key := by
  simp [decisions, eq_comm]

theorem mem_decisions_capability (capability : d.kind = .capability) :
    d ∈ decisions catalog standings requested ↔
      (∃ m ∈ catalog, ∃ cap ∈ m.capabilities,
        d = capabilityDecision catalog standings m (moduleReason catalog standings m.code) cap) ∨
      ∃ key ∈ unknownCapabilities catalog requested, d = unknownDecision key := by
  rw [mem_decisions]
  refine or_congr_left (exists_congr fun m => and_congr_right fun _ => ?_)
  rw [mem_moduleDecisions]
  refine ⟨?_, fun listed => .inr (.inl listed)⟩
  rintro (rfl | listed | ⟨_, -, rfl⟩ | ⟨_, -, _, -, rfl⟩)
  · cases capability
  · exact listed
  · simp [quotaDecision_kind] at capability
  · cases capability

theorem mem_decisions_field (field : d.kind = .field) :
    d ∈ decisions catalog standings requested ↔
      ∃ m ∈ catalog, ∃ key ∈ m.fieldKeys, ∃ action ∈ fieldActions,
        d = fieldDecision catalog standings m (moduleReason catalog standings m.code) key
          action := by
  rw [mem_decisions]
  constructor
  · rintro (⟨m, member, inside⟩ | ⟨_, -, rfl⟩)
    · rcases mem_moduleDecisions.mp inside with rfl | ⟨_, -, rfl⟩ | ⟨_, -, rfl⟩ | listed
      · cases field
      · cases field
      · simp [quotaDecision_kind] at field
      · exact ⟨m, member, listed⟩
    · cases field
  · rintro ⟨m, member, listed⟩
    exact .inl ⟨m, member, mem_moduleDecisions.mpr (.inr (.inr (.inr listed)))⟩

end Membership

/-- The text under which a source is looked up among those already seen. -/
def Source.identity (s : Source) : String := s.sourceKind.text ++ "/" ++ s.id

/-- Sources that the resolver accepts: all of one tenant and valid, no two of one identity. -/
structure Fit (tenant : String) (catalog : Catalog) (sources : List Source) : Prop where
  owned : ∀ s ∈ sources, s.tenantId = tenant
  valid : ∀ s ∈ sources, s.validate catalog = .ok ()
  distinct : (sources.map Source.identity).Nodup

theorem checkSources_ok {seen : List String} :
    checkSources tenant catalog seen sources = .ok () ↔
      Fit tenant catalog sources ∧ ∀ s ∈ sources, s.identity ∉ seen := by
  induction sources generalizing seen with
  | nil => simpa [checkSources] using Fit.mk (by simp) (by simp) (by simp)
  | cons s rest ih =>
    simp only [checkSources, bind_ok, require_ok, ih, List.forall_mem_cons]
    constructor
    · rintro ⟨-, tenant, ⟨⟩, valid, -, fresh, fit, apart⟩
      obtain ⟨new, unseen⟩ := Keyed.unseen_cons.mp apart
      exact ⟨⟨List.forall_mem_cons.mpr ⟨tenant, fit.owned⟩,
        List.forall_mem_cons.mpr ⟨valid, fit.valid⟩, List.nodup_cons.mpr ⟨new, fit.distinct⟩⟩,
        fresh, unseen⟩
    · rintro ⟨⟨owned, valid, distinct⟩, fresh, apart⟩
      obtain ⟨different, distinct⟩ := List.nodup_cons.mp distinct
      obtain ⟨tenant, owned⟩ := List.forall_mem_cons.mp owned
      obtain ⟨here, valid⟩ := List.forall_mem_cons.mp valid
      exact ⟨(), tenant, (), here, (), fresh, ⟨owned, valid, distinct⟩,
        Keyed.unseen_cons.mpr ⟨different, apart⟩⟩

/-- Everything that a successful evaluation has checked, and what it returns. -/
theorem resolve_ok {revision : Nat} {now : Instant} {requested : List String} {result : Result} :
    resolve tenant revision now catalog sources requested = .ok result ↔
      (tenant ≠ "" ∧ now ≠ 0) ∧ catalog.validate = .ok () ∧
      checkSources tenant catalog [] (ordered sources) = .ok () ∧
      (∀ key ∈ requested, validCode key) ∧
      result = {
        tenantId := tenant, sourceVersion := revision, evaluatedAt := now,
        validUntil := nextTransition now (ordered sources),
        nextTransitionAt := nextTransition now (ordered sources),
        catalogVersions := (sortedModules catalog).map fun m => ⟨m.code, m.version⟩,
        decisions := decisions catalog ((ordered sources).map (·.standing now)) requested } := by
  simp only [resolve, bind_ok, require_ok, pure_ok, isZero, decide_eq_true_eq]
  constructor
  · rintro ⟨-, present, ⟨⟩, valid, ⟨⟩, checked, -, codes, rfl⟩
    exact ⟨present, valid, checked, codes, rfl⟩
  · rintro ⟨present, valid, checked, codes, rfl⟩
    exact ⟨(), present, (), valid, (), checked, (), codes, rfl⟩

end Biz.Entitlement
