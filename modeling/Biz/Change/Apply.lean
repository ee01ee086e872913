import Biz.Change.Store

/-!
# Capturing and applying a change

What the use cases of `subscriptionchanges` share: `context.go` captures the state that
a change is decided on, `apply.go` writes the sources of a change that takes effect and
`time_fence.go` those of one that is scheduled.
-/

namespace Biz.Change

open Time Checks Transaction Subscription
open Entitlement (Catalog Result Source)
open Provisioning (Requirement increment64 maxUint64)

/-- The state that a change is decided on. -/
structure Material where
  before : BaseSubscription
  old : Plan.Version
  target : Plan.Version
  catalog : Catalog
  version : Nat
  sources : List Source
  current : Result

/-- `plan.Version{}`. -/
def noPlan : Plan.Version :=
  { planCode := "", number := 0, revision := 0, planRevision := 0, state := .unrecognised "",
    name := "", terms := ⟨[], [], [], .unrecognised "", 0, ""⟩, contentSha256 := "",
    createdAt := 0, publishedAt := none, retiredAt := none, actorId := "", reason := "" }

section Capture

variable (C : Setting) (S : Services)

/-- A plan that does not exist is no target. -/
def targetError (error : Err) : Err := if error = .status .notFound then .target else error

/-- The version that a change asks for, if it may be sold; a trial has an end. -/
def resolveTarget (code : String) (number : Nat) (scope : String) : Tx Plan.Version := do
  let (v, eligible) ← read fun store =>
    (checkPlanEligibility C S code number scope store).mapError targetError
  demand .target (eligible = true)
  let target ← check (project C v)
  demand .target (C.lifecycle.stateFor target.planCode target.number = .trial →
    target.terms.validityMode = .fixedDays)
  return target

/-- `ReadPlanCatalog` as the catalogue of the resolver. -/
def readCatalog : Except Err Catalog := do
  let c ← S.catalog.mapError .status
  let catalog := c.map (·.toModuleDefinition)
  (Catalog.validate catalog).mapError .source
  return catalog

def validateInitialTenant : Except Err Unit :=
  match S.knownTenant with
  | .ok known => require .corrupt (known = true)
  | .error .notFound => .error .notFound
  | .error code => .error (.status code)

/-- The current view, which has to be one of the locked sources. -/
def readCurrent (version : Nat) : Tx Result := do
  let current ← readSnapshot C S.cache
  demand .corrupt (current.sourceVersion = version ∧ current.entitlementVersion ≠ 0 ∧
    current.catalogRevision ≠ 0)
  return current

def captureInitial (i : Input) : Tx Material := do
  demand .invalid (i.action = .initial ∧ i.validate = .ok ())
  let target ← resolveTarget C S i.targetPlanCode i.targetPlanVersion i.salesScope
  let catalog ← check (readCatalog S)
  let (version, sources) ← lockSources C
  demand .corrupt (version ≠ maxUint64)
  demand .conflict (∀ v ∈ sources, ¬Live v)
  let current ← readCurrent C S version
  return { before := .zero, old := noPlan, target, catalog, version, sources, current }

/-- The plan after a change; the end of renewals keeps the old one. -/
def changeTarget (raw : BaseSubscription) (i : Input) (old : Plan.Version) : Tx Plan.Version :=
  if i.action = .stopRenewal then pure old
  else resolveTarget C S i.targetPlanCode i.targetPlanVersion raw.salesScope

/-- `captureWithPlanAuthority`. The operations for tenants read the same plans. -/
def capture (raw : BaseSubscription) (i : Input) : Tx Material := do
  let old ← read (getPlanVersion C raw.planCode raw.planVersion)
  let before ← check (normalize raw old)
  demand .conflict (before.revision ≠ maxUint64)
  demand .invalid (i.action = .renew →
    i.targetPlanCode = raw.planCode ∧ i.targetPlanVersion = raw.planVersion)
  demand .invalid (i.action = .switch →
    ¬(i.targetPlanCode = raw.planCode ∧ i.targetPlanVersion = raw.planVersion))
  let target ← changeTarget C S raw i old
  let catalog ← check (readCatalog S)
  let (version, sources) ← lockSources C
  demand .corrupt (version ≠ 0 ∧ version ≠ maxUint64)
  check (validateCurrentSources C.digests.source before old sources)
  let current ← readCurrent C S version
  return { before, old, target, catalog, version, sources, current }

/-- What the policy asks to prepare for a version. -/
def requirementsOf (target : Plan.Version) : Except Err (List Requirement) := do
  let requirements ← S.requirements target
  match Provisioning.validateRequirements requirements with
  | none => return requirements
  | some error => .error (.provisioning error)

def preparationRequirements (action : Action) (target : Plan.Version) :
    Except Err (List Requirement) :=
  if action = .stopRenewal then .ok [] else requirementsOf S target

end Capture

section Apply

variable (C : Setting) (S : Services) (m : Material)

/-- One source of the loop of `applySources`: a known one may be revoked, a new one is
inserted. -/
def writeSource (v : Source) : Tx Unit :=
  match sourceEntry m.sources v.id with
  | some previous =>
    if v.sourceKind = .plan ∧ previous.revokedAt = none ∧ v.revokedAt ≠ none then
      revokeSource C v previous.version
    else return ()
  | none => do
    check ((v.validate m.catalog).mapError .source)
    insertSource C v

/-- One source of the loop of `applyInitialSources`, which revokes nothing. -/
def writeInitialSource (v : Source) : Tx Unit :=
  match sourceEntry m.sources v.id with
  | some _ => return ()
  | none => do
    check ((v.validate m.catalog).mapError .source)
    insertSource C v

variable (after : BaseSubscription)

/-- The subscription of a change that takes effect. -/
def activated (id : String) (start : Instant) (ends : Option Instant) : BaseSubscription :=
  { after with
    planCode := m.target.planCode, planVersion := m.target.number, periodStart := start,
    periodEnd := ends, sourceNamespace := id, renewalStopped := false,
    entitlementSourceVersion := m.version + 1 }

/-- The end of both loops: the next version of the sources and its view. -/
def publish : Tx Result := do
  advance C m.version
  let view ← readSnapshot C S.cache
  demand .corrupt (view.sourceVersion = m.version + 1 ∧
    m.current.entitlementVersion < view.entitlementVersion)
  return view

def applyInitialSources (id : String) (start : Instant)
    (ends : Option Instant) : Tx (BaseSubscription × Result) := do
  let sources ← check (projectInitialSources C.digests.source after.tenantId m.target m.sources
    C.digests.plan id start ends)
  sources.forM (writeInitialSource C m)
  let view ← publish C S m
  return (activated m after id start ends, view)

def applySources (id : String) (start : Instant)
    (ends : Option Instant) : Tx (BaseSubscription × Result) := do
  let sources ← check (projectSources C.digests.source m.before m.old m.target m.sources id start
    ends)
  sources.forM (writeSource C m)
  let view ← publish C S m
  return (activated m after id start ends, view)

/-- The sources of a change, whether it is a first activation or not. -/
def applyChange (action : Action) (m : Material) (after : BaseSubscription) (id : String)
    (start : Instant) (ends : Option Instant) : Tx (BaseSubscription × Result) :=
  if action = .initial then applyInitialSources C S m after id start ends
  else applySources C S m after id start ends

/-- The sources that a fence ends before they expire. -/
def fenced (due : Instant) (v : Source) : Prop := Live v ∧ ∀ expires ∈ v.expiresAt, due < expires

instance (due : Instant) (v : Source) : Decidable (fenced due v) :=
  inferInstanceAs (Decidable (_ ∧ _))

/-- A source behind a fence; its version is not guarded against an overflow. -/
def fencedFrom (due : Instant) (v : Source) : Source :=
  { v with revokedAt := some due, version := increment64 v.version }

/-- `installTimeFence`: the versions of the sources and of the view, and the
subscription with the version. -/
def installTimeFence (due : Instant) : Tx (Nat × Nat × BaseSubscription) := do
  let changed := m.sources.filter fun v => fenced due v
  changed.forM fun v => revokeSource C (fencedFrom due v) v.version
  if changed = [] then return (m.version, m.current.entitlementVersion, after)
  else do
    let view ← publish C S m
    demand .corrupt (∃ until_ ∈ view.validUntil, until_ ≤ due)
    return (m.version + 1, view.entitlementVersion,
      { after with entitlementSourceVersion := m.version + 1 })

end Apply

end Biz.Change
