import Biz.Library.Rfc3339
import Biz.Plan.Model

/-!
# Plan versions as transport values

Plan management emits a plan version as a `PlanVersionDTO` (`planmanagement`'s
`dto.go`) and reads terms back with `fromTerms`; subscriptions read the emitted value
with `planprojection`. Pointers of the transport values may be `nil`, so they are
optional here.

The projection does not read the feature codes, and instants travel as RFC 3339
texts, whose years have four digits. Apart from that it gives the version back.
-/

namespace Biz.Plan

open Time Checks Calendar

structure PlanQuota where
  key : String
  unlimited : Bool
  value : UInt64

structure PlanField where
  key : String
  action : Entitlement.Action
  mode : Mode

structure PlanModule where
  moduleCode : String
  capabilityCodes : List String
  quotas : List (Option PlanQuota)
  fields : List (Option PlanField)

structure PlanTerms where
  modules : List (Option PlanModule)
  featureCodes : List String
  salesScope : List String
  validityMode : ValidityMode
  validityDays : Nat
  priceRef : String

structure PlanVersionDto where
  planCode : String
  version : Nat
  revision : Nat
  planRevision : Nat
  state : VersionState
  name : String
  terms : Option PlanTerms
  contentSha256 : String
  createdAt : String
  publishedAt : String
  retiredAt : String
  actorId : String
  reason : String

section Management

def moduleDto (m : Module) : PlanModule :=
  { moduleCode := m.code, capabilityCodes := m.capabilities,
    quotas := m.quotas.map fun q => some ⟨q.key, q.unlimited, q.value⟩,
    fields := m.fields.map fun f => some ⟨f.key, f.action, f.mode⟩ }

def termsDto (t : Terms) : PlanTerms :=
  { modules := t.modules.map (some ∘ moduleDto), featureCodes := t.featureCodes,
    salesScope := t.salesScope, validityMode := t.validityMode, validityDays := t.validityDays,
    priceRef := t.priceRef }

def stamp (t : Option Instant) : String :=
  match t with
  | none => ""
  | some t => Rfc3339.format t

/-- What plan management emits for a version. -/
def dto (v : Version) : PlanVersionDto :=
  { planCode := v.planCode, version := v.number, revision := v.revision,
    planRevision := v.planRevision, state := v.state, name := v.name,
    terms := some (termsDto v.terms), contentSha256 := v.contentSha256,
    createdAt := Rfc3339.format v.createdAt, publishedAt := stamp v.publishedAt,
    retiredAt := stamp v.retiredAt, actorId := v.actorId, reason := v.reason }

end Management

section Reading

-- The error for a missing element.
variable (missing : Err)

/-- A module of the transport value; both readers build it in the same way. -/
def readModule (p : Option PlanModule) : Except Err Module := do
  let m ← found missing p
  let quotas ← m.quotas.mapM (found missing)
  let fields ← m.fields.mapM (found missing)
  return { code := m.moduleCode, capabilities := m.capabilityCodes,
           quotas := quotas.map fun q => ⟨q.key, q.unlimited, q.value⟩,
           fields := fields.map fun f => ⟨f.key, f.action, f.mode⟩ }

end Reading

/-- The reader of plan management. -/
def fromTerms (p : Option PlanTerms) : Except Err Terms := do
  let t ← found .invalid p
  let modules ← t.modules.mapM (readModule .invalid)
  return { modules, featureCodes := t.featureCodes, salesScope := t.salesScope,
           validityMode := t.validityMode, validityDays := t.validityDays,
           priceRef := t.priceRef }

namespace Projection

/-- The terms as subscriptions read them; the feature codes stay empty. -/
def terms (p : Option PlanTerms) : Except Err Terms := do
  let t ← found .corrupt p
  let modules ← t.modules.mapM (readModule .corrupt)
  let out : Terms :=
    { modules, featureCodes := [], salesScope := t.salesScope, validityMode := t.validityMode,
      validityDays := t.validityDays, priceRef := t.priceRef }
  return out.canonical

/-- An instant that may be absent. -/
def instant (text : String) : Except Err (Option Instant) :=
  if text = "" then .ok none
  else
    match Rfc3339.parse text with
    | some t => .ok (some t)
    | none => .error .corrupt

def version (digest : String → Terms → String) (p : Option PlanVersionDto) :
    Except Err Version := do
  let p ← found .corrupt p
  let terms ← terms p.terms
  let createdAt ← found .corrupt (Rfc3339.parse p.createdAt)
  let publishedAt ← instant p.publishedAt
  let retiredAt ← instant p.retiredAt
  let v : Version :=
    { planCode := p.planCode, number := p.version, revision := p.revision,
      planRevision := p.planRevision, state := p.state, name := p.name, terms,
      contentSha256 := p.contentSha256, createdAt, publishedAt, retiredAt, actorId := p.actorId,
      reason := p.reason }
  v.integrity digest
  return v

end Projection

theorem readModule_moduleDto (missing : Err) (m : Module) :
    readModule missing (some (moduleDto m)) = .ok m := by
  have quotas : (moduleDto m).quotas.mapM (found missing) =
      .ok (m.quotas.map fun q => ⟨q.key, q.unlimited, q.value⟩) := by
    simp only [moduleDto, List.mapM_map]
    exact mapM_ok fun _ _ => rfl
  have fields : (moduleDto m).fields.mapM (found missing) =
      .ok (m.fields.map fun f => ⟨f.key, f.action, f.mode⟩) := by
    simp only [moduleDto, List.mapM_map]
    exact mapM_ok fun _ _ => rfl
  simp only [readModule, found, bind_ok, pure_ok, Except.ok.injEq]
  refine ⟨moduleDto m, rfl, _, quotas, _, fields, ?_⟩
  simp [moduleDto, Function.comp_def]

theorem readModules_termsDto (missing : Err) (t : Terms) :
    (termsDto t).modules.mapM (readModule missing) = .ok t.modules := by
  simp only [termsDto, List.mapM_map]
  exact (mapM_ok fun m _ => readModule_moduleDto missing m).trans (by simp)

namespace Projection

/-- The projection gives the terms back without their feature codes. -/
theorem terms_termsDto (t : Terms) :
    terms (some (termsDto t)) = .ok ({ t with featureCodes := [] } : Terms).canonical := by
  simp only [terms, found, bind_ok, pure_ok, Except.ok.injEq]
  exact ⟨_, rfl, _, readModules_termsDto _ t, rfl⟩

theorem format_ne_empty (t : Instant) : Rfc3339.format t ≠ "" := by
  rw [Rfc3339.format, Ne, ← String.toList_inj, String.toList_ofList]
  simp [Rfc3339.print]

/-- An instant whose year the transport text can carry. -/
def Carried (t : Instant) : Prop := 0 ≤ year t ∧ year t ≤ 9999

theorem found_parse {t created : Instant} :
    found Err.corrupt (Rfc3339.parse (Rfc3339.format t)) = .ok created ↔
      Carried t ∧ created = t := by
  rw [found_ok, Rfc3339.parse_format]
  split
  · rename_i carried
    simp [Carried, carried, eq_comm]
  · rename_i outside
    simp [Carried, outside]

theorem instant_stamp {t read : Option Instant} :
    instant (stamp t) = .ok read ↔ (∀ u ∈ t, Carried u) ∧ read = t := by
  cases t with
  | none => simp [instant, stamp, eq_comm]
  | some t =>
    simp only [instant, stamp, format_ne_empty, if_false, Rfc3339.parse_format]
    by_cases carried : 0 ≤ year t ∧ year t ≤ 9999
    · simp [Carried, carried, eq_comm]
    · simp [Carried, carried]

/-- A version that is given back: its terms in canonical order, the rest unchanged. -/
def canonical (v : Version) : Version := { v with terms := v.terms.canonical }

/-- The order of the terms does not show in the integrity of a version. -/
theorem integrity_canonical (digest : String → Terms → String) (v : Version) :
    (canonical v).integrity digest = .ok () ↔ v.integrity digest = .ok () := by
  have same : hash digest v.name v.terms.canonical = hash digest v.name v.terms :=
    congrArg (digest v.name) v.terms.canonical_canonical
  simp only [Version.integrity, canonical, bind_ok, require_ok, same]
  rfl

/-- What the projection makes of an emitted version: the instants that the transport
carries, and the terms without feature codes, if the content hash still agrees. -/
theorem version_dto {digest : String → Terms → String} {v read : Version} :
    version digest (some (dto v)) = .ok read ↔
      Carried v.createdAt ∧ (∀ t ∈ v.publishedAt, Carried t) ∧ (∀ t ∈ v.retiredAt, Carried t) ∧
        read = canonical { v with terms := { v.terms with featureCodes := [] } } ∧
        read.integrity digest = .ok () := by
  simp only [version, bind_ok, pure_ok, found_ok, Option.some.injEq, exists_eq_left']
  constructor
  · rintro ⟨_, readTerms, created, readCreated, published, readPublished, retired, readRetired,
      ⟨⟩, intact, rfl⟩
    simp only [dto, terms_termsDto, Except.ok.injEq] at readTerms
    obtain ⟨carried, rfl⟩ := found_parse.mp (found_ok.mpr readCreated)
    obtain ⟨carriedPublished, rfl⟩ := instant_stamp.mp readPublished
    obtain ⟨carriedRetired, rfl⟩ := instant_stamp.mp readRetired
    subst readTerms
    exact ⟨carried, carriedPublished, carriedRetired, rfl, intact⟩
  · rintro ⟨created, published, retired, rfl, intact⟩
    exact ⟨_, terms_termsDto v.terms, v.createdAt,
      found_ok.mp (found_parse.mpr ⟨created, rfl⟩), v.publishedAt,
      instant_stamp.mpr ⟨published, rfl⟩, v.retiredAt, instant_stamp.mpr ⟨retired, rfl⟩, (),
      intact, rfl⟩

/-- A catalogue with one module. -/
def sampleCatalog : Catalog :=
  [{ code := "device", technicalStatus := .ready, salesStatus := .sellable, version := 1,
     capabilities := ["device.read"], quotaKeys := [], fieldKeys := [], dependencies := [],
     salesScope := [] }]

/-- Terms with a feature code. -/
def sampleTerms : Terms :=
  { modules := [{ code := "device", capabilities := ["device.read"], quotas := [], fields := [] }],
    featureCodes := ["reports"], salesScope := ["*"], validityMode := .unlimited,
    validityDays := 0, priceRef := "" }

/-- A digest that shows the feature codes. -/
def sampleDigest (name : String) (t : Terms) : String := name ++ "/" ++ String.join t.featureCodes

/-- A published version from the first of January 2026. -/
def sampleVersion : Version :=
  { planCode := "basic", number := 1, revision := 2, planRevision := 2, state := .published,
    name := "Basic", terms := sampleTerms, contentSha256 := hash sampleDigest "Basic" sampleTerms,
    createdAt := 739616 * day, publishedAt := some (739617 * day),
    retiredAt := none, actorId := "admin", reason := "launch" }

theorem sampleVersion_intact : sampleVersion.integrity sampleDigest = .ok () := by decide +kernel

/-- An emitted version is given back if and only if it has no feature codes and all
of its instants have a year of four digits. -/
theorem version_dto_eq_iff {digest : String → Terms → String} {v : Version}
    (intact : v.integrity digest = .ok ()) :
    version digest (some (dto v)) = .ok (canonical v) ↔
      v.terms.featureCodes = [] ∧ Carried v.createdAt ∧ (∀ t ∈ v.publishedAt, Carried t) ∧
        ∀ t ∈ v.retiredAt, Carried t := by
  rw [version_dto]
  constructor
  · rintro ⟨created, published, retired, same, -⟩
    refine ⟨?_, created, published, retired⟩
    have codes : sortBy id v.terms.featureCodes = [] :=
      congrArg (fun read : Version => read.terms.featureCodes) same
    have sorted := List.perm_insertionSort (fun a b => id a ≤ id b) v.terms.featureCodes
    rw [show v.terms.featureCodes.insertionSort _ = [] from codes] at sorted
    exact List.nil_perm.mp sorted
  · rintro ⟨none, created, published, retired⟩
    refine ⟨created, published, retired, ?_, (integrity_canonical digest v).mpr intact⟩
    rw [← none]

/-- A valid, intact version with a feature code is refused as corrupt. -/
theorem featured_version_refused :
    sampleTerms.validate sampleCatalog = .ok () ∧
      sampleVersion.integrity sampleDigest = .ok () ∧
      version sampleDigest (some (dto sampleVersion)) = .error .corrupt := by
  refine ⟨by decide +kernel, sampleVersion_intact, by decide +kernel⟩

/-- The version without its feature code. -/
def plainVersion : Version :=
  let terms := { sampleTerms with featureCodes := [] }
  { sampleVersion with terms, contentSha256 := hash sampleDigest "Basic" terms }

/-- The version without the feature code is given back, the one with it is not. -/
theorem version_dto_eq_iff_sample :
    version sampleDigest (some (dto plainVersion)) = .ok (canonical plainVersion) ∧
      version sampleDigest (some (dto sampleVersion)) ≠ .ok (canonical sampleVersion) := by
  have carried : Carried (739616 * day) ∧ Carried (739617 * day) := by
    unfold Carried
    decide +kernel
  constructor
  · refine (version_dto_eq_iff (by decide +kernel)).mpr ⟨rfl, carried.1, ?_, nofun⟩
    rintro _ ⟨⟩
    exact carried.2
  · intro same
    exact absurd ((version_dto_eq_iff sampleVersion_intact).mp same).1 (by decide)

end Projection

end Biz.Plan
