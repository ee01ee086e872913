import Biz.Entitlement.Model

/-!
# Plan versions

The offers of `domain/plan/model.go`: the terms of a plan, their validation against
the module catalogue, their canonical order and the integrity of a version.

A slice is a list. The code builds every empty slice of a `Terms` as `nil`, so the
two JSON texts of an empty slice do not occur side by side in a content hash. The
hash is a parameter: a function of the name and the canonical terms.
-/

namespace Biz.Plan

open Time Checks

inductive Err
  | invalid | catalog | corrupt
  deriving DecidableEq

def code (v : String) : Bool := 0 < v.utf8ByteSize && v.utf8ByteSize ≤ 96 && Text.code v

structure Quota where
  key : String
  unlimited : Bool
  value : UInt64
  deriving DecidableEq

def Quota.limit (q : Quota) : Entitlement.Limit := { unlimited := q.unlimited, value := q.value }

inductive Mode
  | deny | masked | allow
  | unrecognised (text : String)
  deriving DecidableEq

structure Field where
  key : String
  action : Entitlement.Action
  mode : Mode
  deriving DecidableEq

/-- The text that identifies and orders the fields of a module. -/
def Field.identity (f : Field) : String := f.key ++ "/" ++ f.action.text

structure Module where
  code : String
  capabilities : List String
  quotas : List Quota
  fields : List Field
  deriving DecidableEq

inductive ValidityMode
  | unlimited | fixedDays
  | unrecognised (text : String)
  deriving DecidableEq

structure Terms where
  modules : List Module
  featureCodes : List String
  salesScope : List String
  validityMode : ValidityMode
  validityDays : Nat
  priceRef : String
  deriving DecidableEq

inductive VersionState
  | draft | published | retired
  | unrecognised (text : String)
  deriving DecidableEq

structure Version where
  planCode : String
  number : Nat
  revision : Nat
  planRevision : Nat
  state : VersionState
  name : String
  terms : Terms
  contentSha256 : String
  createdAt : Instant
  publishedAt : Option Instant
  retiredAt : Option Instant
  actorId : String
  reason : String
  deriving DecidableEq

/-- A module of the catalogue with the scopes it may be sold in. -/
structure Definition extends Entitlement.ModuleDefinition where
  salesScope : List String

abbrev Catalog := List Definition

def Catalog.find (c : Catalog) (code : String) : Option Definition :=
  c.find? fun d => d.code = code

def allowedScope (scopes : List String) (target : String) : Bool :=
  scopes.isEmpty || scopes.contains "*" || scopes.contains target

/-- The loop over the sales scopes; `total` is the number of all of them. -/
def checkScopes (total : Nat) : List String → List String → Except Err Unit
  | _, [] => .ok ()
  | seen, s :: rest => do
    require .invalid (s ∉ seen ∧ (s = "*" → total = 1) ∧ (s ≠ "*" → code s))
    checkScopes total (s :: seen) rest

def checkFeatures : List String → List String → Except Err Unit
  | _, [] => .ok ()
  | seen, feature :: rest => do
    require .invalid (code feature ∧ feature ∉ seen)
    checkFeatures (feature :: seen) rest

/-- The capabilities of a module, with those of the plan so far. -/
def checkCapabilities (d : Definition) : List String → List String → Except Err (List String)
  | caps, [] => .ok caps
  | caps, key :: rest => do
    require .catalog (key ∉ caps ∧ key ∈ d.capabilities)
    checkCapabilities d (key :: caps) rest

def checkQuotas (d : Definition) : List String → List Quota → Except Err Unit
  | _, [] => .ok ()
  | seen, q :: rest => do
    require .invalid (q.key ∉ seen ∧ q.key ∈ d.quotaKeys ∧ q.limit.valid)
    checkQuotas d (q.key :: seen) rest

def checkFields (d : Definition) : List String → List Field → Except Err Unit
  | _, [] => .ok ()
  | seen, f :: rest => do
    require .invalid (f.identity ∉ seen ∧ f.key ∈ d.fieldKeys ∧
      f.action ∈ Entitlement.fieldActions ∧ f.mode ∈ [Mode.deny, .masked, .allow] ∧
      ¬(f.action = .write ∧ f.mode = .masked))
    -- The floor of the code: no plan opens the raw profile of a member.
    require .invalid (¬(f.key = "member.profile" ∧ f.action ≠ .write ∧ f.mode = .allow))
    checkFields d (f.identity :: seen) rest

/-- The loop over the modules, with the codes and the capabilities selected so far. -/
def checkModules (c : Catalog) (scope : List String) :
    List String → List String → List Module → Except Err (List String × List String)
  | selected, caps, [] => .ok (selected, caps)
  | selected, caps, m :: rest => do
    require .invalid (code m.code ∧ m.code ∉ selected ∧ m.capabilities.length ≠ 0 ∧
      m.capabilities.length ≤ 256 ∧ m.quotas.length ≤ 256 ∧ m.fields.length ≤ 768)
    let d ← found .catalog (c.find m.code)
    require .catalog (d.version ≠ 0 ∧ d.technicalStatus = .ready ∧ d.salesStatus = .sellable)
    require .catalog (∀ s ∈ scope, allowedScope d.salesScope s)
    let caps ← checkCapabilities d caps m.capabilities
    checkQuotas d [] m.quotas
    checkFields d [] m.fields
    checkModules c scope (m.code :: selected) caps rest

/-- The dependencies of a selected module. -/
def moduleDependencies (c : Catalog) (m : Module) : List String :=
  match c.find m.code with
  | some d => d.dependencies
  | none => []

def Terms.validate (t : Terms) (c : Catalog) : Except Err Unit := do
  require .invalid (t.modules.length ≠ 0 ∧ t.modules.length ≤ 100 ∧ t.featureCodes.length ≤ 100 ∧
    t.salesScope.length ≠ 0 ∧ t.salesScope.length ≤ 64 ∧ t.priceRef.utf8ByteSize ≤ 128 ∧
    Text.trimSpace t.priceRef = t.priceRef)
  require .invalid ((t.validityMode = .unlimited ∧ t.validityDays = 0) ∨
    (t.validityMode = .fixedDays ∧ 1 ≤ t.validityDays ∧ t.validityDays ≤ 36500))
  checkScopes t.salesScope.length [] t.salesScope
  checkFeatures [] t.featureCodes
  let (selected, caps) ← checkModules c t.salesScope [] [] t.modules
  require .catalog (∀ m ∈ t.modules, ∀ dep ∈ moduleDependencies c m, dep ∈ selected)
  require .catalog ("device.transfer" ∈ caps → "device.lifecycle" ∈ caps)

/-- The reasons of `Eligibility`. -/
inductive Eligibility
  | eligible | invalidSalesScope | notSellable | scopeMismatch
  | terms (error : Err)
  deriving DecidableEq

def Version.eligibility (v : Version) (scope : String) (c : Catalog) : Eligibility :=
  if ¬code scope then .invalidSalesScope
  else if v.state ≠ .published then .notSellable
  else if ¬allowedScope v.terms.salesScope scope then .scopeMismatch
  else
    match v.terms.validate c with
    | .ok _ => .eligible
    | .error error => .terms error

/-- Lists in the order of `sort.Slice` by a text. The checks of `Terms.Validate`
make the texts distinct, so an order that is not stable gives the same list. -/
def sortBy {α : Type} (text : α → String) (items : List α) : List α :=
  items.insertionSort fun a b => text a ≤ text b

def Module.canonical (m : Module) : Module :=
  { m with
    capabilities := sortBy id m.capabilities, quotas := sortBy (·.key) m.quotas,
    fields := sortBy Field.identity m.fields }

/-- The JSON round trip in it is the identity on values. -/
def Terms.canonical (t : Terms) : Terms :=
  { t with
    modules := (sortBy Module.code t.modules).map Module.canonical,
    featureCodes := sortBy id t.featureCodes, salesScope := sortBy id t.salesScope }

section Integrity

-- The hexadecimal SHA-256 of the JSON text of a name and canonical terms.
variable (digest : String → Terms → String)

def hash (name : String) (t : Terms) : String := digest name t.canonical

def Version.integrity (v : Version) : Except Err Unit := do
  require .corrupt (code v.planCode ∧ v.number ≠ 0 ∧ v.revision ≠ 0 ∧ v.planRevision ≠ 0 ∧
    Text.trimSpace v.name ≠ "" ∧ v.name.utf8ByteSize ≤ 160 ∧ ¬isZero v.createdAt ∧
    v.contentSha256 = hash digest v.name v.terms)
  match v.state with
  | .draft => require .corrupt (v.publishedAt = none ∧ v.retiredAt = none)
  | .published => require .corrupt (v.publishedAt ≠ none ∧ v.retiredAt = none)
  | .retired => require .corrupt (v.publishedAt ≠ none ∧ v.retiredAt ≠ none)
  | .unrecognised _ => .error .corrupt

end Integrity

section Canonical

variable {α : Type} (text : α → String)

/-- Sorting sorted items changes nothing. -/
theorem sortBy_sortBy (items : List α) : sortBy text (sortBy text items) = sortBy text items := by
  exact (List.pairwise_insertionSort _ items).insertionSort_eq

/-- A change that keeps the texts does not change the order. -/
theorem sortBy_map (change : α → α) (keeps : ∀ a, text (change a) = text a) (items : List α) :
    sortBy text (items.map change) = (sortBy text items).map change := by
  refine (List.map_insertionSort _ _ change items fun a _ b _ => ?_).symm
  rw [keeps, keeps]

theorem Module.canonical_canonical (m : Module) : m.canonical.canonical = m.canonical := by
  simp only [Module.canonical, sortBy_sortBy]

theorem Terms.canonical_canonical (t : Terms) : t.canonical.canonical = t.canonical := by
  have modules := sortBy_map Module.code Module.canonical (fun _ => rfl)
    (sortBy Module.code t.modules)
  simp only [Terms.canonical, modules, sortBy_sortBy, List.map_map]
  congr 1
  exact List.map_congr_left fun m _ => m.canonical_canonical

end Canonical

/-- What `Terms.Validate` has checked of a selected module against its definition. -/
structure Module.Accepted (m : Module) (d : Definition) : Prop where
  code : Plan.code m.code
  capabilities : m.capabilities ≠ []
  ready : d.technicalStatus = .ready
  known : ∀ key ∈ m.capabilities, key ∈ d.capabilities
  quotas : (m.quotas.map (·.key)).Nodup ∧ ∀ q ∈ m.quotas, q.key ∈ d.quotaKeys ∧ q.limit.valid
  distinct : (m.fields.map Field.identity).Nodup
  fields : ∀ f ∈ m.fields, f.key ∈ d.fieldKeys ∧ f.action ∈ Entitlement.fieldActions ∧
    f.mode ∈ [Mode.deny, .masked, .allow] ∧ ¬(f.action = .write ∧ f.mode = .masked)

variable {d : Definition} {caps : List String} {t : Terms} {c : Catalog}

theorem checkCapabilities_ok {keys after : List String}
    (checked : checkCapabilities d caps keys = .ok after) :
    keys.Nodup ∧ ∀ key ∈ keys, key ∉ caps ∧ key ∈ d.capabilities := by
  induction keys generalizing caps with
  | nil => simp
  | cons key rest ih =>
    simp only [checkCapabilities, bind_ok, require_ok] at checked
    obtain ⟨-, here, checked⟩ := checked
    obtain ⟨distinct, later⟩ := ih checked
    simp only [List.mem_cons, not_or] at later
    refine ⟨List.nodup_cons.mpr ⟨fun again => (later key again).1.1 rfl, distinct⟩, ?_⟩
    refine List.forall_mem_cons.mpr ⟨here, fun other member => ?_⟩
    exact ⟨(later other member).1.2, (later other member).2⟩

theorem checkQuotas_ok {quotas : List Quota} {seen : List String}
    (checked : checkQuotas d seen quotas = .ok ()) :
    (quotas.map (·.key)).Nodup ∧
      ∀ q ∈ quotas, q.key ∉ seen ∧ q.key ∈ d.quotaKeys ∧ q.limit.valid := by
  induction quotas generalizing seen with
  | nil => simp
  | cons q rest ih =>
    simp only [checkQuotas, bind_ok, require_ok] at checked
    obtain ⟨-, here, checked⟩ := checked
    exact Keyed.fresh_cons.mpr ⟨here, ih checked⟩

theorem checkFields_ok {fields : List Field} {seen : List String}
    (checked : checkFields d seen fields = .ok ()) :
    (fields.map Field.identity).Nodup ∧
      ∀ f ∈ fields, f.identity ∉ seen ∧ f.key ∈ d.fieldKeys ∧
        f.action ∈ Entitlement.fieldActions ∧ f.mode ∈ [Mode.deny, .masked, .allow] ∧
        ¬(f.action = .write ∧ f.mode = .masked) := by
  induction fields generalizing seen with
  | nil => simp
  | cons f rest ih =>
    simp only [checkFields, bind_ok, require_ok] at checked
    obtain ⟨-, here, -, -, checked⟩ := checked
    exact Keyed.fresh_cons.mpr ⟨here, ih checked⟩

/-- The selected modules are those of the terms, each accepted by its definition. -/
theorem checkModules_ok {scope : List String} {modules : List Module} {selected : List String}
    {after : List String × List String}
    (checked : checkModules c scope selected caps modules = .ok after) :
    after.1 = (modules.map (·.code)).reverse ++ selected ∧
      (∀ m ∈ modules, m.code ∉ selected) ∧ (modules.map (·.code)).Nodup ∧
      ∀ m ∈ modules, m.capabilities.Nodup ∧ ∃ d, c.find m.code = some d ∧ m.Accepted d := by
  induction modules generalizing selected caps with
  | nil =>
    cases checked
    simp
  | cons m rest ih =>
    simp only [checkModules, bind_ok, require_ok, found_ok] at checked
    obtain ⟨-, ⟨valid, fresh, some_, -⟩, d, known, -, ⟨-, ready, -⟩, -, -, _, capabilities, ⟨⟩,
      quotas, ⟨⟩, fields, checked⟩ := checked
    obtain ⟨collected, unselected, distinct, accepted⟩ := ih checked
    have here : m.Accepted d :=
      { code := valid, capabilities := by simpa using some_, ready,
        known := fun key member => ((checkCapabilities_ok capabilities).2 key member).2
        quotas := (checkQuotas_ok quotas).imp_right fun each q member => (each q member).2,
        distinct := (checkFields_ok fields).1
        fields := fun f member => ((checkFields_ok fields).2 f member).2 }
    obtain ⟨new, unselected⟩ := Keyed.unseen_cons.mp unselected
    exact ⟨by simp [collected], List.forall_mem_cons.mpr ⟨fresh, unselected⟩,
      List.nodup_cons.mpr ⟨new, distinct⟩,
      List.forall_mem_cons.mpr ⟨⟨(checkCapabilities_ok capabilities).1, d, known, here⟩, accepted⟩⟩

/-- What `Terms.Validate` has checked of the modules of a plan. -/
structure Terms.Accepted (t : Terms) (c : Catalog) : Prop where
  distinct : (t.modules.map (·.code)).Nodup
  modules : ∀ m ∈ t.modules, ∃ d, c.find m.code = some d ∧ m.Accepted d ∧
    ∀ dep ∈ d.dependencies, ∃ other ∈ t.modules, other.code = dep

theorem Terms.accepted_of_validate (valid : t.validate c = .ok ()) : t.Accepted c := by
  simp only [validate, bind_ok, require_ok] at valid
  obtain ⟨-, -, -, -, -, -, -, -, ⟨selected, _⟩, checked, -, closed, -⟩ := valid
  obtain ⟨collected, -, distinct, accepted⟩ := checkModules_ok checked
  refine ⟨distinct, fun m member => ?_⟩
  obtain ⟨-, d, known, here⟩ := accepted m member
  refine ⟨d, known, here, fun dep listed => ?_⟩
  have inside := closed m member dep (by simpa [moduleDependencies, known] using listed)
  rw [show selected = _ from collected] at inside
  simpa using inside

/-- Accepted terms list no capability of a module twice. -/
theorem Terms.capabilities_nodup (valid : t.validate c = .ok ()) :
    ∀ m ∈ t.modules, m.capabilities.Nodup := by
  simp only [validate, bind_ok, require_ok] at valid
  obtain ⟨-, -, -, -, -, -, -, -, ⟨_, _⟩, checked, -⟩ := valid
  exact fun m member => ((checkModules_ok checked).2.2.2 m member).1

theorem Terms.modules_ne_nil (valid : t.validate c = .ok ()) : t.modules ≠ [] := by
  simp only [validate, bind_ok, require_ok] at valid
  obtain ⟨-, ⟨some_, -⟩, -⟩ := valid
  exact fun none => some_ (by rw [none]; rfl)

/-- An eligible version is published and its terms are valid. -/
theorem Version.eligible_iff {v : Version} {scope : String} :
    v.eligibility scope c = .eligible ↔
      code scope ∧ v.state = .published ∧ allowedScope v.terms.salesScope scope ∧
        v.terms.validate c = .ok () := by
  unfold eligibility
  cases valid : v.terms.validate c <;> split_ifs <;> simp_all

end Biz.Plan
