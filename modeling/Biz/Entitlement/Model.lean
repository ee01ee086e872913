import Biz.Library.Calendar
import Biz.Library.Checks
import Biz.Library.Keyed
import Biz.Library.Search
import Biz.Text

/-!
# Entitlement sources and the module catalogue

The types of `domain/entitlement/model.go` and their checks. A source grants,
denies or limits one module, capability, quota or field action of one tenant for
an interval of time; the catalogue says which keys exist and which modules a
module depends on.

Each string enumeration has a constructor for every value the package names and
one for all other texts, which the checks reject. Instants carry no location, so
`Year()` is the year in UTC.
-/

namespace Biz.Entitlement

open Time Checks Search

inductive Kind
  | module | capability | quota | field
  | unrecognised (text : String)
  deriving DecidableEq

/-- The text that the code stores and hashes. -/
def Kind.text : Kind → String
  | .module => "module"
  | .capability => "capability"
  | .quota => "quota"
  | .field => "field"
  | .unrecognised text => text

inductive Effect
  | grant | deny | quotaAdd | quotaReplace | safetyDeny | safetyMask
  | unrecognised (text : String)
  deriving DecidableEq

inductive SourceKind
  | override | plan | addon
  | unrecognised (text : String)
  deriving DecidableEq

/-- The text by which the resolver orders and identifies sources. -/
def SourceKind.text : SourceKind → String
  | .override => "override"
  | .plan => "plan"
  | .addon => "addon"
  | .unrecognised text => text

/-- The action of a field source; the empty text of every other kind is `none`. -/
inductive Action
  | none | read | write | exported
  | unrecognised (text : String)
  deriving DecidableEq

def Action.text : Action → String
  | .none => ""
  | .read => "read"
  | .write => "write"
  | .exported => "export"
  | .unrecognised text => text

/-- The actions a field can be granted for. -/
def fieldActions : List Action := [.read, .write, .exported]

inductive TechnicalStatus
  | ready | notReady | disabled
  | unrecognised (text : String)
  deriving DecidableEq

/-- Only the value `sellable` is ever compared with. -/
inductive SalesStatus
  | sellable
  | other (text : String)
  deriving DecidableEq

/-- The errors of the package; `capabilityCode` wraps the first one with the
text `capability code`. -/
inductive Err
  | invalid | capabilityCode | catalog | scope
  deriving DecidableEq

def maxInt64 : UInt64 := 9223372036854775807

/-- A quota; zero and unlimited are distinct. -/
structure Limit where
  unlimited : Bool := false
  value : UInt64 := 0
  deriving DecidableEq

def Limit.valid (l : Limit) : Bool := l.value ≤ maxInt64 && (!l.unlimited || l.value = 0)

structure Source where
  id : String
  tenantId : String
  sourceKind : SourceKind
  moduleCode : String
  kind : Kind
  key : String
  action : Action
  effect : Effect
  limit : Limit
  effectiveAt : Instant
  expiresAt : Option Instant
  revokedAt : Option Instant
  reason : String
  actorId : String
  version : Nat
  deriving DecidableEq

inductive SourceState
  | revoked | scheduled | expired | active
  deriving DecidableEq

variable (s : Source)

/-- The state of a source at an instant. -/
def Source.state (now : Instant) : SourceState :=
  if ∃ revoked ∈ s.revokedAt, revoked ≤ now then .revoked
  else if now < s.effectiveAt then .scheduled
  else if ∃ expires ∈ s.expiresAt, expires ≤ now then .expired
  else .active

def Source.active (now : Instant) : Bool := s.state now = .active

structure ModuleDefinition where
  code : String
  technicalStatus : TechnicalStatus
  salesStatus : SalesStatus
  version : Nat
  capabilities : List String
  quotaKeys : List String
  fieldKeys : List String
  dependencies : List String
  deriving DecidableEq

abbrev Catalog := List ModuleDefinition

def validCode (s : String) : Bool := s.utf8ByteSize ≤ 120 && Text.code s

/-- The loop over one of the lists of keys of a module, with the keys seen so far. -/
def registerKeys : List String → List String → Except Err Unit
  | _, [] => .ok ()
  | seen, key :: rest => do
    require .catalog (validCode key ∧ key ∉ seen)
    registerKeys (key :: seen) rest

/-- The loop that records the module as the owner of its capabilities; a capability
without an owner has the empty text. -/
def registerOwners (code : String) : (String → String) → List String →
    Except Err (String → String)
  | owners, [] => .ok owners
  | owners, key :: rest => do
    require .catalog (owners key = "" ∨ owners key = code)
    registerOwners code (fun other => if other = key then code else owners other) rest

/-- The first loop of `Catalog.Validate`, with the codes and owners seen so far. -/
def registerModules : List String → (String → String) → List ModuleDefinition → Except Err Unit
  | _, _, [] => .ok ()
  | seen, owners, m :: rest => do
    require .catalog (validCode m.code ∧ m.version ≠ 0)
    require .catalog (m.code ∉ seen)
    require .catalog (m.technicalStatus = .ready ∨ m.technicalStatus = .notReady ∨
      m.technicalStatus = .disabled)
    registerKeys [] m.capabilities
    registerKeys [] m.quotaKeys
    registerKeys [] m.fieldKeys
    let owners ← registerOwners m.code owners m.capabilities
    registerModules (m.code :: seen) owners rest

namespace Catalog

/-- The first module with the code. -/
def definition (c : Catalog) (code : String) : Option ModuleDefinition :=
  c.find? fun m => m.code = code

/-- The graph that the search for cycles walks; a dependency outside the catalogue
ends the walk. -/
def dependencies (c : Catalog) (code : String) : Option (List String) :=
  (c.definition code).map (·.dependencies)

/-- The search starts from the modules in the order of a Go map, which does not
show: every failure is the same error. -/
def validate (c : Catalog) : Except Err Unit := do
  registerModules [] (fun _ => "") c
  match search c.dependencies (c.map (·.code)) with
  | .ok _ => .ok ()
  | .error _ => .error .catalog

end Catalog

/-- The checks that modules, capabilities and fields share after those of their kind. -/
def Source.validateEffect : Except Err Unit := do
  require .invalid (s.limit = {})
  if s.effect = .safetyMask then
    require .invalid (s.kind = .field ∧ s.action ≠ .write)
  else
    require .invalid (s.effect = .grant ∨ s.effect = .deny ∨ s.effect = .safetyDeny)

def Source.validateShape : Except Err Unit := do
  require .invalid (s.id ≠ "" ∧ s.id.utf8ByteSize ≤ 128 ∧ Text.trimSpace s.tenantId ≠ "" ∧
    s.tenantId.utf8ByteSize ≤ 64 ∧ validCode s.moduleCode ∧ validCode s.key ∧ s.version ≠ 0 ∧
    Text.trimSpace s.reason ≠ "" ∧ s.reason.utf8ByteSize ≤ 512 ∧ s.actorId ≠ "" ∧
    s.actorId.utf8ByteSize ≤ 200)
  require .invalid (s.sourceKind = .override ∨ s.sourceKind = .plan ∨ s.sourceKind = .addon)
  require .invalid (¬isZero s.effectiveAt ∧ 1970 ≤ Calendar.year s.effectiveAt ∧
    Calendar.year s.effectiveAt ≤ 9999 ∧ s.effectiveAt % microsecond = 0)
  require .invalid (∀ expires ∈ s.expiresAt, s.effectiveAt < expires ∧
    Calendar.year expires ≤ 9999 ∧ expires % microsecond = 0)
  require .invalid (∀ revoked ∈ s.revokedAt, ¬isZero revoked ∧ revoked % microsecond = 0)
  require .invalid (s.limit.valid)
  match s.kind with
  | .module => do
    require .invalid (s.key = s.moduleCode ∧ s.action = .none)
    s.validateEffect
  | .capability => do
    require .invalid (s.action = .none)
    s.validateEffect
  | .quota =>
    require .invalid (s.action = .none ∧ (s.effect = .quotaAdd ∨ s.effect = .quotaReplace) ∧
      (s.effect = .quotaAdd → ¬s.limit.unlimited ∧ s.limit.value ≠ 0))
  | .field => do
    require .invalid (s.action ∈ fieldActions)
    s.validateEffect
  | .unrecognised _ => .error .invalid

def Source.validate (c : Catalog) : Except Err Unit := do
  s.validateShape
  let m ← found .catalog (c.definition s.moduleCode)
  match s.kind with
  | .capability => require .catalog (s.key ∈ m.capabilities)
  | .quota => require .catalog (s.key ∈ m.quotaKeys)
  | .field => require .catalog (s.key ∈ m.fieldKeys)
  | _ => .ok ()

variable {code : String}

theorem validCode_ne_empty (valid : validCode code = true) : code ≠ "" := by
  rw [validCode, Bool.and_eq_true] at valid
  exact Text.code_ne_empty valid.2

theorem registerKeys_ok {seen keys : List String} {done : Unit} :
    registerKeys seen keys = .ok done ↔
      keys.Nodup ∧ ∀ key ∈ keys, validCode key = true ∧ key ∉ seen := by
  induction keys generalizing seen with
  | nil => simp [registerKeys]
  | cons key rest ih =>
    simp only [registerKeys, bind_ok, require_ok, ih, List.nodup_cons, List.mem_cons]
    grind

theorem registerOwners_ok {owners after : String → String} {keys : List String} :
    registerOwners code owners keys = .ok after ↔
      (∀ key ∈ keys, owners key = "" ∨ owners key = code) ∧
        after = fun key => if key ∈ keys then code else owners key := by
  induction keys generalizing owners with
  | nil => simpa [registerOwners] using eq_comm
  | cons key rest ih =>
    simp only [registerOwners, bind_ok, require_ok, ih, List.mem_cons]
    grind

/-- A list of keys of a module: valid codes without repetition. -/
def Keys (keys : List String) : Prop := keys.Nodup ∧ ∀ key ∈ keys, validCode key = true

/-- What a validation asks of one module. -/
structure ModuleDefinition.WellFormed (m : ModuleDefinition) : Prop where
  code : validCode m.code = true
  version : m.version ≠ 0
  status : m.technicalStatus = .ready ∨ m.technicalStatus = .notReady ∨
    m.technicalStatus = .disabled
  capabilities : Keys m.capabilities
  quotaKeys : Keys m.quotaKeys
  fieldKeys : Keys m.fieldKeys

/-- Two modules that share no capability. -/
def Apart (m n : ModuleDefinition) : Prop := ∀ key ∈ m.capabilities, key ∉ n.capabilities

variable {owners : String → String}

/-- The loop over the modules succeeds exactly when each is well formed, is new and takes
no capability of another one. -/
theorem registerModules_ok {modules : List ModuleDefinition} {seen : List String} {done : Unit} :
    registerModules seen owners modules = .ok done ↔
      (∀ m ∈ modules, m.WellFormed ∧ m.code ∉ seen ∧
        ∀ key ∈ m.capabilities, owners key = "" ∨ owners key = m.code) ∧
      (modules.map (·.code)).Nodup ∧ modules.Pairwise Apart := by
  induction modules generalizing seen owners with
  | nil => simp [registerModules]
  | cons m rest ih =>
    simp only [registerModules, bind_ok, require_ok, registerKeys_ok, registerOwners_ok, ih,
      List.forall_mem_cons, List.map_cons, List.nodup_cons, List.pairwise_cons,
      List.not_mem_nil, not_false_eq_true, and_true]
    constructor
    · rintro ⟨-, ⟨code, version⟩, -, fresh, -, status, -, capabilities, -, quotas, -, fields, -,
        ⟨unowned, rfl⟩, others, distinct, apart⟩
      have formed : m.WellFormed := ⟨code, version, status, capabilities, quotas, fields⟩
      have named := validCode_ne_empty code
      grind [Apart]
    · rintro ⟨⟨⟨formed, fresh, unowned⟩, others⟩, ⟨new, distinct⟩, apart, rest⟩
      refine ⟨(), ⟨formed.code, formed.version⟩, (), fresh, (), formed.status, (),
        formed.capabilities, (), formed.quotaKeys, (), formed.fieldKeys, _, ⟨unowned, rfl⟩, ?_,
        distinct, rest⟩
      grind [Apart]

variable {failure : Err}

theorem registerKeys_error {seen keys : List String}
    (failed : registerKeys seen keys = .error failure) : failure = .catalog := by
  induction keys generalizing seen with
  | nil => cases failed
  | cons key rest ih =>
    rcases bind_error.mp failed with refused | ⟨_, -, failed⟩
    · exact (require_error.mp refused).2.symm
    · exact ih failed

theorem registerOwners_error {keys : List String}
    (failed : registerOwners code owners keys = .error failure) :
    failure = .catalog := by
  induction keys generalizing owners with
  | nil => cases failed
  | cons key rest ih =>
    rcases bind_error.mp failed with refused | ⟨_, -, failed⟩
    · exact (require_error.mp refused).2.symm
    · exact ih failed

/-- Every refusal is the one error of catalogues. -/
theorem registerModules_error {modules : List ModuleDefinition} {seen : List String}
    (failed : registerModules seen owners modules = .error failure) : failure = .catalog := by
  induction modules generalizing seen owners with
  | nil => cases failed
  | cons m rest ih =>
    simp only [registerModules, bind_error, require_error] at failed
    grind [registerKeys_error, registerOwners_error]

namespace Catalog

variable {c : Catalog}

theorem definition_mem {m : ModuleDefinition}
    (defined : c.definition code = some m) : m ∈ c ∧ m.code = code :=
  ⟨List.mem_of_find?_eq_some defined, by simpa using List.find?_some defined⟩

/-- A module outside the graph is not in the catalogue, and a search from all codes
visits the whole graph. -/
theorem code_mem_of_dependencies (present : c.dependencies code ≠ none) :
    code ∈ c.map (·.code) := by
  cases defined : c.definition code with
  | none => simp [dependencies, defined] at present
  | some m =>
    obtain ⟨member, rfl⟩ := definition_mem defined
    exact List.mem_map_of_mem member

theorem definition_of_mem (distinct : (c.map (·.code)).Nodup) {m : ModuleDefinition}
    (member : m ∈ c) : c.definition m.code = some m := by
  cases defined : c.definition m.code with
  | none => simpa using List.find?_eq_none.mp defined m member
  | some other =>
    obtain ⟨inside, same⟩ := definition_mem defined
    rw [List.inj_on_of_nodup_map distinct inside member same]

/-- `validate` with the order in which the Go map gives the codes. -/
def validateFrom (c : Catalog) (starts : List String) : Except Err Unit := do
  registerModules [] (fun _ => "") c
  match search c.dependencies starts with
  | .ok _ => .ok ()
  | .error _ => .error .catalog

theorem validate_eq : c.validate = c.validateFrom (c.map (·.code)) := rfl

variable {starts : List String}

theorem validateFrom_ok :
    c.validateFrom starts = .ok () ↔ registerModules [] (fun _ => "") c = .ok () ∧
      ∃ order, search c.dependencies starts = .ok order := by
  rw [validateFrom, bind_ok]
  cases search c.dependencies starts with
  | ok order => simp [Unique.exists_iff]
  | error failure => simp

/-- A valid catalogue lists each code once and orders its dependencies. -/
theorem validate_ok (valid : c.validate = .ok ()) :
    (c.map (·.code)).Nodup ∧ ∃ order, Search.Topological c.dependencies order ∧
      order.length ≤ c.length ∧ ∀ code, c.dependencies code = none ∨ code ∈ order := by
  rw [validate_eq, validateFrom_ok] at valid
  obtain ⟨registered, order, finished⟩ := valid
  refine ⟨(registerModules_ok.mp registered).2.1, order, ?_⟩
  simpa using search_ok (fun _ => code_mem_of_dependencies) finished

/-- The dependencies between modules of the catalogue: the first is one of those that the
second names. -/
def Supports (c : Catalog) (dependency code : String) : Prop :=
  dependency ∈ c.map (·.code) ∧ ∃ m ∈ c, m.code = code ∧ dependency ∈ m.dependencies

/-- A catalogue that keeps every rule: the modules and their keys, one owner for each
capability, and no cycle of dependencies. -/
structure WellFormed (c : Catalog) : Prop where
  modules : ∀ m ∈ c, m.WellFormed
  distinct : (c.map (·.code)).Nodup
  owned : c.Pairwise Apart
  acyclic : ∀ code, ¬Relation.TransGen c.Supports code code

theorem below_iff (distinct : (c.map (·.code)).Nodup) {s code : String} :
    Below c.dependencies s code ↔ ∃ m ∈ c, m.code = code ∧ s ∈ m.dependencies := by
  simp only [Below, dependencies, Option.map_eq_some_iff]
  constructor
  · rintro ⟨_, ⟨m, defined, rfl⟩, listed⟩
    obtain ⟨member, named⟩ := definition_mem defined
    exact ⟨m, member, named, listed⟩
  · rintro ⟨m, member, rfl, listed⟩
    exact ⟨_, ⟨m, definition_of_mem distinct member, rfl⟩, listed⟩

/-- A cycle of the graph that the search walks runs through modules of the catalogue. -/
theorem cycle_iff (distinct : (c.map (·.code)).Nodup) :
    Relation.TransGen (Below c.dependencies) code code ↔
      Relation.TransGen c.Supports code code := by
  constructor
  · intro cycle
    have inside {s : String} (path : Relation.TransGen (Below c.dependencies) s code)
        (known : s ∈ c.map (·.code)) : Relation.TransGen c.Supports s code := by
      induction path using Relation.TransGen.head_induction_on with
      | single step => exact .single ⟨known, (below_iff distinct).mp step⟩
      | head step _ ih =>
        obtain ⟨m, member, rfl, listed⟩ := (below_iff distinct).mp step
        exact .head ⟨known, m, member, rfl, listed⟩ (ih (List.mem_map_of_mem member))
    obtain ⟨s, -, last⟩ := Relation.TransGen.tail'_iff.mp cycle
    obtain ⟨m, member, rfl, -⟩ := (below_iff distinct).mp last
    exact inside cycle (List.mem_map_of_mem member)
  · exact Relation.TransGen.mono (fun s code supports => (below_iff distinct).mpr supports.2) _ _

theorem validateFrom_wellFormed (all : ∀ code ∈ c.map (·.code), code ∈ starts) :
    c.validateFrom starts = .ok () ↔ c.WellFormed := by
  rw [validateFrom_ok, registerModules_ok,
    search_ok_iff fun code present => all code (code_mem_of_dependencies present)]
  simp only [List.not_mem_nil, not_false_eq_true, true_or, implies_true, and_true]
  constructor
  · rintro ⟨⟨modules, distinct, apart⟩, acyclic⟩
    exact ⟨modules, distinct, apart, fun code cycle =>
      acyclic code ((cycle_iff distinct).mpr cycle)⟩
  · intro formed
    exact ⟨⟨formed.modules, formed.distinct, formed.owned⟩, fun code cycle =>
      formed.acyclic code ((cycle_iff formed.distinct).mp cycle)⟩

theorem WellFormed.perm {c' : Catalog} (formed : c.WellFormed) (same : c.Perm c') :
    c'.WellFormed := by
  have supports : c'.Supports = c.Supports := by
    funext dependency code
    simp only [Supports, same.mem_iff, (same.map _).mem_iff]
  refine ⟨fun m member => formed.modules m (same.mem_iff.mpr member),
    (same.map _).nodup formed.distinct, same.pairwise formed.owned ?_, ?_⟩
  · exact fun apart key left right => apart key right left
  · rw [supports]
    exact formed.acyclic

theorem validateFrom_error
    (failed : c.validateFrom starts = .error failure) : failure = .catalog := by
  rcases bind_error.mp failed with refused | ⟨_, -, searched⟩
  · exact registerModules_error refused
  · split at searched <;> cases searched
    rfl

/-- A validation ends, accepts exactly the well-formed catalogues, and answers the same
for every order of the modules and of the Go map. -/
theorem validate_decides (c : Catalog) (starts : List String)
    (iterated : ∀ code, code ∈ starts ↔ code ∈ c.map (·.code)) :
    search c.dependencies starts ≠ .error .exhausted ∧
      (c.validateFrom starts = .ok () ↔ c.WellFormed) ∧
      ∀ (c' : Catalog) (starts' : List String), c'.Perm c →
        (∀ code, code ∈ starts' ↔ code ∈ c'.map (·.code)) →
          c'.validateFrom starts' = c.validateFrom starts := by
  have decides := validateFrom_wellFormed fun code => (iterated code).mpr
  refine ⟨search_not_exhausted fun code present =>
    (iterated code).mpr (code_mem_of_dependencies present), decides, ?_⟩
  intro c' starts' same iterated'
  have decides' := validateFrom_wellFormed fun code => (iterated' code).mpr
  cases first : c'.validateFrom starts' with
  | ok _ => exact (decides.mpr ((decides'.mp first).perm same)).symm
  | error failure =>
    cases second : c.validateFrom starts with
    | ok _ =>
      have formed := (decides.mp second).perm same.symm
      rw [decides'.mpr formed] at first
      cases first
    | error other => rw [validateFrom_error first, validateFrom_error second]

/-- A module that depends on a second one and on one outside the catalogue. -/
def dangling : Catalog :=
  [⟨"a", .ready, .sellable, 1, ["a.read"], ["a.seats"], [], ["b", "outside"]⟩,
    ⟨"b", .disabled, .sellable, 2, ["b.read"], [], [], []⟩]

theorem validate_decides_dangling :
    dangling.validateFrom ["b", "a"] = .ok () ∧ dangling.WellFormed ∧
      validateFrom dangling.reverse ["a", "b"] = .ok () := by
  have accepted : dangling.validateFrom ["b", "a"] = .ok () := by decide +kernel
  obtain ⟨-, decides, orders⟩ := validate_decides dangling ["b", "a"] (by simp [dangling, or_comm])
  refine ⟨accepted, decides.mp accepted, ?_⟩
  rw [orders dangling.reverse ["a", "b"] (List.reverse_perm _) (by simp [dangling, or_comm])]
  exact accepted

end Catalog

end Biz.Entitlement
