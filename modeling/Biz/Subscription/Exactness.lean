import Biz.Subscription.Materialize

/-!
# What a plan alone allows

Terms are validated against a catalogue, materialised into sources and resolved,
possibly after the catalogue has gained keys. The resolver grants a capability when
its module is granted, and a plan grants every module it selects; so a plan allows
every capability that the catalogue gives its modules, listed or not. A masked field
has a mask and no grant, so it is not allowed.
-/

namespace Biz.Subscription

open Time Entitlement

/-- A later state of a catalogue: the modules a plan was sold from are still there
with their status and dependencies, and may have gained keys. -/
def Grown (c : Plan.Catalog) (later : Catalog) : Prop :=
  ∀ code d, c.find code = some d → ∃ m, later.definition code = some m ∧
    m.technicalStatus = d.technicalStatus ∧ m.dependencies = d.dependencies ∧
    d.capabilities ⊆ m.capabilities ∧ d.quotaKeys ⊆ m.quotaKeys ∧ d.fieldKeys ⊆ m.fieldKeys

/-- The catalogue itself, as the resolver reads it. -/
theorem Grown.refl (c : Plan.Catalog) : Grown c (c.map (·.toModuleDefinition)) := by
  intro code d known
  refine ⟨d.toModuleDefinition, ?_, rfl, rfl, List.Subset.refl _, List.Subset.refl _,
    List.Subset.refl _⟩
  rw [Catalog.definition, List.find?_map, Option.map_eq_some_iff]
  exact ⟨d, known, rfl⟩

variable {m : Plan.Module}

theorem code_ne_empty {t : Plan.Terms} {c : Plan.Catalog} (accepted : t.Accepted c)
    (selected : m ∈ t.modules) : m.code ≠ "" := by
  obtain ⟨d, -, here, -⟩ := accepted.modules m selected
  have codes := here.code
  rw [Plan.code, Bool.and_eq_true] at codes
  exact Text.code_ne_empty codes.2

/-- The active sources are those that the terms offer. -/
def Sees (standings : List Standing) (t : Plan.Terms) : Prop :=
  ∀ moduleCode kind key action effect,
    active standings moduleCode kind key action effect = true ↔
      Offered t moduleCode kind key action effect

section Reasons

variable {standings : List Standing} {t : Plan.Terms} {c : Plan.Catalog} {later : Catalog}

/-- The mode that a module of a plan gives a field action. -/
def fieldMode (m : Plan.Module) (key : String) (action : Action) : Option Plan.Mode :=
  (m.fields.find? fun f => f.key = key && f.action = action).map (·.mode)

variable {action : Action}

theorem fieldMode_eq_some {d : Plan.Definition} (here : m.Accepted d)
    {key : String} {mode : Plan.Mode} :
    fieldMode m key action = some mode ↔
      ∃ f ∈ m.fields, f.key = key ∧ f.action = action ∧ f.mode = mode := by
  rw [fieldMode, Option.map_eq_some_iff]
  constructor
  · rintro ⟨f, first, rfl⟩
    have target := List.find?_some first
    rw [Bool.and_eq_true, decide_eq_true_eq, decide_eq_true_eq] at target
    exact ⟨f, List.mem_of_find?_eq_some first, target.1, target.2, rfl⟩
  · rintro ⟨f, listed, rfl, rfl, rfl⟩
    refine ⟨f, ?_, rfl⟩
    cases first : m.fields.find? fun other => other.key = f.key && other.action = f.action with
    | none => simpa using List.find?_eq_none.mp first f listed
    | some other =>
      have target := List.find?_some first
      rw [Bool.and_eq_true, decide_eq_true_eq, decide_eq_true_eq] at target
      rw [List.inj_on_of_nodup_map here.distinct (List.mem_of_find?_eq_some first) listed]
      rw [Plan.Field.identity, target.1, target.2, Plan.Field.identity]

/-- A field source comes from the entry of the one module with the code. -/
theorem offered_field_iff (accepted : t.Accepted c) (selected : m ∈ t.modules)
    {key : String} {effect : Effect} :
    Offered t m.code .field key action effect ↔
      ∃ mode, fieldMode m key action = some mode ∧ fieldEffect mode = effect := by
  obtain ⟨d, -, here, -⟩ := accepted.modules m selected
  simp only [fieldMode_eq_some here]
  constructor
  · intro offered
    generalize same : m.code = code at offered
    cases offered with
    | @field other chosen f listed =>
      obtain rfl := List.inj_on_of_nodup_map accepted.distinct selected chosen same
      exact ⟨f.mode, ⟨f, listed, rfl, rfl, rfl⟩, rfl⟩
  · rintro ⟨_, ⟨f, listed, rfl, rfl, rfl⟩, rfl⟩
    exact .field selected listed

variable (sees : Sees standings t) {definition : ModuleDefinition}

include sees

theorem Sees.unoffered {moduleCode key : String} {kind : Kind} {effect : Effect}
    (none : ¬Offered t moduleCode kind key action effect) :
    active standings moduleCode kind key action effect = false := by
  rw [← Bool.not_eq_true, sees]
  exact none

/-- A plan denies no capability. -/
theorem Sees.capDenial (moduleCode key : String) : capDenial standings moduleCode key = none := by
  refine capDenial_eq_none.mpr ⟨sees.unoffered fun offered => ?_, sees.unoffered fun offered => ?_⟩
  · cases offered.effect_eq_grant (.inr rfl)
  · cases offered.effect_eq_grant (.inr rfl)

/-- A granted module is a selected one. -/
theorem Sees.selected_of_granted (grant : granted standings definition = true) :
    ∃ m ∈ t.modules, m.code = definition.code := by
  unfold granted at grant
  split at grant
  · exact ((sees _ _ _ _ _).mp grant).selected
  · obtain ⟨_, -, granted⟩ := List.any_eq_true.mp grant
    rw [Bool.and_eq_true, Bool.or_eq_true] at granted
    rcases granted.2 with offered | offered
    · exact ((sees _ _ _ _ _).mp offered).selected
    · exact ((sees _ _ _ _ _).mp offered).selected

/-- A selected module is granted, through the first of its capabilities. -/
theorem Sees.granted (selected : m ∈ t.modules) (same : definition.code = m.code)
    (some_ : definition.capabilities ≠ []) : granted standings definition = true := by
  have grant : active standings definition.code .module definition.code .none .grant = true := by
    rw [same]
    exact (sees _ _ _ _ _).mpr (.module selected)
  obtain ⟨_, _, shape⟩ := List.exists_cons_of_ne_nil some_
  unfold Entitlement.granted
  rw [if_neg some_, shape]
  simp [sees.capDenial, grant]

variable (accepted : t.Accepted c) (grown : Grown c later) (valid : later.validate = .ok ())

include accepted grown valid

/-- Exactly the selected modules are allowed. Proof: by induction over the order of
the dependencies; those of a selected module are selected. -/
theorem moduleReason_eq_allowed (code : String) :
    moduleReason later standings code = .allowed ↔ ∃ m ∈ t.modules, m.code = code := by
  obtain ⟨-, order, topological, -, all⟩ := Catalog.validate_ok valid
  have selected_allowed : ∀ code, later.dependencies code ≠ none →
      (∃ m ∈ t.modules, m.code = code) → moduleReason later standings code = .allowed := by
    intro code present
    refine topological.induction (fun code => (∃ m ∈ t.modules, m.code = code) →
      moduleReason later standings code = .allowed) ?_ code
        ((all code).resolve_left present) present
    rintro _ successors next allowed ⟨m, selected, rfl⟩
    obtain ⟨d, known, here, closed⟩ := accepted.modules m selected
    obtain ⟨definition, defined, status, dependencies, capabilities, -⟩ := grown _ d known
    have same := (Catalog.definition_mem defined).2
    have some_ : definition.capabilities ≠ [] := by
      obtain ⟨cap, listed⟩ := List.exists_mem_of_ne_nil _ here.capabilities
      exact List.ne_nil_of_mem (capabilities (here.known cap listed))
    rw [moduleReason_eq valid, defined]
    refine reasonOf_eq_allowed.mpr ⟨sees.unoffered ?_, status.trans here.ready, sees.unoffered ?_,
      sees.granted selected same some_, fun dep listed => ?_⟩
    · exact fun offered => nomatch offered.effect_eq_grant (.inl rfl)
    · exact fun offered => nomatch offered.effect_eq_grant (.inl rfl)
    · obtain ⟨other, chosen, rfl⟩ := closed dep (dependencies ▸ listed)
      obtain ⟨d', known', -⟩ := accepted.modules other chosen
      obtain ⟨definition', defined', -⟩ := grown _ d' known'
      refine allowed _ ?_ (by simp [Catalog.dependencies, defined']) ⟨other, chosen, rfl⟩
      simp only [Catalog.dependencies, defined, Option.map_some, Option.some.injEq] at next
      exact next ▸ listed
  constructor
  · intro reason
    rw [moduleReason_eq valid] at reason
    split at reason
    · cases reason
    · rename_i definition defined
      rw [← (Catalog.definition_mem defined).2]
      exact sees.selected_of_granted (reasonOf_eq_allowed.mp reason).2.2.2.1
  · rintro ⟨m, selected, rfl⟩
    obtain ⟨d, known, -⟩ := accepted.modules m selected
    obtain ⟨_, defined, -⟩ := grown _ d known
    exact selected_allowed _ (by simp [Catalog.dependencies, defined]) ⟨m, selected, rfl⟩

/-- A capability is allowed as soon as its module is selected. -/
theorem capability_allowed_iff (definition : ModuleDefinition) (cap : String) :
    (capabilityDecision later standings definition
        (moduleReason later standings definition.code) cap).allowed = true ↔
      ∃ m ∈ t.modules, m.code = definition.code := by
  have reduced : (capabilityDecision later standings definition
      (moduleReason later standings definition.code) cap).allowed = true ↔
        capabilityReason standings definition (moduleReason later standings definition.code) cap =
          .allowed := by
    simp [capabilityDecision, explained]
  rw [reduced, capabilityReason_eq_allowed, moduleReason_eq_allowed sees accepted grown valid]
  constructor
  · exact fun allowed => allowed.1
  · rintro ⟨m, selected, same⟩
    refine ⟨⟨m, selected, same⟩, sees.capDenial _ _, .inl ?_⟩
    rw [← same]
    exact (sees _ _ _ _ _).mpr (.module selected)

/-- What the decision about a field of a selected module says: the grant of its mode
allows it, and the mask of its mode masks it. -/
theorem field_decided (selected : m ∈ t.modules)
    (same : definition.code = m.code) (key : String) (action : Action) :
    let d := fieldDecision later standings definition
      (moduleReason later standings definition.code) key action
    (d.allowed = true ↔ ∃ mode, fieldMode m key action = some mode ∧ fieldEffect mode = .grant) ∧
      (d.masked = true ↔
        ∃ mode, fieldMode m key action = some mode ∧ fieldEffect mode = .safetyMask) := by
  have reduced : (fieldDecision later standings definition
      (moduleReason later standings definition.code) key action).allowed = true ↔
        fieldReason standings definition (moduleReason later standings definition.code) key
          action = .allowed := by
    simp [fieldDecision, explained]
  have allowed := (moduleReason_eq_allowed sees accepted grown valid definition.code).mpr
    ⟨m, selected, same.symm⟩
  have offers : ∀ effect, active standings definition.code .field key action effect = true ↔
      ∃ mode, fieldMode m key action = some mode ∧ fieldEffect mode = effect := by
    intro effect
    rw [same, sees, offered_field_iff accepted selected]
  refine ⟨?_, offers .safetyMask⟩
  rw [reduced, fieldReason_eq_allowed, ← Bool.not_eq_true, ← Bool.not_eq_true, offers, offers,
    offers]
  constructor
  · exact fun granted => granted.2.2.2
  · rintro ⟨mode, entry, grant⟩
    refine ⟨allowed, ?_, ?_, mode, entry, grant⟩
    all_goals
      rintro ⟨_, again, effect⟩
      rw [entry, Option.some.injEq] at again
      rw [again, effect] at grant
      cases grant

/-- A capability is allowed exactly when the module of the plan that owns it lists it. -/
def CapabilitiesExact (t : Plan.Terms) (decided : List Decision) : Prop :=
  ∀ d ∈ decided, d.kind = .capability →
    (d.allowed = true ↔ ∃ m ∈ t.modules, m.code = d.moduleCode ∧ d.key ∈ m.capabilities)

instance (t : Plan.Terms) (decided : List Decision) : Decidable (CapabilitiesExact t decided) :=
  inferInstanceAs (Decidable (∀ d ∈ decided, d.kind = .capability →
    (d.allowed = true ↔ ∃ m ∈ t.modules, m.code = d.moduleCode ∧ d.key ∈ m.capabilities)))

theorem capabilitiesExact_decisions (requested : List String) :
    CapabilitiesExact t (decisions later standings requested) ↔
      ∀ m ∈ t.modules, ∀ definition, later.definition m.code = some definition →
        ∀ cap ∈ definition.capabilities, cap ∈ m.capabilities := by
  have allowed := capability_allowed_iff sees accepted grown valid
  constructor
  · intro exactly m selected definition defined cap owned
    obtain ⟨member, same⟩ := Catalog.definition_mem defined
    have decided : capabilityDecision later standings definition
        (moduleReason later standings definition.code) cap ∈
          decisions later standings requested :=
      (mem_decisions_capability rfl).mpr (.inl ⟨definition, member, cap, owned, rfl⟩)
    obtain ⟨_, chosen, sameCode, listed⟩ := (exactly _ decided rfl).mp
      ((allowed definition cap).mpr ⟨m, selected, same.symm⟩)
    obtain rfl := List.inj_on_of_nodup_map accepted.distinct selected chosen
      (same.symm.trans sameCode.symm)
    exact listed
  · intro complete d inside capability
    rcases (mem_decisions_capability capability).mp inside with
      ⟨definition, member, cap, owned, rfl⟩ | ⟨key, -, rfl⟩
    · rw [allowed]
      constructor
      · rintro ⟨m, selected, same⟩
        refine ⟨m, selected, same, complete m selected definition ?_ cap owned⟩
        rw [same]
        exact Catalog.definition_of_mem (Catalog.validate_ok valid).1 member
      · rintro ⟨m, selected, same, -⟩
        exact ⟨m, selected, same⟩
    · refine iff_of_false (by simp [unknownDecision]) ?_
      rintro ⟨m, selected, same, -⟩
      exact code_ne_empty accepted selected same

/-- What the mode of a field, or its absence, asks of the decision about it. -/
def FieldExact (mode : Option Plan.Mode) (d : Decision) : Prop :=
  match mode with
  | some .allow => d.allowed = true ∧ d.masked = false
  | some .masked => d.allowed = true ∧ d.masked = true
  | _ => d.allowed = false

/-- Every field action of a selected module is decided, and as its mode asks. -/
structure FieldsExact (later : Catalog) (t : Plan.Terms) (decided : List Decision) : Prop where
  present : ∀ m ∈ t.modules, ∀ definition, later.definition m.code = some definition →
    ∀ key ∈ definition.fieldKeys, ∀ action ∈ fieldActions, ∃ d ∈ decided,
      d.kind = .field ∧ d.moduleCode = m.code ∧ d.key = key ∧ d.action = action
  follows : ∀ m ∈ t.modules, ∀ d ∈ decided, d.kind = .field → d.moduleCode = m.code →
    FieldExact (fieldMode m d.key d.action) d

theorem fieldsExact_decisions (requested : List String) :
    FieldsExact later t (decisions later standings requested) ↔
      ∀ m ∈ t.modules, ∀ f ∈ m.fields, f.mode ≠ .masked := by
  constructor
  · rintro exactly m selected f listed masked
    obtain ⟨d, known, here, -⟩ := accepted.modules m selected
    obtain ⟨definition, defined, -, -, -, -, fields⟩ := grown _ d known
    obtain ⟨member, same⟩ := Catalog.definition_mem defined
    have decided : fieldDecision later standings definition
        (moduleReason later standings definition.code) f.key f.action ∈
          decisions later standings requested :=
      (mem_decisions_field rfl).mpr ⟨definition, member, f.key, fields (here.fields f listed).1,
        f.action, (here.fields f listed).2.1, rfl⟩
    have entry : fieldMode m f.key f.action = some .masked :=
      (fieldMode_eq_some here).mpr ⟨f, listed, rfl, rfl, masked⟩
    have claimed : FieldExact (fieldMode m f.key f.action) _ :=
      exactly.follows m selected _ decided rfl same
    rw [entry] at claimed
    obtain ⟨mode, again, grant⟩ :=
      (field_decided sees accepted grown valid selected same f.key f.action).1.mp claimed.1
    rw [entry, Option.some.injEq] at again
    subst again
    cases grant
  · intro unmasked
    refine ⟨?_, ?_⟩
    · intro m selected definition defined key owned action known
      obtain ⟨member, same⟩ := Catalog.definition_mem defined
      exact ⟨_, (mem_decisions_field rfl).mpr ⟨definition, member, key, owned, action, known, rfl⟩,
        rfl, same, rfl, rfl⟩
    · intro m selected d inside field same
      obtain ⟨_, _, key, _, action, _, rfl⟩ :=
        (mem_decisions_field field).mp inside
      obtain ⟨allowed, masked⟩ := field_decided sees accepted grown valid selected same key action
      obtain ⟨d, -, here, -⟩ := accepted.modules m selected
      change FieldExact (fieldMode m key action) _
      cases entry : fieldMode m key action with
      | none => simpa [FieldExact, entry] using allowed
      | some mode =>
        obtain ⟨f, listed, -, -, rfl⟩ := (fieldMode_eq_some here).mp entry
        have recognised := (here.fields f listed).2.2.1
        have clear := unmasked m selected f listed
        simp only [entry] at allowed masked
        cases shape : f.mode with
        | deny => simpa [FieldExact, shape, fieldEffect] using allowed
        | masked => exact absurd shape clear
        | allow => simpa [FieldExact, shape, fieldEffect] using And.intro allowed masked
        | unrecognised text => simp [shape] at recognised

end Reasons

section Exactness

/-- A catalogue with one module of two capabilities. -/
def sampleCatalog : Plan.Catalog :=
  [{ code := "device", technicalStatus := .ready, salesStatus := .sellable, version := 1,
     capabilities := ["device.read", "device.remove"], quotaKeys := [],
     fieldKeys := ["device.serial"], dependencies := [], salesScope := [] }]

/-- A module of a plan that lists one of the capabilities and masks a field. -/
def sampleModule : Plan.Module :=
  { code := "device", capabilities := ["device.read"], quotas := [],
    fields := [{ key := "device.serial", action := .read, mode := .masked }] }

def sampleTerms : Plan.Terms :=
  { modules := [sampleModule], featureCodes := [], salesScope := ["*"], validityMode := .unlimited,
    validityDays := 0,
    priceRef := "" }

/-- The first of January 2026. -/
def sampleStart : Instant := 739616 * Calendar.day

def sampleSources : List Source := sources id "tenant" "sub-1" sampleStart sampleTerms

def sampleResolved : Except Err Result :=
  resolve "tenant" 1 (sampleStart + hour) (sampleCatalog.map (·.toModuleDefinition)) sampleSources
    []

theorem sample_accepted : sampleTerms.validate sampleCatalog = .ok () := by decide +kernel

theorem sample_running : ∀ s ∈ sampleSources, s.active (sampleStart + hour) := by decide +kernel

theorem sample_resolved : ∃ result, sampleResolved = .ok result := by
  have accepted : sampleResolved.toOption.any (fun _ => true) = true := by decide +kernel
  exact (Checks.ok_of_any accepted).imp fun _ => And.left

variable {digest : String → String} {tenant sourceNamespace : String} {start now : Instant}
  {t : Plan.Terms} {c : Plan.Catalog} {later : Catalog} {revision : Nat} {requested : List String}
  {result : Result}

/-- A plan allows exactly what it lists if and only if it lists every capability that
the catalogue, as it is when the plan is resolved, gives the modules of the plan. -/
theorem capabilitiesExact_iff (accepted : t.validate c = .ok ()) (grown : Grown c later)
    (running : ∀ s ∈ sources digest tenant sourceNamespace start t, s.active now)
    (resolved : resolve tenant revision now later
      (sources digest tenant sourceNamespace start t) requested = .ok result) :
    CapabilitiesExact t result.decisions ↔
      ∀ m ∈ t.modules, ∀ definition, later.definition m.code = some definition →
        ∀ cap ∈ definition.capabilities, cap ∈ m.capabilities := by
  obtain ⟨-, valid, -, -, rfl⟩ := resolve_ok.mp resolved
  exact capabilitiesExact_decisions (fun _ _ _ _ _ => active_sources running)
    (Plan.Terms.accepted_of_validate accepted) grown valid requested

/-- The plan of the sample lists one capability and allows both. -/
theorem unlisted_capability_allowed :
    sampleTerms.validate sampleCatalog = .ok () ∧
      (∀ s ∈ sampleSources, s.active (sampleStart + hour)) ∧
      ∃ result, sampleResolved = .ok result ∧ ¬CapabilitiesExact sampleTerms result.decisions := by
  refine ⟨sample_accepted, sample_running, ?_⟩
  obtain ⟨result, evaluated⟩ := sample_resolved
  refine ⟨result, evaluated, ?_⟩
  have inexact : sampleResolved.toOption.all
      (fun result => !decide (CapabilitiesExact sampleTerms result.decisions)) = true := by
    decide +kernel
  rw [evaluated] at inexact
  simpa [Except.toOption] using inexact

theorem capabilitiesExact_iff_sample : ∃ result, sampleResolved = .ok result ∧
    (CapabilitiesExact sampleTerms result.decisions ↔
      ∀ m ∈ sampleTerms.modules, ∀ definition,
        Catalog.definition (sampleCatalog.map (·.toModuleDefinition)) m.code = some definition →
          ∀ cap ∈ definition.capabilities, cap ∈ m.capabilities) := by
  obtain ⟨result, evaluated⟩ := sample_resolved
  exact ⟨result, evaluated,
    capabilitiesExact_iff sample_accepted (.refl sampleCatalog) sample_running evaluated⟩

/-- The fields of a plan are as its modes say if and only if no mode masks. -/
theorem fieldsExact_iff (accepted : t.validate c = .ok ()) (grown : Grown c later)
    (running : ∀ s ∈ sources digest tenant sourceNamespace start t, s.active now)
    (resolved : resolve tenant revision now later
      (sources digest tenant sourceNamespace start t) requested = .ok result) :
    FieldsExact later t result.decisions ↔ ∀ m ∈ t.modules, ∀ f ∈ m.fields, f.mode ≠ .masked := by
  obtain ⟨-, valid, -, -, rfl⟩ := resolve_ok.mp resolved
  exact fieldsExact_decisions (fun _ _ _ _ _ => active_sources running)
    (Plan.Terms.accepted_of_validate accepted) grown valid requested

/-- The plan of the sample masks a field, and the field is refused. -/
theorem masked_field_refused :
    sampleTerms.validate sampleCatalog = .ok () ∧
      (∀ s ∈ sampleSources, s.active (sampleStart + hour)) ∧
      ∃ result, sampleResolved = .ok result ∧
        (∃ d ∈ result.decisions, d.kind = .field ∧ d.moduleCode = "device" ∧
          d.key = "device.serial" ∧ d.action = .read ∧ d.allowed = false) ∧
        ¬FieldsExact (sampleCatalog.map (·.toModuleDefinition)) sampleTerms result.decisions := by
  refine ⟨sample_accepted, sample_running, ?_⟩
  obtain ⟨result, evaluated⟩ := sample_resolved
  have refused : sampleResolved.toOption.all (fun result => decide (∃ d ∈ result.decisions,
      d.kind = .field ∧ d.moduleCode = "device" ∧ d.key = "device.serial" ∧ d.action = .read ∧
        d.allowed = false)) = true := by
    decide +kernel
  rw [evaluated] at refused
  have decided := of_decide_eq_true refused
  refine ⟨result, evaluated, decided, fun exactly => ?_⟩
  obtain ⟨d, inside, field, code, key, action, denied⟩ := decided
  have claimed := exactly.follows _ List.mem_cons_self d inside field code
  rw [key, action] at claimed
  exact Bool.false_ne_true (denied.symm.trans claimed.1)

theorem fieldsExact_iff_sample : ∃ result, sampleResolved = .ok result ∧
    (FieldsExact (sampleCatalog.map (·.toModuleDefinition)) sampleTerms result.decisions ↔
      ∀ m ∈ sampleTerms.modules, ∀ f ∈ m.fields, f.mode ≠ .masked) := by
  obtain ⟨result, evaluated⟩ := sample_resolved
  exact ⟨result, evaluated,
    fieldsExact_iff sample_accepted (.refl sampleCatalog) sample_running evaluated⟩

end Exactness

end Biz.Subscription
