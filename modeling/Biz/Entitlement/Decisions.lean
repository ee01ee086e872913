import Biz.Entitlement.Stability

/-!
# What the resolver allows

A capability is allowed exactly when its module is ready, neither of them is denied, one of
them is granted, and every dependency of the module is usable in turn.
-/

namespace Biz.Entitlement

open Time Checks

section Usable

variable (catalog : Catalog) (sources : List Source) (now : Instant)

/-- An active source of an effect on a module or on a capability of it, which has no action. -/
def On (kind : Kind) (code key : String) (effect : Effect) : Prop :=
  ∃ s ∈ sources, s.moduleCode = code ∧ s.kind = kind ∧ s.key = key ∧ s.action = .none ∧
    s.effect = effect ∧ s.active now = true

def Denied (kind : Kind) (code key : String) : Prop :=
  On sources now kind code key .deny ∨ On sources now kind code key .safetyDeny

/-- The capability is granted, by itself or with its module. -/
def GrantedTo (code cap : String) : Prop :=
  On sources now .module code code .grant ∨ On sources now .capability code cap .grant

/-- A module that others can depend on. -/
inductive Usable : String → Prop
  | intro {m : ModuleDefinition} (defined : catalog.definition m.code = some m)
      (ready : m.technicalStatus = .ready) (undenied : ¬Denied sources now .module m.code m.code)
      (granted : if m.capabilities = [] then On sources now .module m.code m.code .grant
        else ∃ cap ∈ m.capabilities, GrantedTo sources now m.code cap ∧
          ¬Denied sources now .capability m.code cap)
      (dependencies : ∀ dep ∈ m.dependencies, Usable dep) : Usable m.code

end Usable

section Characterisation

variable {catalog : Catalog} {sources : List Source} {now : Instant} {code key cap tenant : String}
  {kind : Kind} {effect : Effect} {m : ModuleDefinition} {revision : Nat} {requested : List String}
  {result : Result}

theorem active_on : active ((ordered sources).map (·.standing now)) code kind key .none effect =
    true ↔ On sources now kind code key effect := by
  simp [active_iff, On, Source.standing, Source.active]

theorem not_active_on : active ((ordered sources).map (·.standing now)) code kind key .none effect =
    false ↔ ¬On sources now kind code key effect := by
  rw [← active_on, Bool.not_eq_true]

theorem undenied_iff : capDenial ((ordered sources).map (·.standing now)) code cap = none ↔
    ¬Denied sources now .capability code cap := by
  rw [capDenial_eq_none, not_active_on, not_active_on, Denied, not_or, and_comm]

theorem granted_iff : granted ((ordered sources).map (·.standing now)) m = true ↔
    if m.capabilities = [] then On sources now .module m.code m.code .grant
    else ∃ cap ∈ m.capabilities, GrantedTo sources now m.code cap ∧
      ¬Denied sources now .capability m.code cap := by
  unfold granted
  split
  · exact active_on
  · simp only [List.any_eq_true, Bool.and_eq_true, Bool.or_eq_true, decide_eq_true_eq,
      undenied_iff, active_on, GrantedTo, and_comm]

theorem moduleReason_eq_allowed_iff (valid : catalog.validate = .ok ())
    (defined : catalog.definition m.code = some m) :
    moduleReason catalog ((ordered sources).map (·.standing now)) m.code = .allowed ↔
      m.technicalStatus = .ready ∧ ¬Denied sources now .module m.code m.code ∧
        granted ((ordered sources).map (·.standing now)) m = true ∧ ∀ dep ∈ m.dependencies,
          moduleReason catalog ((ordered sources).map (·.standing now)) dep = .allowed := by
  rw [moduleReason_eq valid, defined]
  simp only [reasonOf_eq_allowed, not_active_on, Denied, not_or]
  tauto

/-- In a valid catalogue a module is allowed if and only if it is usable. -/
theorem usable_iff (valid : catalog.validate = .ok ()) :
    moduleReason catalog ((ordered sources).map (·.standing now)) code = .allowed ↔
      Usable catalog sources now code := by
  constructor
  · obtain ⟨-, _, topological, -, all⟩ := Catalog.validate_ok valid
    induction code using (topological.wellFounded all).induction with
    | _ code ih =>
      intro allowed
      cases defined : catalog.definition code with
      | none => simp [moduleReason_eq valid, defined] at allowed
      | some m =>
        obtain ⟨-, rfl⟩ := Catalog.definition_mem defined
        obtain ⟨ready, undenied, granted, dependencies⟩ :=
          (moduleReason_eq_allowed_iff valid defined).mp allowed
        refine .intro defined ready undenied (granted_iff.mp granted) fun dep listed => ?_
        exact ih dep ⟨m.dependencies, by simp [Catalog.dependencies, defined], listed⟩
          (dependencies dep listed)
  · intro usable
    induction usable with
    | intro defined ready undenied granted _ ih =>
      exact (moduleReason_eq_allowed_iff valid defined).mpr
        ⟨ready, undenied, granted_iff.mpr granted, ih⟩

theorem mem_unknownCapabilities : key ∈ unknownCapabilities catalog requested ↔
    key ∈ requested ∧ ∀ m ∈ catalog, key ∉ m.capabilities := by
  simp [unknownCapabilities, List.mem_dedup]

/-- A capability decision is allowed if and only if its module is ready, no active source
denies the module or the capability, one grants the module or the capability, and all
dependencies are usable. Every other one has a reason against it, and a requested code that
no module has is reported and never allowed. -/
theorem capability_decided
    (resolved : resolve tenant revision now catalog sources requested = .ok result) :
    (∀ m ∈ catalog, ∀ cap ∈ m.capabilities, ∃ d ∈ result.decisions,
      d.target = (.capability, m.code, cap, .none)) ∧
    (∀ d ∈ result.decisions, d.kind = .capability →
      (d.allowed = true ↔ ∃ m ∈ catalog, m.code = d.moduleCode ∧ d.key ∈ m.capabilities ∧
        m.technicalStatus = .ready ∧ ¬Denied sources now .module m.code m.code ∧
        ¬Denied sources now .capability m.code d.key ∧ GrantedTo sources now m.code d.key ∧
        ∀ dep ∈ m.dependencies, Usable catalog sources now dep) ∧
      (d.allowed = false → d.reason ≠ .allowed)) ∧
    ∀ key ∈ requested, (∀ m ∈ catalog, key ∉ m.capabilities) →
      unknownDecision key ∈ result.decisions := by
  obtain ⟨-, valid, -, -, rfl⟩ := resolve_ok.mp resolved
  have distinct := (Catalog.validate_ok valid).1
  refine ⟨fun m listed cap known => ?_, fun d member capability => ?_, fun key asked unknown => ?_⟩
  · exact ⟨_, mem_decisions.mpr (.inl ⟨m, listed,
      mem_moduleDecisions.mpr (.inr (.inl ⟨cap, known, rfl⟩))⟩), rfl⟩
  · rcases (mem_decisions_capability capability).mp member with
      ⟨m, listed, cap, known, rfl⟩ | ⟨key, unknown, rfl⟩
    · have decided : (capabilityDecision catalog ((ordered sources).map (·.standing now)) m
          (moduleReason catalog ((ordered sources).map (·.standing now)) m.code) cap).allowed =
            true ↔
            _ := decide_eq_true_iff.trans capabilityReason_eq_allowed
      rw [decided, moduleReason_eq_allowed_iff valid (Catalog.definition_of_mem distinct listed),
        undenied_iff, active_on, active_on]
      refine ⟨⟨?_, ?_⟩, of_decide_eq_false⟩
      · rintro ⟨⟨ready, undenied, -, dependencies⟩, free, grant⟩
        exact ⟨m, listed, rfl, known, ready, undenied, free, grant,
          fun dep needed => (usable_iff valid).mp (dependencies dep needed)⟩
      · rintro ⟨n, among, same, -, ready, undenied, free, grant, dependencies⟩
        obtain rfl := List.inj_on_of_nodup_map distinct among listed same
        refine ⟨⟨ready, undenied, granted_iff.mpr ?_,
          fun dep needed => (usable_iff valid).mpr (dependencies dep needed)⟩, free, grant⟩
        rw [if_neg (List.ne_nil_of_mem known)]
        exact ⟨cap, known, grant, free⟩
    · refine ⟨⟨nofun, fun ⟨m, listed, _, known, _⟩ => ?_⟩, nofun⟩
      exact absurd known ((mem_unknownCapabilities.mp unknown).2 m listed)
  · exact mem_decisions.mpr (.inr ⟨key, mem_unknownCapabilities.mpr ⟨asked, unknown⟩, rfl⟩)

end Characterisation

/-- The second module is granted without the first one, on which it depends. -/
theorem capability_decided_sample : ∃ result,
    resolve "tenant" 1 chainStart chain [chainGrant "a" "extra"] [] = .ok result ∧
      ∃ d ∈ result.decisions, d.key = "extra.use" ∧ d.reason ≠ .allowed := by
  have evaluated : (resolve "tenant" 1 chainStart chain [chainGrant "a" "extra"] []).toOption.any
      (fun result => result.decisions.any fun d =>
        d.kind = .capability ∧ d.key = "extra.use" ∧ d.allowed = false) = true := by
    decide +kernel
  obtain ⟨result, resolved, found⟩ := ok_of_any evaluated
  obtain ⟨d, member, decided⟩ := List.any_eq_true.mp found
  obtain ⟨capability, named, refused⟩ := of_decide_eq_true decided
  exact ⟨result, resolved, d, member, named,
    ((capability_decided resolved).2.1 d member capability).2 refused⟩

end Biz.Entitlement
