import Biz.Subscription.Exactness
import Biz.Subscription.Identities

/-!
# The rights of terms

What a plan alone gives, read off its terms: the resolver decides in favour of a module,
a capability or a quota as soon as the module is selected, in favour of a field action if
its mode allows it, and it limits a quota as the terms say.
-/

namespace Biz.Subscription

open Time Entitlement Keyed

/-- The terms give the right that a decision is about. -/
def Held (t : Plan.Terms) (target : Entitlement.Kind × String × String × Action) : Prop :=
  ∃ m ∈ t.modules, m.code = target.2.1 ∧ (target.1 = .field →
    ∃ f ∈ m.fields, f.key = target.2.2.1 ∧ f.action = target.2.2.2 ∧ f.mode = .allow)

/-- The limit of a quota under terms; a quota that they do not list has the limit zero. -/
def limitOf (t : Plan.Terms) (code key : String) : Limit :=
  match t.modules.find? fun m => m.code = code with
  | none => {}
  | some m => ((m.quotas.find? fun q => q.key = key).map (·.limit)).getD {}

section Limits

variable {t : Plan.Terms} {c : Plan.Catalog} {code key : String}

theorem limitOf_of_mem (accepted : t.Accepted c) {m : Plan.Module} (selected : m ∈ t.modules)
    {q : Plan.Quota} (listed : q ∈ m.quotas) : limitOf t m.code q.key = q.limit := by
  obtain ⟨d, -, here, -⟩ := accepted.modules m selected
  rw [limitOf, find?_of_mem accepted.distinct selected]
  dsimp only
  rw [find?_of_mem here.quotas.1 listed]
  rfl

theorem limitOf_of_forall
    (unlisted : ∀ m ∈ t.modules, m.code = code → ∀ q ∈ m.quotas, q.key ≠ key) :
    limitOf t code key = {} := by
  rw [limitOf]
  cases first : t.modules.find? fun m => m.code = code with
  | none => rfl
  | some m =>
    obtain ⟨selected, same⟩ := find?_some first
    dsimp only
    rw [find?_none.mpr (unlisted m selected same)]
    rfl

end Limits

section Decisions

variable {digest : String → String} {tenant sourceNamespace : String} {start now : Instant}
  {t : Plan.Terms} {c : Plan.Catalog} {later : Catalog} {revision : Nat} {requested : List String}
  {result : Result} {standings : List Standing}

/-- The sources of quotas are those of the quotas that the terms list. -/
theorem mem_sources_quota {s : Source} (member : s ∈ sources digest tenant sourceNamespace start t)
    (quota : s.kind = .quota) :
    ∃ m ∈ t.modules, ∃ q ∈ m.quotas, targetOf s = (m.code, .quota, q.key, .none) ∧
      s.limit = q.limit ∧ s.effect = .quotaReplace ∧ s.sourceKind = .plan := by
  have blind : (s.kind, targetOf s, s.limit, s.effect, s.sourceKind) ∈
      (t.modules.flatMap (moduleSources digest tenant sourceNamespace start)).map
        fun s => (s.kind, targetOf s, s.limit, s.effect, s.sourceKind) := by
    rw [← map_sources fun _ _ => rfl]
    exact List.mem_map_of_mem member
  obtain ⟨v, inside, same⟩ := List.mem_map.mp blind
  simp only [Prod.mk.injEq] at same
  obtain ⟨kind, target, limit, effect, sourceKind⟩ := same
  obtain ⟨m, selected, inside⟩ := List.mem_flatMap.mp inside
  rw [quota] at kind
  rw [← target, ← limit, ← effect, ← sourceKind]
  rcases mem_moduleSources.mp inside with rfl | ⟨_, -, rfl⟩ | ⟨q, listed, rfl⟩ | ⟨_, -, rfl⟩
  · cases kind
  · cases kind
  · exact ⟨m, selected, q, listed, rfl, rfl, rfl, rfl⟩
  · cases kind

section

variable (sees : Sees standings t) (accepted : t.Accepted c) (grown : Grown c later)
  (valid : later.validate = .ok ())

include sees accepted grown valid

/-- A field action is decided as its mode says, if its module is selected. -/
theorem held_field_iff (definition : ModuleDefinition) (key : String) (action : Action) :
    (fieldDecision later standings definition (moduleReason later standings definition.code) key
        action).allowed = true ↔ Held t (.field, definition.code, key, action) := by
  constructor
  · intro allowed
    have reason : fieldReason standings definition (moduleReason later standings definition.code)
        key action = .allowed := by
      simpa [fieldDecision, explained] using allowed
    obtain ⟨m, selected, same⟩ := (moduleReason_eq_allowed sees accepted grown valid _).mp
      (fieldReason_eq_allowed.mp reason).1
    obtain ⟨d, -, here, -⟩ := accepted.modules m selected
    obtain ⟨mode, entry, grant⟩ := (field_decided sees accepted grown valid selected same.symm key
      action).1.mp allowed
    obtain ⟨f, listed, rfl, rfl, rfl⟩ := (fieldMode_eq_some here).mp entry
    refine ⟨m, selected, same, fun _ => ⟨f, listed, rfl, rfl, ?_⟩⟩
    have recognised := (here.fields f listed).2.2.1
    cases shape : f.mode with
    | allow => rfl
    | deny => simp [shape, fieldEffect] at grant
    | masked => simp [shape, fieldEffect] at grant
    | unrecognised text => simp [shape] at recognised
  · rintro ⟨m, selected, same, fields⟩
    obtain ⟨d, -, here, -⟩ := accepted.modules m selected
    obtain ⟨f, listed, sameKey, sameAction, mode⟩ := fields rfl
    refine (field_decided sees accepted grown valid selected same.symm key action).1.mpr ?_
    exact ⟨.allow, (fieldMode_eq_some here).mpr ⟨f, listed, sameKey, sameAction, mode⟩, rfl⟩

theorem decided_of_sees
    (quotas : ∀ definition reason key,
      let d := quotaDecision later standings definition reason key
      (d.allowed = true ↔ reason = .allowed) ∧ d.limit = limitOf t definition.code key) :
    ∀ d ∈ decisions later standings requested, (d.allowed = true ↔ Held t d.target) ∧
      (d.kind = .quota → d.limit = limitOf t d.moduleCode d.key) := by
  have reason := moduleReason_eq_allowed sees accepted grown valid
  intro d inside
  rcases mem_decisions.mp inside with ⟨definition, _, inside⟩ | ⟨key, -, rfl⟩
  · rcases mem_moduleDecisions.mp inside with rfl | ⟨_, -, rfl⟩ | ⟨key, -, rfl⟩ |
      ⟨key, -, action, -, rfl⟩
    · simp only [moduleDecision, explained, decide_eq_true_eq, reason]
      simp [Held, Decision.target]
    · rw [capability_allowed_iff sees accepted grown valid]
      simp [Held, Decision.target, capabilityDecision, explained]
    · obtain ⟨allowed, limit⟩ := quotas definition (moduleReason later standings definition.code)
        key
      have target : (quotaDecision later standings definition
          (moduleReason later standings definition.code) key).target =
            (.quota, definition.code, key, .none) :=
        quotaDecision_target definition _ key
      refine ⟨?_, fun _ => ?_⟩
      · rw [allowed, reason, target]
        simp [Held]
      · simp only [Decision.target, Prod.mk.injEq] at target
        rw [limit, target.2.1, target.2.2.1]
    · refine ⟨held_field_iff sees accepted grown valid definition key action, fun quota => ?_⟩
      cases quota
  · refine ⟨iff_of_false (by simp [unknownDecision]) ?_, fun quota => by cases quota⟩
    rintro ⟨m, selected, same, -⟩
    exact code_ne_empty accepted selected same

end

variable (accepted : t.validate c = .ok ())
  (running : ∀ s ∈ sources digest tenant sourceNamespace start t, s.active now)

include accepted running

/-- The resolver finds the one source of a listed quota, and none of another. -/
theorem quotaSources_plan (definition : ModuleDefinition) (key : String) :
    let found := quotaSources
      ((ordered (sources digest tenant sourceNamespace start t)).map (·.standing now)) definition
        key
    (found = [] ∧ limitOf t definition.code key = {}) ∨
      ∃ s, found = [s] ∧ s.effect = .quotaReplace ∧ s.sourceKind = .plan ∧
        s.limit = limitOf t definition.code key := by
  intro found
  have terms := Plan.Terms.accepted_of_validate accepted
  have mem_found : ∀ s, s ∈ found ↔ s ∈ sources digest tenant sourceNamespace start t ∧
      s.kind = .quota ∧ s.moduleCode = definition.code ∧ s.key = key := by
    intro s
    simp only [found, quotaSources, List.mem_map, List.mem_filter, Bool.and_eq_true,
      decide_eq_true_eq]
    constructor
    · rintro ⟨_, ⟨⟨v, member, rfl⟩, ⟨⟨kind, code⟩, same⟩, -⟩, rfl⟩
      exact ⟨mem_ordered.mp member, kind, code, same⟩
    · rintro ⟨member, kind, code, same⟩
      refine ⟨s.standing now, ⟨⟨s, mem_ordered.mpr member, rfl⟩, ⟨⟨kind, code⟩, same⟩, ?_⟩, rfl⟩
      simpa [Source.active, Source.standing] using running s member
  have sublist : found.Sublist (ordered (sources digest tenant sourceNamespace start t)) := by
    have kept := (List.filter_sublist (p := fun s : Standing => s.source.kind = .quota &&
      s.source.moduleCode = definition.code && s.source.key = key && s.state = .active)
      (l := (ordered (sources digest tenant sourceNamespace start t)).map
        (·.standing now))).map (·.source)
    simpa [found, quotaSources, Function.comp_def, Source.standing] using kept
  have distinct : (found.map targetOf).Nodup := by
    refine (sublist.map targetOf).nodup ?_
    rw [ordered, ((List.perm_insertionSort _ _).map targetOf).nodup_iff, map_targetOf_sources]
    exact targets_nodup accepted
  have shape : ∀ s ∈ found, ∃ m ∈ t.modules, ∃ q ∈ m.quotas, m.code = definition.code ∧
      q.key = key ∧ targetOf s = (definition.code, .quota, key, .none) ∧
      s.limit = q.limit ∧ s.effect = .quotaReplace ∧ s.sourceKind = .plan := by
    intro s inside
    obtain ⟨member, quota, code, same⟩ := (mem_found s).mp inside
    obtain ⟨m, selected, q, listed, target, rest⟩ := mem_sources_quota member quota
    have parts := target
    simp only [targetOf, Prod.mk.injEq] at parts
    obtain rfl := same
    refine ⟨m, selected, q, listed, parts.1.symm.trans code, parts.2.2.1.symm, ?_, rest⟩
    rw [target, ← code, ← parts.1, ← parts.2.2.1]
  rcases eq_nil_or_singleton distinct (fun s inside => by
    obtain ⟨-, -, -, -, -, -, target, -⟩ := shape s inside
    exact target) with none | ⟨s, one⟩
  · refine .inl ⟨none, limitOf_of_forall fun m selected code q listed same => ?_⟩
    obtain ⟨s, member, code', kind, key', -⟩ :=
      (offered_iff digest tenant sourceNamespace start).mp (.quota selected listed)
    have inside := (mem_found s).mpr ⟨member, kind, code'.trans code, key'.trans same⟩
    rw [none] at inside
    exact absurd inside List.not_mem_nil
  · obtain ⟨m, selected, q, listed, code, same, -, limit, effect, plan⟩ :=
      shape s (one ▸ List.mem_singleton_self s)
    refine .inr ⟨s, one, effect, plan, ?_⟩
    rw [limit, ← code, ← same, limitOf_of_mem terms selected listed]

/-- A quota is decided like its module, with the limit of the terms. -/
theorem quota_decided (definition : ModuleDefinition) (reason : Reason) (key : String) :
    let d := quotaDecision later
      ((ordered (sources digest tenant sourceNamespace start t)).map (·.standing now)) definition
      reason key
    (d.allowed = true ↔ reason = .allowed) ∧ d.limit = limitOf t definition.code key := by
  have found := quotaSources_plan accepted running definition key
  generalize (ordered (sources digest tenant sourceNamespace start t)).map (·.standing now) =
    standings at found ⊢
  have replacements : quotaReplacements standings definition key = [] := by
    rcases found with ⟨none, -⟩ | ⟨s, one, -, plan, -⟩
    · simp [quotaReplacements, none]
    · simp [quotaReplacements, one, plan]
  have additions : quotaAdditions standings definition key = [] := by
    rcases found with ⟨none, -⟩ | ⟨s, one, effect, -, -⟩
    · simp [quotaAdditions, none]
    · simp [quotaAdditions, one, effect]
  have limited : ∀ d : Decision, d.limit = {} → limitDecision standings definition key d =
      { d with limit := limitOf t definition.code key } := by
    intro d unset
    rcases found with ⟨none, zero⟩ | ⟨s, one, effect, plan, limit⟩
    · have base : quotaBase standings definition key = [] := by simp [quotaBase, none]
      simp only [limitDecision, replacements, additions, base, addLimits, zero, ← unset]
      simp
    · have base : quotaBase standings definition key = [s] := by
        simp [quotaBase, one, effect, plan]
      simp only [limitDecision, replacements, additions, base, addLimits, ← limit]
      simp
  simp only [quotaDecision, replacements, explained]
  rw [limited _ rfl]
  split <;> simp

/-- Every decision of an evaluation of a plan alone is the one of the terms. -/
theorem decided_of_terms (grown : Grown c later)
    (resolved : resolve tenant revision now later
      (sources digest tenant sourceNamespace start t) requested = .ok result) :
    ∀ d ∈ result.decisions, (d.allowed = true ↔ Held t d.target) ∧
      (d.kind = .quota → d.limit = limitOf t d.moduleCode d.key) := by
  obtain ⟨-, valid, -, -, rfl⟩ := resolve_ok.mp resolved
  exact decided_of_sees (fun _ _ _ _ _ => active_sources running)
    (Plan.Terms.accepted_of_validate accepted) grown valid (quota_decided accepted running)

end Decisions

end Biz.Subscription
