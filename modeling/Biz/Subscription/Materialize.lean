import Biz.Entitlement.Resolve
import Biz.Plan.Model

/-!
# The sources of a base subscription

`domain/subscription/materialize.go` turns the terms of a plan into entitlement
sources of a tenant. `Offered` says which targets the terms name and with which
effect; while all sources of a plan are active, the resolver sees exactly these.
-/

namespace Biz.Subscription

open Time Entitlement

section Sources

-- The hexadecimal text of the first twelve bytes of the SHA-256 of a text.
variable (digest : String → String)

/-- The identity of the base subscription of a tenant. -/
def subscriptionId (tenant : String) : String := "sub-" ++ digest tenant

/-- The identity of a source: a confirmed change uses a namespace of its own. -/
def sourceId (sourceNamespace moduleCode kind key action : String) : String :=
  "plan-" ++ digest (sourceNamespace ++ "\x00" ++ moduleCode ++ "\x00" ++ kind ++ "\x00" ++ key ++
    "\x00" ++ action)

variable (tenant sourceNamespace : String) (now : Instant)

def planSource (moduleCode : String) (kind : Kind) (key : String) (action : Action)
    (effect : Effect) (limit : Limit) : Source :=
  { id := sourceId digest sourceNamespace moduleCode kind.text key action.text, tenantId := tenant,
    sourceKind := .plan, moduleCode, kind, key, action, effect, limit, effectiveAt := now,
    expiresAt := none, revokedAt := none, reason := "base subscription " ++ sourceNamespace,
    actorId := "system:subscription", version := 1 }

/-- The effect that a field mode of a plan becomes. -/
def fieldEffect : Plan.Mode → Effect
  | .deny => .deny
  | .masked => .safetyMask
  | _ => .grant

/-- The sources of one module of a plan, without an end. -/
def moduleSources (m : Plan.Module) : List Source :=
  planSource digest tenant sourceNamespace now m.code .module m.code .none .grant {} ::
    m.capabilities.map (fun c =>
      planSource digest tenant sourceNamespace now m.code .capability c .none .grant {}) ++
    m.quotas.map (fun q =>
      planSource digest tenant sourceNamespace now m.code .quota q.key .none .quotaReplace
        q.limit) ++
    m.fields.map fun f =>
      planSource digest tenant sourceNamespace now m.code .field f.key f.action
        (fieldEffect f.mode) {}

/-- `AddDate(0, 0, n)` in UTC. -/
def addDays (start : Instant) (days : Nat) : Instant := start + days * Calendar.day

def sources (t : Plan.Terms) : List Source :=
  let out := t.modules.flatMap (moduleSources digest tenant sourceNamespace now)
  if t.validityMode = .fixedDays then
    out.map fun s => { s with expiresAt := some (addDays now t.validityDays) }
  else out

end Sources

/-- The targets that terms name, with the effect of their sources. -/
inductive Offered (t : Plan.Terms) : String → Kind → String → Action → Effect → Prop
  | module {m : Plan.Module} (selected : m ∈ t.modules) :
      Offered t m.code .module m.code .none .grant
  | capability {m : Plan.Module} (selected : m ∈ t.modules) {c : String}
      (listed : c ∈ m.capabilities) : Offered t m.code .capability c .none .grant
  | quota {m : Plan.Module} (selected : m ∈ t.modules) {q : Plan.Quota} (listed : q ∈ m.quotas) :
      Offered t m.code .quota q.key .none .quotaReplace
  | field {m : Plan.Module} (selected : m ∈ t.modules) {f : Plan.Field} (listed : f ∈ m.fields) :
      Offered t m.code .field f.key f.action (fieldEffect f.mode)

variable {moduleCode key tenant sourceNamespace : String} {kind : Kind} {action : Action}
  {effect : Effect} {digest : String → String} {start now : Instant} {t : Plan.Terms}

theorem Offered.selected (offered : Offered t moduleCode kind key action effect) :
    ∃ m ∈ t.modules, m.code = moduleCode := by
  cases offered with
  | module selected => exact ⟨_, selected, rfl⟩
  | capability selected listed => exact ⟨_, selected, rfl⟩
  | quota selected listed => exact ⟨_, selected, rfl⟩
  | field selected listed => exact ⟨_, selected, rfl⟩

/-- Modules and capabilities are granted and never denied. -/
theorem Offered.effect_eq_grant (offered : Offered t moduleCode kind key action effect)
    (target : kind = .module ∨ kind = .capability) : effect = .grant := by
  cases offered with
  | module selected => rfl
  | capability selected listed => rfl
  | quota selected listed => simp at target
  | field selected listed => simp at target

theorem mem_moduleSources {m : Plan.Module} {s : Source} :
    s ∈ moduleSources digest tenant sourceNamespace start m ↔
      s = planSource digest tenant sourceNamespace start m.code .module m.code .none .grant {} ∨
      (∃ c ∈ m.capabilities,
        s = planSource digest tenant sourceNamespace start m.code .capability c .none .grant {}) ∨
      (∃ q ∈ m.quotas, s = planSource digest tenant sourceNamespace start m.code .quota q.key .none
        .quotaReplace q.limit) ∨
      ∃ f ∈ m.fields, s = planSource digest tenant sourceNamespace start m.code .field f.key
        f.action (fieldEffect f.mode) {} := by
  simp [moduleSources, eq_comm]

/-- Every source of a plan is one of an offered target, and every target has one. -/
theorem offered_iff (digest : String → String) (tenant sourceNamespace : String) (start : Instant) :
    Offered t moduleCode kind key action effect ↔
      ∃ s ∈ sources digest tenant sourceNamespace start t, s.moduleCode = moduleCode ∧
        s.kind = kind ∧ s.key = key ∧ s.action = action ∧ s.effect = effect := by
  -- An end does not change the target, so the two branches have the same targets.
  have unbounded : (∃ s ∈ sources digest tenant sourceNamespace start t,
        s.moduleCode = moduleCode ∧ s.kind = kind ∧ s.key = key ∧ s.action = action ∧
          s.effect = effect) ↔
      ∃ m ∈ t.modules, ∃ s ∈ moduleSources digest tenant sourceNamespace start m,
        s.moduleCode = moduleCode ∧ s.kind = kind ∧ s.key = key ∧ s.action = action ∧
          s.effect = effect := by
    unfold sources
    split <;> simp only [List.mem_map, List.mem_flatMap] <;> grind
  rw [unbounded]
  constructor
  · rintro (selected | ⟨selected, listed⟩ | ⟨selected, listed⟩ | ⟨selected, listed⟩)
    · exact ⟨_, selected, _, mem_moduleSources.mpr (.inl rfl), rfl, rfl, rfl, rfl, rfl⟩
    · exact ⟨_, selected, _, mem_moduleSources.mpr (.inr (.inl ⟨_, listed, rfl⟩)), rfl, rfl, rfl,
        rfl, rfl⟩
    · exact ⟨_, selected, _, mem_moduleSources.mpr (.inr (.inr (.inl ⟨_, listed, rfl⟩))), rfl, rfl,
        rfl, rfl, rfl⟩
    · exact ⟨_, selected, _, mem_moduleSources.mpr (.inr (.inr (.inr ⟨_, listed, rfl⟩))), rfl, rfl,
        rfl, rfl, rfl⟩
  · rintro ⟨m, selected, s, inside, rfl, rfl, rfl, rfl, rfl⟩
    rcases mem_moduleSources.mp inside with rfl | ⟨c, listed, rfl⟩ | ⟨q, listed, rfl⟩ |
      ⟨f, listed, rfl⟩
    · exact .module selected
    · exact .capability selected listed
    · exact .quota selected listed
    · exact .field selected listed

/-- While the sources of a plan are active, the resolver sees the offered targets. -/
theorem active_sources
    (running : ∀ s ∈ sources digest tenant sourceNamespace start t, s.active now) :
    active ((ordered (sources digest tenant sourceNamespace start t)).map (·.standing now))
        moduleCode kind key action effect = true ↔
      Offered t moduleCode kind key action effect := by
  rw [active_iff, offered_iff digest tenant sourceNamespace start]
  constructor
  · rintro ⟨_, member, target⟩
    obtain ⟨s, inside, rfl⟩ := List.mem_map.mp member
    exact ⟨s, mem_ordered.mp inside, target.1, target.2.1, target.2.2.1, target.2.2.2.1,
      target.2.2.2.2.1⟩
  · rintro ⟨s, inside, code, kind, key, action, effect⟩
    refine ⟨s.standing now, List.mem_map_of_mem (mem_ordered.mpr inside), code, kind, key, action,
      effect, ?_⟩
    simpa [Source.active, Source.standing] using running s inside

end Biz.Subscription
