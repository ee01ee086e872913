import Biz.Library.Separator
import Biz.Subscription.Materialize

/-!
# Identities of sources

The identity of a source is a digest of its namespace and its target, joined by a
character that none of the parts contains that could hide it. While digests do not
collide, a namespace never has the identity of another one, and the sources of accepted
terms have distinct identities.
-/

namespace Biz.Subscription

open Time Entitlement Separator

/-- The character between the parts of an identity. -/
abbrev nul : Char := '\x00'

section Texts

variable {digest : String → String} {first second m n k l key other a b : String}

variable (collisionFree : Function.Injective digest)

include collisionFree

/-- The text that an identity is a digest of, right to left. -/
theorem sourceId_eq_iff :
    sourceId digest first m k key a = sourceId digest second n l other b ↔
      first ++ (String.singleton nul ++ (m ++ (String.singleton nul ++ (k ++
        (String.singleton nul ++ (key ++ (String.singleton nul ++ a))))))) =
      second ++ (String.singleton nul ++ (n ++ (String.singleton nul ++ (l ++
        (String.singleton nul ++ (other ++ (String.singleton nul ++ b))))))) := by
  have separator : "\x00" = String.singleton nul := rfl
  simp only [sourceId, separator, String.append_assoc, String.append_right_inj,
    collisionFree.eq_iff]

/-- Sources of one identity have one namespace. -/
theorem namespace_of_sourceId (left : Free nul first) (right : Free nul second)
    (same : sourceId digest first m k key a = sourceId digest second n l other b) :
    first = second :=
  (split_first left right ((sourceId_eq_iff collisionFree).mp same)).1

/-- Within a namespace the identity tells the target. -/
theorem target_of_sourceId (codes : Free nul m ∧ Free nul n) (kinds : Free nul k ∧ Free nul l)
    (actions : Free nul a ∧ Free nul b)
    (same : sourceId digest first m k key a = sourceId digest first n l other b) :
    m = n ∧ k = l ∧ key = other ∧ a = b := by
  rw [sourceId_eq_iff collisionFree, String.append_right_inj, String.append_right_inj] at same
  obtain ⟨sameCode, rest⟩ := split_first codes.1 codes.2 same
  obtain ⟨sameKind, rest⟩ := split_first kinds.1 kinds.2 rest
  obtain ⟨sameKey, sameAction⟩ := split_last actions.1 actions.2 rest
  exact ⟨sameCode, sameKind, sameKey, sameAction⟩

end Texts

section Rights

/-- What a source is about: a module, a kind, a key and an action. -/
abbrev Target := String × Kind × String × Action

/-- The targets of a module of a plan, in the order of its sources. -/
def moduleTargets (m : Plan.Module) : List Target :=
  (m.code, .module, m.code, .none) ::
    m.capabilities.map (fun c => (m.code, .capability, c, .none)) ++
    m.quotas.map (fun q => (m.code, .quota, q.key, .none)) ++
    m.fields.map fun f => (m.code, .field, f.key, f.action)

def targetId (digest : String → String) (sourceNamespace : String) (target : Target) : String :=
  sourceId digest sourceNamespace target.1 target.2.1.text target.2.2.1 target.2.2.2.text

variable {digest : String → String} {tenant sourceNamespace : String} {start : Instant}
  {t : Plan.Terms} {c : Plan.Catalog} {m : Plan.Module}

/-- The end of a period is all that the sources of terms add to those of the modules. -/
theorem map_sources {α : Type} {f : Source → α}
    (blind : ∀ (s : Source) (e : Option Instant), f { s with expiresAt := e } = f s) :
    (sources digest tenant sourceNamespace start t).map f =
      (t.modules.flatMap (moduleSources digest tenant sourceNamespace start)).map f := by
  simp only [sources]
  split
  · simp [Function.comp_def, blind]
  · rfl

/-- The target of a source. -/
def targetOf (s : Source) : Target := (s.moduleCode, s.kind, s.key, s.action)

theorem map_targetOf_sources :
    (sources digest tenant sourceNamespace start t).map targetOf =
      t.modules.flatMap moduleTargets := by
  rw [map_sources fun _ _ => rfl, List.map_flatMap]
  congr 1
  funext m
  simp [moduleSources, moduleTargets, targetOf, planSource, Function.comp_def]

theorem map_id_sources :
    (sources digest tenant sourceNamespace start t).map (·.id) =
      (t.modules.flatMap moduleTargets).map (targetId digest sourceNamespace) := by
  rw [map_sources fun _ _ => rfl, List.map_flatMap, List.map_flatMap]
  congr 1
  funext m
  simp [moduleSources, moduleTargets, targetId, planSource, Function.comp_def]

/-- No target of a module is listed twice. -/
theorem moduleTargets_nodup {d : Plan.Definition} (accepted : m.Accepted d)
    (capabilities : m.capabilities.Nodup) : (moduleTargets m).Nodup := by
  have fields : (m.fields.map fun f => (m.code, Kind.field, f.key, f.action)).Nodup := by
    refine List.Nodup.of_map (fun target : Target => target.2.2.1 ++ "/" ++ target.2.2.2.text) ?_
    rw [List.map_map]
    exact accepted.distinct
  have quotas : (m.quotas.map fun q => (m.code, Kind.quota, q.key, Action.none)).Nodup := by
    refine List.Nodup.of_map (fun target : Target => target.2.2.1) ?_
    simpa [Function.comp_def] using accepted.quotas.1
  have listed : (m.capabilities.map fun c => (m.code, Kind.capability, c, Action.none)).Nodup := by
    refine List.Nodup.of_map (fun target : Target => target.2.2.1) ?_
    simpa [Function.comp_def] using capabilities
  unfold moduleTargets
  rw [List.cons_append, List.cons_append, List.nodup_cons, List.nodup_append', List.nodup_append']
  refine ⟨by simp, ⟨listed, quotas, ?_⟩, fields, ?_⟩
  · intro target inside
    obtain ⟨_, -, rfl⟩ := List.mem_map.mp inside
    simp
  · intro target inside
    rcases List.mem_append.mp inside with inside | inside
    · obtain ⟨_, -, rfl⟩ := List.mem_map.mp inside
      simp
    · obtain ⟨_, -, rfl⟩ := List.mem_map.mp inside
      simp

theorem code_of_moduleTargets {target : Target} (inside : target ∈ moduleTargets m) :
    target.1 = m.code := by
  simp only [moduleTargets, List.cons_append, List.mem_cons, List.mem_append, List.mem_map]
    at inside
  rcases inside with rfl | (⟨_, -, rfl⟩ | ⟨_, -, rfl⟩) | ⟨_, -, rfl⟩ <;> rfl

theorem kind_of_moduleTargets {d : Plan.Definition} (accepted : m.Accepted d) {target : Target}
    (inside : target ∈ moduleTargets m) :
    target.2.1 ∈ [Kind.module, .capability, .quota, .field] ∧
      target.2.2.2 ∈ Action.none :: fieldActions := by
  simp only [moduleTargets, List.cons_append, List.mem_cons, List.mem_append, List.mem_map]
    at inside
  rcases inside with rfl | (⟨_, -, rfl⟩ | ⟨_, -, rfl⟩) | ⟨f, member, rfl⟩
  · simp
  · simp
  · simp
  · exact ⟨by simp, List.mem_cons_of_mem _ (accepted.fields f member).2.1⟩

theorem targets_nodup (accepted : t.validate c = .ok ()) :
    (t.modules.flatMap moduleTargets).Nodup := by
  have modules := (Plan.Terms.accepted_of_validate accepted)
  rw [List.nodup_flatMap]
  constructor
  · intro m selected
    obtain ⟨d, -, here, -⟩ := modules.modules m selected
    exact moduleTargets_nodup here (Plan.Terms.capabilities_nodup accepted m selected)
  · refine (List.pairwise_map.mp modules.distinct).imp fun {first second} different => ?_
    intro target left right
    exact different ((code_of_moduleTargets left).symm.trans (code_of_moduleTargets right))

/-- The sources of accepted terms have distinct identities. -/
theorem sources_distinct (collisionFree : Function.Injective digest)
    (accepted : t.validate c = .ok ()) :
    ((sources digest tenant sourceNamespace start t).map (·.id)).Nodup := by
  have modules := (Plan.Terms.accepted_of_validate accepted).modules
  rw [map_id_sources]
  refine List.Nodup.map_on (fun left inside right inside' same => ?_) (targets_nodup accepted)
  have shape : ∀ target ∈ t.modules.flatMap moduleTargets, Free nul target.1 ∧
      target.2.1 ∈ [Kind.module, .capability, .quota, .field] ∧
      target.2.2.2 ∈ Action.none :: fieldActions := by
    intro target inside
    obtain ⟨m, selected, inside⟩ := List.mem_flatMap.mp inside
    obtain ⟨d, -, here, -⟩ := modules m selected
    have code : Text.code m.code = true := by
      have valid := here.code
      rw [Plan.code, Bool.and_eq_true] at valid
      exact valid.2
    refine ⟨?_, kind_of_moduleTargets here inside⟩
    rw [code_of_moduleTargets inside]
    exact Text.notMem_of_code code (by decide)
  have kinds : ∀ kind ∈ [Kind.module, .capability, .quota, .field], Free nul kind.text := by decide
  have actions : ∀ action ∈ Action.none :: fieldActions, Free nul action.text := by decide
  obtain ⟨m, k, _, a⟩ := left
  obtain ⟨n, l, _, b⟩ := right
  obtain ⟨freeLeft, kindLeft, actionLeft⟩ := shape _ inside
  obtain ⟨freeRight, kindRight, actionRight⟩ := shape _ inside'
  obtain ⟨rfl, sameKind, rfl, sameAction⟩ := target_of_sourceId collisionFree
    ⟨freeLeft, freeRight⟩ ⟨kinds k kindLeft, kinds l kindRight⟩
    ⟨actions a actionLeft, actions b actionRight⟩ same
  have kindInjective : ∀ k ∈ [Kind.module, .capability, .quota, .field],
      ∀ l ∈ [Kind.module, .capability, .quota, .field], k.text = l.text → k = l := by decide
  have actionInjective : ∀ a ∈ Action.none :: fieldActions, ∀ b ∈ Action.none :: fieldActions,
      a.text = b.text → a = b := by decide
  obtain rfl := kindInjective k kindLeft l kindRight sameKind
  obtain rfl := actionInjective a actionLeft b actionRight sameAction
  rfl

end Rights

end Biz.Subscription
