import Biz.Change.Project
import Biz.Subscription.Exactness
import Biz.Subscription.Identities

/-!
# The switch of a change

What `ProjectSources` makes of the sources of a plan, at every instant. Before the
change takes effect nothing is lost, from then on the generation of the change is all
there is, and the sources that are left can be the input of the next change.
-/

namespace Biz.Change

open Time Checks Subscription
open Entitlement (Source)

variable {digest : String → String} {s : BaseSubscription} {p old target : Plan.Version}
  {expected sources before result : List Source} {changeId : String} {start now : Instant}
  {ends : Option Instant}

/-- The sources of a plan that are active at an instant. -/
def activePlan (sources : List Source) (now : Instant) : List Source :=
  sources.filter fun v => v.sourceKind = .plan ∧ v.active now

/-- The sources that do not come from a plan. -/
def otherSources (sources : List Source) : List Source :=
  sources.filter fun v => v.sourceKind ≠ .plan

section Activity

theorem retired_sourceKind (start : Instant) (v : Source) :
    (retired start v).sourceKind = v.sourceKind := by
  unfold retired revokedFrom
  split <;> rfl

theorem retired_id (start : Instant) (v : Source) : (retired start v).id = v.id := by
  unfold retired revokedFrom
  split <;> rfl

theorem retired_of_other {v : Source} (other : v.sourceKind ≠ .plan) : retired start v = v :=
  if_neg fun live => other live.1

/-- Every source of a plan is revoked afterwards. -/
theorem retired_revoked {v : Source} (plan : v.sourceKind = .plan) :
    (retired start v).revokedAt ≠ none := by
  unfold retired
  by_cases live : Live v
  · simp [live, revokedFrom]
  · rw [if_neg live]
    exact fun none => live ⟨plan, none⟩

/-- Until it takes effect, a revocation changes nothing. -/
theorem active_retired_of_lt (v : Source) (early : now < start) :
    (retired start v).active now = v.active now := by
  unfold retired
  by_cases live : Live v
  · have later : ¬start ≤ now := not_le.mpr early
    simp [live, revokedFrom, Source.active, Source.state, live.2, later]
  · rw [if_neg live]

theorem inactive_retired {v : Source} (plan : v.sourceKind = .plan)
    (settled : ∀ revoked ∈ v.revokedAt, revoked ≤ start) (reached : start ≤ now) :
    (retired start v).active now = false := by
  have revoked : ∃ revoked ∈ (retired start v).revokedAt, revoked ≤ now := by
    unfold retired
    by_cases live : Live v
    · simpa [live, revokedFrom] using reached
    · obtain ⟨revoked, known⟩ := Option.ne_none_iff_exists'.mp fun none => live ⟨plan, none⟩
      rw [if_neg live]
      exact ⟨revoked, known, (settled revoked known).trans reached⟩
  simp only [Source.active, Source.state, if_pos revoked]
  decide

variable {tenant : String} {t : Plan.Terms}

/-- A source of a generation is active exactly in the period of the generation. -/
theorem active_generation {x : Source}
    (listed : x ∈ generation digest tenant changeId start ends t) :
    x.active now = decide (start ≤ now ∧ ∀ e ∈ ends, now < e) := by
  obtain ⟨-, -, effective, expires, revoked, -⟩ := mem_generation listed
  have unrevoked : ¬∃ revoked ∈ x.revokedAt, revoked ≤ now := by simp [revoked]
  rw [Source.active, Source.state, if_neg unrevoked, effective, expires]
  by_cases early : now < start
  · simp [early]
  · rw [if_neg early]
    cases ends with
    | none => simpa using not_lt.mp early
    | some e => by_cases ended : e ≤ now <;> simp [ended, not_lt.mp early, lt_of_not_ge]

theorem activePlan_generation :
    activePlan (generation digest tenant changeId start ends t) now =
      if start ≤ now ∧ ∀ e ∈ ends, now < e then generation digest tenant changeId start ends t
      else [] := by
  split
  next inside =>
    rw [activePlan, List.filter_eq_self]
    intro x listed
    rw [active_generation listed, decide_eq_true inside]
    simp [(mem_generation listed).2.1]
  next outside =>
    rw [activePlan, List.filter_eq_nil_iff]
    intro x listed
    rw [active_generation listed, decide_eq_false outside]
    simp

theorem activePlan_append (first second : List Source) :
    activePlan (first ++ second) now = activePlan first now ++ activePlan second now :=
  List.filter_append ..

theorem activePlan_retired_of_lt (sources : List Source) (early : now < start) :
    activePlan (sources.map (retired start)) now =
      (activePlan sources now).map (retired start) := by
  rw [activePlan, activePlan, List.filter_map]
  refine congrArg _ (List.filter_congr fun v _ => ?_)
  simp [retired_sourceKind, active_retired_of_lt v early]

theorem activePlan_retired (settled : ∀ v ∈ sources, v.sourceKind = .plan →
    ∀ revoked ∈ v.revokedAt, revoked ≤ start) (reached : start ≤ now) :
    activePlan (sources.map (retired start)) now = [] := by
  rw [activePlan, List.filter_eq_nil_iff]
  intro w member
  obtain ⟨v, inside, rfl⟩ := List.mem_map.mp member
  rw [retired_sourceKind, decide_eq_true_eq]
  rintro ⟨plan, active⟩
  rw [inactive_retired plan (settled v inside plan) reached] at active
  exact absurd active (by decide)

theorem otherSources_retired (sources : List Source) :
    otherSources (sources.map (retired start)) = otherSources sources := by
  induction sources with
  | nil => rfl
  | cons v rest ih =>
    unfold otherSources at ih ⊢
    by_cases plan : v.sourceKind = .plan
    · simpa [retired_sourceKind, plan] using ih
    · simpa [retired_sourceKind, plan, retired_of_other plan] using ih

theorem otherSources_generation :
    otherSources (generation digest tenant changeId start ends t) = [] := by
  rw [otherSources, List.filter_eq_nil_iff]
  intro x listed
  simp [(mem_generation listed).2.1]

end Activity

section Acceptance

/-- A source that the check of a subscription passes over: it comes from elsewhere, or
from a generation that is over. -/
def PassedOver (expected : List Source) (v : Source) : Prop :=
  v.sourceKind = .plan → sourceEntry expected v.id = none ∧ v.revokedAt ≠ none

theorem checkCurrent_passedOver {seen : List String} (rest : List Source)
    (passed : ∀ v ∈ before, PassedOver expected v) :
    checkCurrent s expected seen (before ++ rest) = checkCurrent s expected seen rest := by
  induction before with
  | nil => rfl
  | cons v others ih =>
    obtain ⟨here, later⟩ := List.forall_mem_cons.mp passed
    rw [List.cons_append, checkCurrent]
    by_cases plan : v.sourceKind = .plan
    · obtain ⟨unknown, revoked⟩ := here plan
      rw [if_neg (not_not.mpr plan), unknown]
      simp only [require, if_pos revoked]
      exact ih later
    · rw [if_pos plan]
      exact ih later

theorem validateCurrentSources_passedOver {rest : List Source}
    (passed : ∀ v ∈ before, PassedOver (expectedSources digest s p) v) :
    validateCurrentSources digest s p (before ++ rest) =
      validateCurrentSources digest s p rest := by
  simp only [validateCurrentSources, checkCurrent_passedOver rest passed]

/-- A fresh generation of valid terms is what its subscription should have. -/
theorem validateCurrentSources_generation {c : Plan.Catalog}
    (collisionFree : Function.Injective digest) (accepted : p.terms.validate c = .ok ()) :
    validateCurrentSources digest s p (expectedSources digest s p) = .ok () := by
  have ids : ((expectedSources digest s p).map (·.id)).Nodup := by
    have distinct : ((sources digest s.tenantId s.sourceNamespace s.periodStart
        p.terms).map (·.id)).Nodup :=
      sources_distinct collisionFree accepted
    simpa [expectedSources, generation, Function.comp_def] using distinct
  rw [validateCurrentSources_ok ids]
  refine ⟨generation_ne_nil (Plan.Terms.modules_ne_nil accepted), ?_, ?_⟩
  · intro v listed _
    obtain ⟨tenant, -, effective, expires, revoked, version, -⟩ := mem_generation listed
    refine ⟨fun unknown => absurd rfl (sourceEntry_eq_none.mp unknown v listed), ?_⟩
    intro x known
    obtain ⟨member, same⟩ := sourceEntry_eq_some known
    obtain rfl := List.inj_on_of_nodup_map ids member listed same
    refine ⟨⟨tenant, rfl, rfl, rfl, rfl, rfl, rfl, effective, expires, ?_⟩, ?_⟩
    · rw [version]
      decide
    · rw [RevokedWithin, revoked]
      simp
  · exact fun x listed => ⟨x, listed, (mem_generation listed).2.1, rfl⟩

end Acceptance

/-- The subscription after a change has taken effect. -/
def switched (s : BaseSubscription) (changeId : String) (start : Instant) (ends : Option Instant) :
    BaseSubscription :=
  { s with sourceNamespace := changeId, periodStart := start, periodEnd := ends }

/-- The switch is exact at every instant: before the start the sources of the plan are
those that were active already, from the start on they are the generation of the change
until its end, the other sources stay, and if the terms of the target are valid, the
result is what the subscription should have after the change.

Proof: a retired source and a source of the generation are never active at one
instant, and the check of the new namespace passes over everything retired. -/
theorem projectSources_switches (collisionFree : Function.Injective digest)
    (projected : projectSources digest s old target sources changeId start ends = .ok result)
    (settled : ∀ v ∈ sources, v.sourceKind = .plan → ∀ revoked ∈ v.revokedAt, revoked ≤ start)
    (fresh : ∀ v ∈ sources, v.sourceKind = .plan → ∀ moduleCode kind key action,
      v.id ≠ sourceId digest changeId moduleCode kind key action) :
    (∀ now < start,
        activePlan result now = (activePlan sources now).map (retired start)) ∧
      (∀ now, start ≤ now → activePlan result now =
        if ∀ e ∈ ends, now < e then generation digest s.tenantId changeId start ends target.terms
        else []) ∧
      otherSources result = otherSources sources ∧
      ∀ c : Plan.Catalog, target.terms.validate c = .ok () →
        validateCurrentSources digest (switched s changeId start ends) target result = .ok () := by
  obtain rfl := projectSources_ok projected
  refine ⟨fun now early => ?_, fun now reached => ?_, ?_, fun c accepted => ?_⟩
  · rw [activePlan_append, activePlan_retired_of_lt sources early, activePlan_generation,
      if_neg fun inside => absurd inside.1 (not_le.mpr early), List.append_nil]
  · rw [activePlan_append, activePlan_retired settled reached, activePlan_generation]
    simp [reached]
  · rw [otherSources, List.filter_append]
    exact (congrArg₂ _ (otherSources_retired sources) otherSources_generation).trans
      (List.append_nil _)
  · have passed : ∀ w ∈ sources.map (retired start),
        PassedOver (expectedSources digest (switched s changeId start ends) target) w := by
      intro w member plan
      obtain ⟨v, inside, rfl⟩ := List.mem_map.mp member
      rw [retired_sourceKind] at plan
      refine ⟨sourceEntry_eq_none.mpr fun x listed same => ?_, retired_revoked plan⟩
      obtain ⟨-, -, -, -, -, -, moduleCode, kind, key, action, named⟩ := mem_generation listed
      rw [retired_id] at same
      exact fresh v inside plan moduleCode kind key action (same.symm.trans named)
    rw [validateCurrentSources_passedOver passed]
    exact validateCurrentSources_generation collisionFree accepted

section Sample

def samplePlan (terms : Plan.Terms) : Plan.Version :=
  { planCode := "basic", number := 1, revision := 1, planRevision := 1, state := .published,
    name := "Basic", terms, contentSha256 := "", createdAt := sampleStart,
    publishedAt := some sampleStart, retiredAt := none, actorId := "actor", reason := "launch" }

def sampleSubscription : BaseSubscription :=
  { BaseSubscription.zero with
    revision := 1, periodStart := sampleStart, sourceNamespace := "sub-1", id := "sub-1",
    tenantId := "tenant", planCode := "basic", planVersion := 1 }

/-- The sources after a change of the sample subscription to other terms. -/
def sampleSwitch (terms : Plan.Terms) : List Source :=
  sampleSources.map (retired (sampleStart + hour)) ++
    generation id "tenant" "chg-1" (sampleStart + hour) none terms

theorem sample_projected (terms : Plan.Terms) :
    projectSources id sampleSubscription (samplePlan sampleTerms) (samplePlan terms) sampleSources
      "chg-1" (sampleStart + hour) none = .ok (sampleSwitch terms) := by
  rfl

theorem sample_settled : ∀ v ∈ sampleSources, v.sourceKind = .plan →
    ∀ revoked ∈ v.revokedAt, revoked ≤ sampleStart + hour := by
  decide +kernel

theorem sample_fresh : ∀ v ∈ sampleSources, v.sourceKind = .plan → ∀ moduleCode kind key action,
    v.id ≠ sourceId id "chg-1" moduleCode kind key action := by
  intro v member _ moduleCode kind key action same
  have listed : { v with expiresAt := none } ∈
      generation id "tenant" "sub-1" sampleStart none sampleTerms :=
    List.mem_map.mpr ⟨v, member, rfl⟩
  obtain ⟨-, -, -, -, -, -, _, _, _, _, named⟩ := mem_generation listed
  exact absurd (namespace_of_sourceId Function.injective_id (by decide) (by decide)
    (named.symm.trans same)) (by decide)

/-- A change to terms without a module leaves sources that no later change accepts. -/
theorem empty_target_rejected :
    projectSources id sampleSubscription (samplePlan sampleTerms)
        (samplePlan { sampleTerms with modules := [] }) sampleSources "chg-1" (sampleStart + hour)
        none = .ok (sampleSwitch { sampleTerms with modules := [] }) ∧
      (∀ v ∈ sampleSources, v.sourceKind = .plan →
        ∀ revoked ∈ v.revokedAt, revoked ≤ sampleStart + hour) ∧
      (∀ v ∈ sampleSources, v.sourceKind = .plan → ∀ moduleCode kind key action,
        v.id ≠ sourceId id "chg-1" moduleCode kind key action) ∧
      validateCurrentSources id (switched sampleSubscription "chg-1" (sampleStart + hour) none)
        (samplePlan { sampleTerms with modules := [] })
        (sampleSwitch { sampleTerms with modules := [] }) = .error .corrupt :=
  ⟨sample_projected _, sample_settled, sample_fresh, by decide +kernel⟩

theorem projectSources_switches_sample :
    (∀ now < sampleStart + hour, activePlan (sampleSwitch sampleTerms) now =
        (activePlan sampleSources now).map (retired (sampleStart + hour))) ∧
      (∀ now, sampleStart + hour ≤ now → activePlan (sampleSwitch sampleTerms) now =
        generation id "tenant" "chg-1" (sampleStart + hour) none sampleTerms) ∧
      validateCurrentSources id (switched sampleSubscription "chg-1" (sampleStart + hour) none)
        (samplePlan sampleTerms) (sampleSwitch sampleTerms) = .ok () := by
  obtain ⟨early, late, -, accepted⟩ := projectSources_switches Function.injective_id
    (sample_projected sampleTerms) sample_settled sample_fresh
  exact ⟨early, fun now reached => (late now reached).trans (if_pos (by simp)),
    accepted sampleCatalog sample_accepted⟩

end Sample

end Biz.Change
