import Biz.Change.Model

/-!
# The sources of a subscription

`domain/subscriptionchange/project.go`: the check that the live sources of a plan are
those of the subscription, and the sources that a change leaves behind. A change uses a
namespace of its own: it revokes the generation of the old namespace and adds one for
the new.
-/

namespace Biz.Change

open Time Checks Subscription
open Entitlement (Source)
open Provisioning (maxUint64)

section Functions

-- The digest of the identities of sources.
variable (digest : String → String)

/-- The sources of terms for a period. -/
def generation (tenant sourceNamespace : String) (start : Instant) (ends : Option Instant)
    (t : Plan.Terms) : List Source :=
  (sources digest tenant sourceNamespace start t).map fun v => { v with expiresAt := ends }

/-- The sources that a subscription should have. -/
def expectedSources (s : BaseSubscription) (p : Plan.Version) : List Source :=
  generation digest s.tenantId s.sourceNamespace s.periodStart s.periodEnd p.terms

/-- The entry of a map of sources by identity: the last one with the identity. -/
def sourceEntry (sources : List Source) (id : String) : Option Source :=
  sources.reverse.find? fun x => x.id = id

/-- A source against the expected one. -/
def Matches (s : BaseSubscription) (v x : Source) : Prop :=
  v.tenantId = s.tenantId ∧ v.moduleCode = x.moduleCode ∧ v.kind = x.kind ∧ v.key = x.key ∧
    v.action = x.action ∧ v.effect = x.effect ∧ v.limit = x.limit ∧
    v.effectiveAt = s.periodStart ∧ v.expiresAt = s.periodEnd ∧ v.version ≠ 0

instance (s : BaseSubscription) (v x : Source) : Decidable (Matches s v x) :=
  inferInstanceAs (Decidable (_ ∧ _))

/-- A source that is revoked is revoked within its period. -/
def RevokedWithin (v : Source) : Prop :=
  ∀ revoked ∈ v.revokedAt, v.effectiveAt ≤ revoked ∧ ∀ expires ∈ v.expiresAt, revoked ≤ expires

instance (v : Source) : Decidable (RevokedWithin v) :=
  inferInstanceAs (Decidable (∀ _ ∈ v.revokedAt, _))

/-- The loop of `ValidateCurrentSources`, with the identities seen so far. -/
def checkCurrent (s : BaseSubscription) (expected : List Source) :
    List String → List Source → Except Err (List String)
  | seen, [] => .ok seen
  | seen, v :: rest =>
    if v.sourceKind ≠ .plan then checkCurrent s expected seen rest
    else
      match sourceEntry expected v.id with
      | none => do
        require .corrupt (v.revokedAt ≠ none)
        checkCurrent s expected seen rest
      | some x => do
        require .corrupt (v.id ∉ seen ∧ Matches s v x)
        require .corrupt (RevokedWithin v)
        checkCurrent s expected (v.id :: seen) rest

def validateCurrentSources (s : BaseSubscription) (p : Plan.Version) (sources : List Source) :
    Except Err Unit := do
  let expected := expectedSources digest s p
  let seen ← checkCurrent s expected [] sources
  require .corrupt (seen.length = (expected.map (·.id)).dedup.length ∧ expected ≠ [])

def projectInitialSources (tenant : String) (target : Plan.Version) (sources : List Source)
    (planDigest : String → Plan.Terms → String) (id : String) (start : Instant)
    (ends : Option Instant) : Except Err (List Source) := do
  require .invalid (Provisioning.tenant tenant ∧ Text.key id ∧
    target.integrity planDigest = .ok () ∧ ¬isZero start)
  let kept ← sources.mapM fun v => do
    require .corrupt (v.tenantId = tenant)
    require .conflict (¬(v.sourceKind = .plan ∧ v.revokedAt = none))
    return v
  return kept ++ generation digest tenant id start ends target.terms

/-- A source of a plan that nothing revokes yet. -/
def Live (v : Source) : Prop := v.sourceKind = .plan ∧ v.revokedAt = none

instance (v : Source) : Decidable (Live v) := inferInstanceAs (Decidable (_ ∧ _))

/-- A source under a revocation. -/
def revokedFrom (start : Instant) (v : Source) : Source :=
  { v with revokedAt := some start, version := v.version + 1 }

/-- What a change that takes effect makes of a source. -/
def retire (start : Instant) (v : Source) : Except Err Source :=
  if Live v then do
    require .corrupt (v.effectiveAt ≤ start ∧ v.version ≠ maxUint64)
    return revokedFrom start v
  else return v

def projectSources (s : BaseSubscription) (old target : Plan.Version) (sources : List Source)
    (id : String) (start : Instant) (ends : Option Instant) : Except Err (List Source) := do
  validateCurrentSources digest s old sources
  let kept ← sources.mapM (retire start)
  return kept ++ generation digest s.tenantId id start ends target.terms

end Functions

section Lemmas

variable {digest : String → String} {s : BaseSubscription} {p old target : Plan.Version}
  {expected sources after : List Source} {seen : List String}

theorem sourceEntry_eq_some {id : String} {x : Source}
    (known : sourceEntry expected id = some x) : x ∈ expected ∧ x.id = id := by
  have found := List.mem_of_find?_eq_some known
  exact ⟨List.mem_reverse.mp found, by simpa using List.find?_some known⟩

theorem sourceEntry_eq_none {id : String} :
    sourceEntry expected id = none ↔ ∀ x ∈ expected, x.id ≠ id := by
  simp [sourceEntry]

/-- What the loop has checked of a source. -/
def Checked (s : BaseSubscription) (expected : List Source) (v : Source) : Prop :=
  (sourceEntry expected v.id = none → v.revokedAt ≠ none) ∧
    ∀ x, sourceEntry expected v.id = some x → Matches s v x ∧ RevokedWithin v

/-- The sources that the loop records as seen. -/
def recorded (expected sources : List Source) : List Source :=
  sources.filter fun v => v.sourceKind = .plan ∧ (sourceEntry expected v.id).isSome

/-- The loop over sources with distinct identities. Proof: induction on the sources;
a source is skipped, has to be revoked, or has to match and is recorded. -/
theorem checkCurrent_ok (distinct : (sources.map (·.id)).Nodup)
    (fresh : ∀ v ∈ sources, v.id ∉ seen) {final : List String} :
    checkCurrent s expected seen sources = .ok final ↔
      (∀ v ∈ sources, v.sourceKind = .plan → Checked s expected v) ∧
        final = ((recorded expected sources).map (·.id)).reverse ++ seen := by
  induction sources generalizing seen with
  | nil => simpa [checkCurrent, recorded] using eq_comm
  | cons v rest ih =>
    obtain ⟨first, later⟩ := List.nodup_cons.mp distinct
    have unseen : ∀ w ∈ rest, w.id ∉ seen := fun w member => fresh w (List.mem_cons_of_mem _ member)
    unfold checkCurrent
    by_cases plan : v.sourceKind = .plan
    · rw [if_neg (not_not.mpr plan)]
      cases known : sourceEntry expected v.id with
      | none =>
        simp only [bind_ok, require_ok, ih later unseen, List.forall_mem_cons,
          Checked, recorded, known, plan, Option.isSome_none, List.filter_cons]
        simp [and_assoc]
      | some x =>
        have notYet := Keyed.unseen_cons.mpr ⟨first, unseen⟩
        simp only [bind_ok, require_ok, ih later notYet, List.forall_mem_cons,
          Checked, recorded, known, plan, Option.isSome_some, List.filter_cons]
        simp [and_assoc, fresh v List.mem_cons_self]
    · rw [if_pos plan, ih later unseen]
      simp [recorded, plan]

/-- Distinct items among distinct others are as many exactly when they are all. -/
theorem length_eq_iff_subset {xs ys : List String} (distinct : xs.Nodup) (others : ys.Nodup)
    (among : xs ⊆ ys) : xs.length = ys.length ↔ ys ⊆ xs := by
  constructor
  · intro same
    exact ((List.subperm_of_subset distinct among).perm_of_length_le same.ge).symm.subset
  · intro covered
    exact Nat.le_antisymm (List.subperm_of_subset distinct among).length_le
      (List.subperm_of_subset others covered).length_le

/-- As many sources are recorded as expected exactly when every expected one is. -/
theorem recorded_length (distinct : (sources.map (·.id)).Nodup) :
    (recorded expected sources).length = (expected.map (·.id)).dedup.length ↔
      ∀ x ∈ expected, ∃ v ∈ sources, v.sourceKind = .plan ∧ v.id = x.id := by
  have among : (recorded expected sources).map (·.id) ⊆ (expected.map (·.id)).dedup := by
    intro id member
    obtain ⟨v, inside, rfl⟩ := List.mem_map.mp member
    obtain ⟨-, -, known⟩ := by simpa [recorded] using inside
    obtain ⟨x, found⟩ := Option.isSome_iff_exists.mp known
    obtain ⟨listed, same⟩ := sourceEntry_eq_some found
    exact List.mem_dedup.mpr (List.mem_map.mpr ⟨x, listed, same⟩)
  have kept : ((recorded expected sources).map (·.id)).Nodup :=
    distinct.sublist (List.filter_sublist.map _)
  rw [← List.length_map (·.id), length_eq_iff_subset kept (List.nodup_dedup _) among]
  constructor
  · intro covered x listed
    have member := covered (List.mem_dedup.mpr (List.mem_map_of_mem listed))
    obtain ⟨v, inside, same⟩ := List.mem_map.mp member
    obtain ⟨stored, plan, -⟩ := by simpa [recorded] using inside
    exact ⟨v, stored, plan, same⟩
  · intro covered id member
    obtain ⟨x, listed, rfl⟩ := List.mem_map.mp (List.mem_dedup.mp member)
    obtain ⟨v, stored, plan, same⟩ := covered x listed
    have known : (sourceEntry expected v.id).isSome := by
      rw [Option.isSome_iff_ne_none, Ne, sourceEntry_eq_none]
      exact fun absent => absent x listed same.symm
    exact List.mem_map.mpr ⟨v, by simpa [recorded] using ⟨stored, plan, known⟩, same⟩

/-- What the validation accepts, for sources with distinct identities: every live
source of a plan is an expected one and matches it, and all expected ones are there. -/
theorem validateCurrentSources_ok (distinct : (sources.map (·.id)).Nodup) :
    validateCurrentSources digest s p sources = .ok () ↔
      expectedSources digest s p ≠ [] ∧
        (∀ v ∈ sources, v.sourceKind = .plan → Checked s (expectedSources digest s p) v) ∧
        ∀ x ∈ expectedSources digest s p, ∃ v ∈ sources, v.sourceKind = .plan ∧ v.id = x.id := by
  simp only [validateCurrentSources, bind_ok, require_ok, ← recorded_length distinct]
  have unseen : ∀ v ∈ sources, v.id ∉ ([] : List String) := by simp
  constructor
  · rintro ⟨_, checked, sizes, some_⟩
    obtain ⟨each, rfl⟩ := (checkCurrent_ok distinct unseen).mp checked
    exact ⟨some_, each, by simpa using sizes⟩
  · rintro ⟨some_, each, sizes⟩
    exact ⟨_, (checkCurrent_ok distinct unseen).mpr ⟨each, rfl⟩, by simpa using sizes, some_⟩

/-- What becomes of a source when a change takes effect. -/
def retired (start : Instant) (v : Source) : Source := if Live v then revokedFrom start v else v

theorem retire_ok {start : Instant} {v w : Source} (done : retire start v = .ok w) :
    w = retired start v := by
  unfold retire at done
  unfold retired
  split at done
  · rename_i live
    obtain ⟨_, -, returned⟩ := bind_ok.mp done
    rw [if_pos live]
    exact (pure_ok.mp returned).symm
  · rename_i ended
    rw [if_neg ended]
    exact (pure_ok.mp done).symm

/-- The sources that a change leaves: those that were there, the live ones of plans
revoked, and the generation of the change. -/
theorem projectSources_ok {id : String} {start : Instant} {ends : Option Instant}
    (projected : projectSources digest s old target sources id start ends = .ok after) :
    after = sources.map (retired start) ++
      generation digest s.tenantId id start ends target.terms := by
  simp only [projectSources, bind_ok, pure_ok] at projected
  obtain ⟨-, -, _, loop, rfl⟩ := projected
  obtain ⟨-, rfl⟩ := mapM_inv (fun v w done => retire_ok done) loop
  rfl

end Lemmas

section Generations

variable {digest : String → String} {tenant sourceNamespace : String} {start : Instant}
  {ends : Option Instant} {t : Plan.Terms}

/-- A source of a generation. -/
theorem mem_generation {x : Source} (listed : x ∈ generation digest tenant sourceNamespace start
    ends t) :
    x.tenantId = tenant ∧ x.sourceKind = .plan ∧ x.effectiveAt = start ∧ x.expiresAt = ends ∧
      x.revokedAt = none ∧ x.version = 1 ∧
      ∃ moduleCode kind key action,
        x.id = sourceId digest sourceNamespace moduleCode kind key action := by
  obtain ⟨v, member, rfl⟩ := List.mem_map.mp listed
  have made : ∃ m k key action effect limit ends,
      v = { planSource digest tenant sourceNamespace start m k key action effect limit with
        expiresAt := ends } := by
    unfold sources at member
    have each : ∀ v ∈ t.modules.flatMap (moduleSources digest tenant sourceNamespace start),
        ∃ m k key action effect limit,
          v = planSource digest tenant sourceNamespace start m k key action effect limit := by
      intro v inside
      obtain ⟨m, -, inside⟩ := List.mem_flatMap.mp inside
      rcases mem_moduleSources.mp inside with rfl | ⟨c, -, rfl⟩ | ⟨q, -, rfl⟩ | ⟨f, -, rfl⟩
      · exact ⟨_, _, _, _, _, _, rfl⟩
      · exact ⟨_, _, _, _, _, _, rfl⟩
      · exact ⟨_, _, _, _, _, _, rfl⟩
      · exact ⟨_, _, _, _, _, _, rfl⟩
    split at member
    · obtain ⟨w, inside, rfl⟩ := List.mem_map.mp member
      obtain ⟨m, k, key, action, effect, limit, rfl⟩ := each w inside
      exact ⟨m, k, key, action, effect, limit, _, rfl⟩
    · obtain ⟨m, k, key, action, effect, limit, rfl⟩ := each v member
      exact ⟨m, k, key, action, effect, limit, none, rfl⟩
  obtain ⟨m, k, key, _, _, _, _, rfl⟩ := made
  exact ⟨rfl, rfl, rfl, rfl, rfl, rfl, m, _, key, _, rfl⟩

/-- Terms with a module have sources. -/
theorem generation_ne_nil (some_ : t.modules ≠ []) :
    generation digest tenant sourceNamespace start ends t ≠ [] := by
  obtain ⟨m, _, modules⟩ := List.exists_cons_of_ne_nil some_
  unfold generation sources
  rw [modules]
  split <;> simp [moduleSources]

end Generations

end Biz.Change
