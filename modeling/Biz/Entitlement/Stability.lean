import Biz.Entitlement.Append

/-!
# A result holds until its next transition

Between the instant of an evaluation and its next transition no source changes its
state, so an evaluation at any instant in between returns the same result, apart from
the instant itself. A source that is revoked stays revoked; for every other source
the resolver has looked at all three instants at which its state can change. At the
next transition the state of some source does change.
-/

namespace Biz.Entitlement

open Time Checks

/-- The instants at which the state of a source can change. -/
def Source.instants (s : Source) : List Instant :=
  s.effectiveAt :: (s.expiresAt.toList ++ s.revokedAt.toList)

/-- The least instant with a property, or none if no instant has it. -/
structure Earliest (has : Instant → Prop) (next : Option Instant) : Prop where
  least : ∀ n ∈ next, has n ∧ ∀ t, has t → n ≤ t
  none : next = none → ∀ t, ¬has t

variable {now : Instant} {next : Option Instant} {has : Instant → Prop} {has' : Instant → Prop}

theorem Earliest.transition {u : Option Instant} (earliest : Earliest has next)
    (grown : ∀ t, has' t ↔ has t ∨ (u = some t ∧ now < t)) :
    Earliest has' (transition now next u) := by
  obtain ⟨least, none⟩ := earliest
  cases u <;> cases next <;> constructor <;> simp only [Entitlement.transition] <;> grind

/-- The instants ahead at which the state of a source that is not revoked can change. -/
def Source.Ahead (s : Source) (now t : Instant) : Prop :=
  s.state now ≠ .revoked ∧ t ∈ s.instants ∧ now < t

theorem Earliest.transitions {s : Source} (earliest : Earliest has next)
    (grown : ∀ t, has' t ↔ has t ∨ s.Ahead now t) : Earliest has' (s.transitions now next) := by
  unfold Source.transitions
  split
  · rename_i revoked
    have same : has' = has := by
      funext t
      simp [grown, Source.Ahead, revoked]
    exact same ▸ earliest
  · refine ((earliest.transition fun _ => Iff.rfl).transition fun _ => Iff.rfl).transition
      fun t => ?_
    rw [grown, Source.Ahead]
    simp only [Source.instants, List.mem_cons, List.mem_append, Option.mem_toList,
      Option.some.injEq]
    grind

theorem Earliest.foldl {sources : List Source} (earliest : Earliest has next)
    (grown : ∀ t, has' t ↔ has t ∨ ∃ s ∈ sources, s.Ahead now t) :
    Earliest has' (sources.foldl (fun next s => s.transitions now next) next) := by
  induction sources generalizing next has with
  | nil =>
    have same : has' = has := by
      funext t
      simp [grown]
    exact same ▸ earliest
  | cons s rest ih =>
    refine ih (earliest.transitions fun _ => Iff.rfl) fun t => ?_
    rw [grown, List.exists_mem_cons_iff, or_assoc]

theorem nextTransition_earliest (now : Instant) (sources : List Source) :
    Earliest (fun t => ∃ s ∈ sources, s.Ahead now t) (nextTransition now sources) := by
  have start : Earliest (fun _ => False) none := ⟨by simp, by simp⟩
  exact start.foldl (by simp)

section Stability

variable {now later : Instant} {sources : List Source} {s : Source}

/-- A source that is revoked stays revoked. -/
theorem Source.state_revoked (revoked : s.state now = .revoked) (after : now ≤ later) :
    s.state later = .revoked := by
  unfold Source.state at revoked ⊢
  split at revoked
  · rename_i reached
    obtain ⟨t, known, before⟩ := reached
    rw [if_pos ⟨t, known, before.trans after⟩]
  · split at revoked
    · cases revoked
    · split at revoked <;> cases revoked

/-- No instant of change lies between two instants. -/
def Quiet (now later : Instant) (s : Source) : Prop :=
  ∀ t ∈ s.instants, t ≤ now ↔ t ≤ later

theorem Source.state_quiet (quiet : Quiet now later s) : s.state later = s.state now := by
  have effective := quiet s.effectiveAt List.mem_cons_self
  have expires : (∃ t ∈ s.expiresAt, t ≤ later) ↔ ∃ t ∈ s.expiresAt, t ≤ now :=
    exists_congr fun t => and_congr_right fun known =>
      (quiet t (List.mem_cons_of_mem _ (List.mem_append_left _ (Option.mem_toList.mpr known)))).symm
  have revoked : (∃ t ∈ s.revokedAt, t ≤ later) ↔ ∃ t ∈ s.revokedAt, t ≤ now :=
    exists_congr fun t => and_congr_right fun known =>
      (quiet t (List.mem_cons_of_mem _
        (List.mem_append_right _ (Option.mem_toList.mpr known)))).symm
  simp only [Source.state, expires, revoked, ← not_le, effective]

/-- Before the next transition no instant of change has passed. -/
theorem quiet_of_nextTransition (member : s ∈ sources) (after : now ≤ later)
    (before : ∀ n ∈ nextTransition now sources, later < n) (unrevoked : s.state now ≠ .revoked) :
    Quiet now later s := by
  intro t changes
  refine ⟨fun reached => reached.trans after, fun reached => ?_⟩
  by_contra ahead
  have earliest := nextTransition_earliest now sources
  have change : ∃ s ∈ sources, s.Ahead now t := ⟨s, member, unrevoked, changes, not_le.mp ahead⟩
  cases next : nextTransition now sources with
  | none => exact earliest.none next t change
  | some n =>
    exact absurd (before n next) (not_lt.mpr (((earliest.least n next).2 t change).trans reached))

theorem state_stable (member : s ∈ sources) (after : now ≤ later)
    (before : ∀ n ∈ nextTransition now sources, later < n) : s.state later = s.state now := by
  by_cases revoked : s.state now = .revoked
  · rw [revoked, Source.state_revoked revoked after]
  · exact Source.state_quiet (quiet_of_nextTransition member after before revoked)

/-- The next transition itself does not change either. -/
theorem nextTransition_stable (after : now ≤ later)
    (before : ∀ n ∈ nextTransition now sources, later < n) :
    nextTransition later sources = nextTransition now sources := by
  refine List.foldl_ext _ _ _ fun next s member => ?_
  unfold Source.transitions
  rw [state_stable member after before]
  by_cases revoked : s.state now = .revoked
  · rw [if_pos revoked, if_pos revoked]
  · rw [if_neg revoked, if_neg revoked]
    have quiet := quiet_of_nextTransition member after before revoked
    refine List.foldl_ext _ _ _ fun next u listed => ?_
    cases u with
    | none => rfl
    | some t =>
      have changes : t ∈ s.instants := by
        simpa [Source.instants, eq_comm] using listed
      simp only [transition, ← not_le, quiet t changes]

end Stability

/-- An evaluation before the next transition of an earlier one returns its result. -/
theorem resolve_stable {tenant : String} {revision : Nat} {later : Instant} {catalog : Catalog}
    {sources : List Source} {requested : List String} {result : Result}
    (resolved : resolve tenant revision now catalog sources requested = .ok result)
    (after : now ≤ later) (before : ∀ n ∈ result.validUntil, later < n) (nonzero : later ≠ 0) :
    resolve tenant revision later catalog sources requested =
      .ok { result with evaluatedAt := later } := by
  obtain ⟨present, valid, checked, codes, rfl⟩ := resolve_ok.mp resolved
  refine resolve_ok.mpr ⟨⟨present.1, nonzero⟩, valid, checked, codes, ?_⟩
  have standings : (ordered sources).map (·.standing later) =
      (ordered sources).map (·.standing now) :=
    List.map_congr_left fun s member =>
      congrArg (Standing.mk s) (state_stable member after before)
  rw [nextTransition_stable after before, standings]

section Exactness

variable {sources : List Source} {n : Instant}

/-- The state of some source is another one than it is now. -/
def Differs (now : Instant) (sources : List Source) (later : Instant) : Prop :=
  ∃ s ∈ sources, s.state later ≠ s.state now

variable (starts : ∀ s ∈ sources, ∀ expires ∈ s.expiresAt, s.effectiveAt < expires)

include starts

/-- At the next transition a source has another state: one that was scheduled has started,
one that was active has expired, or one is revoked. -/
theorem differs_of_nextTransition (known : nextTransition now sources = some n) :
    now < n ∧ Differs now sources n := by
  obtain ⟨⟨s, listed, unrevoked, changes, ahead⟩, first⟩ :=
    (nextTransition_earliest now sources).least n known
  refine ⟨ahead, s, listed, ?_⟩
  have pending : ¬∃ revoked ∈ s.revokedAt, revoked ≤ now := by
    intro reached
    exact unrevoked (if_pos reached)
  simp only [Source.instants, List.mem_cons, List.mem_append, Option.mem_toList] at changes
  rcases changes with rfl | expires | revoked
  · have scheduled : s.state now = .scheduled := by
      rw [Source.state, if_neg pending, if_pos ahead]
    rw [scheduled, Source.state, if_neg (lt_irrefl s.effectiveAt)]
    split
    · decide
    · split <;> decide
  · -- A start between now and the expiry would have been the next transition.
    have started : ¬now < s.effectiveAt := by
      intro later
      have bound := first s.effectiveAt ⟨s, listed, unrevoked, List.mem_cons_self, later⟩
      exact absurd (starts s listed n expires) (not_lt.mpr bound)
    have active : s.state now = .active := by
      rw [Source.state, if_neg pending, if_neg started, if_neg]
      rintro ⟨_, same, reached⟩
      rw [Option.mem_def.mp expires] at same
      exact absurd ahead (not_lt.mpr (Option.some.inj same ▸ reached))
    have ended : ∃ expires ∈ s.expiresAt, expires ≤ n := ⟨n, expires, le_rfl⟩
    rw [active, Source.state, if_pos ended]
    split
    · decide
    · split <;> decide
  · have ended : s.state n = .revoked := if_pos ⟨n, revoked, le_rfl⟩
    rw [ended]
    exact unrevoked.symm

theorem nextTransition_least :
    nextTransition now sources = some n ↔ IsLeast {t | now < t ∧ Differs now sources t} n := by
  have first : ∀ n, nextTransition now sources = some n →
      IsLeast {t | now < t ∧ Differs now sources t} n := by
    intro n known
    refine ⟨differs_of_nextTransition starts known, fun t ⟨ahead, s, listed, differs⟩ => ?_⟩
    by_contra early
    refine differs (state_stable listed (le_of_lt ahead) fun m found => ?_)
    rw [known] at found
    exact Option.some.inj found ▸ not_le.mp early
  refine ⟨first n, fun least => ?_⟩
  cases known : nextTransition now sources with
  | some m => rw [(first m known).unique least]
  | none =>
    obtain ⟨⟨ahead, s, listed, differs⟩, -⟩ := least
    exact absurd (state_stable listed (le_of_lt ahead) (by simp [known])) differs

end Exactness

/-- The next transition of a result is the earliest later instant at which the state of a
source differs, and until then an evaluation at any instant but the zero one, which the
resolver takes for a missing one, gives the same decisions. -/
theorem resolve_until_transition {tenant : String} {revision : Nat} {catalog : Catalog}
    {sources : List Source} {requested : List String} {result : Result}
    (resolved : resolve tenant revision now catalog sources requested = .ok result) :
    (∀ n, result.nextTransitionAt = some n ↔
        IsLeast {t | now < t ∧ Differs now sources t} n) ∧
      (result.nextTransitionAt = none ↔ ∀ t, now < t → ¬Differs now sources t) ∧
      ∀ later, now ≤ later → (∀ n ∈ result.nextTransitionAt, later < n) → later ≠ 0 →
        ∃ again, resolve tenant revision later catalog sources requested = .ok again ∧
          again.decisions = result.decisions ∧
          again.catalogVersions = result.catalogVersions ∧
          again.nextTransitionAt = result.nextTransitionAt ∧
          again.validUntil = result.validUntil := by
  have stable := fun (later : Instant) (after : now ≤ later) => resolve_stable resolved after
  obtain ⟨-, -, checked, -, rfl⟩ := resolve_ok.mp resolved
  have starts : ∀ s ∈ ordered sources, ∀ expires ∈ s.expiresAt, s.effectiveAt < expires :=
    fun s listed => Source.starts_of_validateShape
      (Source.shape_of_validate ((checkSources_ok.mp checked).1.valid s listed))
  have same : ∀ t, Differs now (ordered sources) t ↔ Differs now sources t := by
    simp [Differs]
  refine ⟨fun n => ?_, ?_, fun later after before nonzero => ?_⟩
  · have least : nextTransition now (ordered sources) = some n ↔ _ := nextTransition_least starts
    simpa only [same] using least
  · constructor
    · intro (none : nextTransition now (ordered sources) = none) t ahead differs
      obtain ⟨s, listed, differs⟩ := (same t).mpr differs
      exact differs (state_stable listed (le_of_lt ahead) (by simp [none]))
    · intro quiet
      by_contra known
      obtain ⟨n, known⟩ := Option.ne_none_iff_exists'.mp known
      obtain ⟨ahead, differs⟩ := differs_of_nextTransition starts known
      exact quiet n ahead ((same n).mp differs)
  · exact ⟨_, stable later after before nonzero, rfl, rfl, rfl, rfl⟩

section Sample

/-- Two modules, the second of which depends on the first. -/
def chain : Catalog :=
  [{ code := "base", technicalStatus := .ready, salesStatus := .sellable, version := 1,
     capabilities := ["base.use"], quotaKeys := ["base.seats"], fieldKeys := [],
     dependencies := [] },
   { code := "extra", technicalStatus := .ready, salesStatus := .sellable, version := 1,
     capabilities := ["extra.use"], quotaKeys := ["extra.seats"], fieldKeys := ["extra.note"],
     dependencies := ["base"] }]

/-- The first of January 2026. -/
def chainStart : Instant := 739616 * Calendar.day

/-- An override that starts then and has no end. -/
def chainSource (id moduleCode : String) (kind : Kind) (key : String) (action : Action)
    (effect : Effect) (limit : Limit) : Source :=
  { id, tenantId := "tenant", sourceKind := .override, moduleCode, kind, key, action, effect, limit,
    effectiveAt := chainStart, expiresAt := none, revokedAt := none, reason := "sample",
    actorId := "operator", version := 1 }

def chainGrant (id moduleCode : String) : Source :=
  chainSource id moduleCode .module moduleCode .none .grant {}

/-- A grant of the first module for one day. -/
def chainTrial : Source :=
  { chainGrant "a" "base" with expiresAt := some (chainStart + Calendar.day) }

theorem resolve_until_transition_sample : ∃ result,
    resolve "tenant" 1 (chainStart + hour) chain [chainTrial] [] = .ok result ∧
      IsLeast {t | chainStart + hour < t ∧ Differs (chainStart + hour) [chainTrial] t}
        (chainStart + Calendar.day) := by
  have evaluated : (resolve "tenant" 1 (chainStart + hour) chain [chainTrial] []).toOption.any
      (fun result => result.nextTransitionAt = some (chainStart + Calendar.day)) = true := by
    decide +kernel
  obtain ⟨result, resolved, next⟩ := ok_of_any evaluated
  exact ⟨result, resolved,
    ((resolve_until_transition resolved).1 _).mp (of_decide_eq_true next)⟩

/-- A result of the last nanosecond before the zero instant has no next transition, and yet
there is none at the zero instant. -/
theorem zero_instant_unresolved : ∃ result, resolve "tenant" 1 (-1) [] [] [] = .ok result ∧
    result.nextTransitionAt = none ∧ resolve "tenant" 1 0 [] [] [] = .error .invalid :=
  ⟨_, rfl, rfl, rfl⟩

end Sample

end Biz.Entitlement
