import Biz.Entitlement.Resolve
import Biz.Library.Window

/-!
# Appending a source

`ValidateAppend` of `domain/entitlement/model.go`. An override that replaces a quota sets
its total, so two of them for one quota must never be active together. The check compares
the whole scheduled interval of the new source with those of the stored ones: a source is
active exactly inside a half-open window, which ends at the earlier of its expiry and its
revocation, and the comparison decides whether two windows share an instant.

A map of sources is exclusive if it has no two such overrides. Every write that keeps the
new value apart from the others keeps a map exclusive, and the resolver reports no
conflict on account of the overrides of an exclusive map.
-/

namespace Biz.Entitlement

open Time Checks

/-- The errors of an append; those of the checks of the source are passed on. -/
inductive AppendErr
  | quotaConflict
  | entitlement (error : Err)
  deriving DecidableEq

/-- The earlier of the expiry and the revocation. -/
def Source.stop (s : Source) : Option Instant :=
  match s.revokedAt, s.expiresAt with
  | none, expires => expires
  | some revoked, none => some revoked
  | some revoked, some expires => if revoked < expires then some revoked else some expires

/-- Both sources are overrides that replace one quota. -/
def Source.competes (s incoming : Source) : Bool :=
  s.kind = .quota && incoming.kind = .quota && s.key = incoming.key &&
    s.moduleCode = incoming.moduleCode && s.sourceKind = .override &&
    incoming.sourceKind = .override && s.effect = .quotaReplace && incoming.effect = .quotaReplace

/-- The body of the loop over the stored sources. -/
def checkExisting (incoming s : Source) : Except AppendErr Unit := do
  require (.entitlement .invalid) (s.id ≠ incoming.id)
  require (.entitlement .scope) (s.tenantId = incoming.tenantId)
  if !s.competes incoming then .ok ()
  else if ∃ stop ∈ s.stop, stop ≤ s.effectiveAt then .ok ()
  else
    require .quotaConflict (¬((∀ stop ∈ s.stop, incoming.effectiveAt < stop) ∧
      ∀ expires ∈ incoming.expiresAt, s.effectiveAt < expires))

def validateAppend (existing : List Source) (incoming : Source) (c : Catalog) :
    Except AppendErr Unit := do
  (incoming.validate c).mapError .entitlement
  existing.forM (checkExisting incoming)

/-- The instants at which a source is active. -/
def Source.window (s : Source) : Window Instant := ⟨s.effectiveAt, s.stop⟩

section Windows

variable {s incoming : Source} {now : Instant}

theorem lt_stop_iff :
    (∀ stop ∈ s.stop, now < stop) ↔
      (∀ revoked ∈ s.revokedAt, now < revoked) ∧ ∀ expires ∈ s.expiresAt, now < expires := by
  unfold Source.stop
  split
  · rename_i none
    simp [none]
  · rename_i some none
    simp [some, none]
  · rename_i revoked expires some some'
    rw [some, some']
    split
    · rename_i earlier
      simpa using fun later => lt_trans later earlier
    · rename_i later
      simpa using fun earlier => lt_of_lt_of_le earlier (not_lt.mp later)

theorem active_iff_window : s.active now = true ↔ s.window.Has now := by
  rw [Source.active, decide_eq_true_iff, Source.state, Window.Has, Source.window, lt_stop_iff]
  constructor
  · intro active
    split at active
    · cases active
    · rename_i unrevoked
      split at active
      · cases active
      · rename_i started
        split at active
        · cases active
        · rename_i unexpired
          exact ⟨not_lt.mp started,
            fun revoked known => not_le.mp fun past => unrevoked ⟨revoked, known, past⟩,
            fun expires known => not_le.mp fun past => unexpired ⟨expires, known, past⟩⟩
  · rintro ⟨started, unrevoked, unexpired⟩
    rw [if_neg fun ⟨revoked, known, past⟩ => (unrevoked revoked known).not_ge past,
      if_neg started.not_gt,
      if_neg fun ⟨expires, known, past⟩ => (unexpired expires known).not_ge past]

theorem competes_iff :
    s.competes incoming = true ↔ s.kind = .quota ∧ incoming.kind = .quota ∧ s.key = incoming.key ∧
      s.moduleCode = incoming.moduleCode ∧ s.sourceKind = .override ∧
      incoming.sourceKind = .override ∧ s.effect = .quotaReplace ∧
      incoming.effect = .quotaReplace := by
  simp [Source.competes, and_assoc]

theorem Source.competes_symm (competes : s.competes incoming = true) :
    incoming.competes s = true := by
  rw [competes_iff] at competes ⊢
  obtain ⟨kind, kind', key, module, source, source', effect, effect'⟩ := competes
  exact ⟨kind', kind, key.symm, module.symm, source', source, effect', effect⟩

end Windows

section Checks

variable {s incoming : Source} {existing : List Source} {c : Catalog}

/-- A stored source that an append has passed is never active together with the new one
if they compete. -/
theorem apart_of_checkExisting (passed : checkExisting incoming s = .ok ())
    (competes : s.competes incoming = true) {now : Instant} (active : s.active now = true) :
    incoming.active now = false := by
  refine Bool.eq_false_iff.mpr fun also => ?_
  have inside := active_iff_window.mp active
  have insideToo := active_iff_window.mp also
  simp only [checkExisting, bind_ok, require_ok, competes, Bool.not_true, Bool.false_eq_true,
    if_false] at passed
  obtain ⟨-, -, -, -, passed⟩ := passed
  split at passed
  · rename_i empty
    obtain ⟨stop, ends, before⟩ := empty
    exact (inside.inhabited stop ends).not_ge before
  · rw [require_ok] at passed
    refine passed ⟨insideToo.meets inside, fun expires known => ?_⟩
    exact inside.1.trans_lt ((lt_stop_iff.mp insideToo.2).2 expires known)

/-- What a conflict says: the new source and a stored one would both be active at some
instant. -/
theorem common_of_checkExisting (failed : checkExisting incoming s = .error .quotaConflict)
    (valid : ∀ expires ∈ incoming.expiresAt, incoming.effectiveAt < expires)
    (unrevoked : incoming.revokedAt = none) :
    s.competes incoming = true ∧ ∃ now, s.active now = true ∧ incoming.active now = true := by
  have stop : incoming.stop = incoming.expiresAt := by rw [Source.stop, unrevoked]
  simp only [checkExisting, bind_error, require_error, reduceCtorEq, and_false, false_or] at failed
  obtain ⟨-, -, -, -, failed⟩ := failed
  split at failed
  · cases failed
  · rename_i competes
    refine ⟨by simpa using competes, ?_⟩
    split at failed
    · cases failed
    · rename_i nonempty
      obtain ⟨conflict, -⟩ := require_error.mp failed
      obtain ⟨before, _⟩ := Decidable.not_not.mp conflict
      have common : ∃ now, s.window.Has now ∧ incoming.window.Has now := by
        rw [Window.exists_common_iff]
        refine ⟨fun stop ends => ?_, ?_, ?_, before⟩
        · exact not_le.mp fun past => nonempty ⟨stop, ends, past⟩
        · rwa [Window.Inhabited, Source.window, stop]
        · rwa [Window.Meets, Source.window, Source.window, stop]
      simpa only [active_iff_window] using common

theorem validateAppend_ok :
    validateAppend existing incoming c = .ok () ↔
      incoming.validate c = .ok () ∧ ∀ s ∈ existing, checkExisting incoming s = .ok () := by
  simp only [validateAppend, bind_ok, mapError_ok]
  rw [← forM_ok]
  constructor
  · rintro ⟨_, valid, passed⟩
    exact ⟨valid, passed⟩
  · rintro ⟨valid, passed⟩
    exact ⟨_, valid, passed⟩

theorem validateAppend_conflict
    (failed : validateAppend existing incoming c = .error .quotaConflict) :
    incoming.validate c = .ok () ∧ ∃ s ∈ existing,
      checkExisting incoming s = .error .quotaConflict := by
  rw [validateAppend, bind_error] at failed
  rcases failed with invalid | ⟨_, valid, conflict⟩
  · cases validated : incoming.validate c <;> rw [validated] at invalid <;> cases invalid
  · exact ⟨mapError_ok.mp valid, exists_of_forM_error conflict⟩

end Checks

variable {s : Source}

/-- A source with a valid shape starts before it expires. -/
theorem Source.starts_of_validateShape (valid : s.validateShape = .ok ()) :
    ∀ expires ∈ s.expiresAt, s.effectiveAt < expires := by
  simp only [Source.validateShape, bind_ok, require_ok] at valid
  obtain ⟨-, -, -, -, -, -, -, expiry, -⟩ := valid
  exact fun expires known => (expiry expires known).1

theorem Source.shape_of_validate {c : Catalog} (valid : s.validate c = .ok ()) :
    s.validateShape = .ok () := by
  simp only [Source.validate, bind_ok] at valid
  obtain ⟨_, shape, -⟩ := valid
  exact shape

/-- A conflict that an append reports is a real one: a source that is not revoked yet and
a stored one that competes with it would both be active at some instant. -/
theorem common_of_validateAppend {existing : List Source} {incoming : Source} {c : Catalog}
    (failed : validateAppend existing incoming c = .error .quotaConflict)
    (unrevoked : incoming.revokedAt = none) :
    ∃ s ∈ existing, s.competes incoming = true ∧
      ∃ now, s.active now = true ∧ incoming.active now = true := by
  obtain ⟨valid, s, member, conflict⟩ := validateAppend_conflict failed
  exact ⟨s, member, common_of_checkExisting conflict
    (Source.starts_of_validateShape (Source.shape_of_validate valid)) unrevoked⟩

/-- No two overrides that replace one quota are active at one instant. -/
def Exclusive (known : String → Option Source) : Prop :=
  ∀ a b s t, known a = some s → known b = some t → s.competes t = true →
    ∀ now, s.active now = true → t.active now = true → a = b

/-- A write of one source keeps a map exclusive if the source is apart from all others. -/
theorem Exclusive.update {known : String → Option Source} (exclusive : Exclusive known)
    {id : String}
    (apart : ∀ other t, other ≠ id → known other = some t → t.competes s = true →
      ∀ now, t.active now = true → s.active now = false) :
    Exclusive (Function.update known id (some s)) := by
  have clash : ∀ other t, other ≠ id → known other = some t → t.competes s = true →
      ∀ now, t.active now = true → s.active now = true → False := by
    intro other t different listed competes now active also
    rw [apart other t different listed competes now active] at also
    cases also
  intro a b t u first second competes now active also
  by_cases here : a = id
  · subst here
    rw [Function.update_self, Option.some.injEq] at first
    subst first
    by_cases there : b = a
    · exact there.symm
    · rw [Function.update_of_ne there] at second
      exact (clash b u there second (Source.competes_symm competes) now also active).elim
  · rw [Function.update_of_ne here] at first
    by_cases there : b = id
    · subst there
      rw [Function.update_self, Option.some.injEq] at second
      subst second
      exact (clash a t here first competes now active also).elim
    · rw [Function.update_of_ne there] at second
      exact exclusive a b t u first second competes now active also

section Conflicts

variable {catalog : Catalog} {standings : List Standing} {requested : List String} {d : Decision}

/-- The reason of a module is none of those of a limit. -/
theorem moduleReason_ne (code : String) :
    moduleReason catalog standings code ≠ .quotaConfigurationConflict := by
  rw [moduleReason, moduleReasonWithin]
  split
  · simp
  · unfold reasonOf
    split_ifs <;> simp

theorem addLimits_conflict {additions : List Source}
    (conflict : (addLimits d additions).reason = .quotaConfigurationConflict) :
    d.reason = .quotaConfigurationConflict := by
  induction additions generalizing d with
  | nil => exact conflict
  | cons s rest ih =>
    unfold addLimits at conflict
    split at conflict
    · exact conflict
    · split at conflict
      · cases conflict
      · have later := ih conflict
        exact later

/-- Several overrides set the quota, or none does and several other sources do. -/
def Contested (standings : List Standing) (m : ModuleDefinition) (key : String) : Prop :=
  1 < (quotaReplacements standings m key).length ∨
    ((quotaReplacements standings m key).length = 0 ∧ 1 < (quotaBase standings m key).length)

theorem limitDecision_conflict {m : ModuleDefinition} {key : String}
    (conflict : (limitDecision standings m key d).reason = .quotaConfigurationConflict)
    (plain : d.reason ≠ .quotaConfigurationConflict) : Contested standings m key := by
  simp only [limitDecision] at conflict
  split at conflict
  · assumption
  · exfalso
    split at conflict
    · exact plain conflict
    · have earlier := addLimits_conflict conflict
      split at earlier <;> exact plain earlier

theorem quotaDecision_conflict {m : ModuleDefinition} {reason : Reason} {key : String}
    (conflict : (quotaDecision catalog standings m reason key).reason = .quotaConfigurationConflict)
    (plain : reason ≠ .quotaConfigurationConflict) : Contested standings m key := by
  have limited : (limitDecision standings m key
      { kind := .quota, moduleCode := m.code, key, allowed := reason = .allowed, reason }).reason =
        .quotaConfigurationConflict := by
    simp only [quotaDecision, explained] at conflict
    split at conflict <;> split at conflict <;> first | exact conflict | cases conflict
  exact limitDecision_conflict limited plain

/-- A conflict is one of a quota, between overrides or between other sources. -/
theorem conflict_of_mem_decisions (member : d ∈ decisions catalog standings requested)
    (conflict : d.reason = .quotaConfigurationConflict) :
    ∃ m key, d.target = (.quota, m.code, key, .none) ∧ Contested standings m key := by
  rcases mem_decisions.mp member with ⟨m, -, inside⟩ | ⟨key, -, rfl⟩
  · have plain : moduleReason catalog standings m.code ≠ .quotaConfigurationConflict :=
      moduleReason_ne m.code
    rcases mem_moduleDecisions.mp inside with
      rfl | ⟨cap, -, rfl⟩ | ⟨key, -, rfl⟩ | ⟨key, -, action, -, rfl⟩
    · exact absurd conflict plain
    · have other : capabilityReason standings m (moduleReason catalog standings m.code) cap ≠
          .quotaConfigurationConflict := by
        simp only [capabilityReason, capDenial]
        split_ifs <;> first | exact plain | nofun
      exact absurd conflict other
    · exact ⟨m, key, quotaDecision_target m _ key, quotaDecision_conflict conflict plain⟩
    · have other : fieldReason standings m (moduleReason catalog standings m.code) key action ≠
          .quotaConfigurationConflict := by
        unfold fieldReason
        split_ifs <;> first | exact plain | nofun
      exact absurd conflict other
  · cases conflict

end Conflicts

section Replacements

variable {sources : List Source} {now : Instant} {m : ModuleDefinition} {key : String}

theorem quotaSources_standing :
    quotaSources (sources.map (·.standing now)) m key = sources.filter fun s =>
      s.kind = .quota && s.moduleCode = m.code && s.key = key && s.state now = .active := by
  simp [quotaSources, List.filter_map, Function.comp_def, Source.standing]

theorem mem_quotaReplacements : s ∈ quotaReplacements (sources.map (·.standing now)) m key ↔
      s ∈ sources ∧ s.kind = .quota ∧ s.moduleCode = m.code ∧ s.key = key ∧ s.active now = true ∧
        s.effect ≠ .quotaAdd ∧ s.sourceKind = .override := by
  rw [quotaReplacements, List.mem_filter, quotaSources_standing, List.mem_filter]
  simp [Source.active, and_assoc]

theorem mem_quotaBase : s ∈ quotaBase (sources.map (·.standing now)) m key ↔
      s ∈ sources ∧ s.kind = .quota ∧ s.moduleCode = m.code ∧ s.key = key ∧ s.active now = true ∧
        s.effect ≠ .quotaAdd ∧ s.sourceKind ≠ .override := by
  rw [quotaBase, List.mem_filter, quotaSources_standing, List.mem_filter]
  simp [Source.active, and_assoc]

/-- A quota source of a valid shape adds or replaces. -/
theorem Source.replaces_of_validateShape (valid : s.validateShape = .ok ())
    (quota : s.kind = .quota) (other : s.effect ≠ .quotaAdd) : s.effect = .quotaReplace := by
  simp only [Source.validateShape, bind_ok, require_ok, quota] at valid
  obtain ⟨-, -, -, -, -, -, -, -, -, -, -, -, -, effect, -⟩ := valid
  exact effect.resolve_left other

variable (distinct : (sources.map (·.id)).Nodup)
  (exclusive : ∀ s ∈ sources, ∀ t ∈ sources, s.competes t = true → s.active now = true →
    t.active now = true → s.id = t.id)

include distinct exclusive

/-- Among sources of which no two competitors are active, a quota has at most one
replacement. -/
theorem length_quotaReplacements_le (shaped : ∀ s ∈ sources, s.validateShape = .ok ()) :
    (quotaReplacements (sources.map (·.standing now)) m key).length ≤ 1 := by
  have replaces : ∀ s ∈ quotaReplacements (sources.map (·.standing now)) m key,
      s.effect = .quotaReplace := by
    intro s member
    obtain ⟨listed, quota, -, -, -, other, -⟩ := mem_quotaReplacements.mp member
    exact Source.replaces_of_validateShape (shaped s listed) quota other
  have same : ∀ s ∈ quotaReplacements (sources.map (·.standing now)) m key,
      ∀ t ∈ quotaReplacements (sources.map (·.standing now)) m key, s.id = t.id := by
    intro s member t member'
    have effect := replaces s member
    have effect' := replaces t member'
    obtain ⟨listed, quota, module, named, active, -, kind⟩ := mem_quotaReplacements.mp member
    obtain ⟨listed', quota', module', named', active', -, kind'⟩ := mem_quotaReplacements.mp member'
    refine exclusive s listed t listed' (competes_iff.mpr ?_) active active'
    exact ⟨quota, quota', named.trans named'.symm, module.trans module'.symm, kind, kind', effect,
      effect'⟩
  have nodup : ((quotaReplacements (sources.map (·.standing now)) m key).map (·.id)).Nodup := by
    rw [quotaReplacements, quotaSources_standing]
    exact distinct.sublist ((List.filter_sublist.trans List.filter_sublist).map _)
  cases replacements : quotaReplacements (sources.map (·.standing now)) m key with
  | nil => exact Nat.zero_le 1
  | cons s rest =>
    rw [replacements] at same nodup
    rcases Keyed.eq_nil_or_singleton nodup fun t member => same t member s List.mem_cons_self with
      none | ⟨t, one⟩
    · cases none
    · rw [one]
      exact le_rfl

/-- A source replaces the total of a quota at an instant. -/
def Source.Sets (s : Source) (moduleCode key : String) (now : Instant) : Prop :=
  s.kind = .quota ∧ s.moduleCode = moduleCode ∧ s.key = key ∧ s.effect = .quotaReplace ∧
    s.active now = true

/-- What a conflict that the resolver reports says if the sources are exclusive: two
sources replace the quota, and no override does. -/
theorem conflict_of_exclusive {tenant : String} {revision : Nat} {catalog : Catalog}
    {requested : List String} {result : Result} {d : Decision}
    (resolved : resolve tenant revision now catalog sources requested = .ok result)
    (member : d ∈ result.decisions) (conflict : d.reason = .quotaConfigurationConflict) :
    (∀ s ∈ sources, s.Sets d.moduleCode d.key now → s.sourceKind ≠ .override) ∧
      ∃ s ∈ sources, ∃ t ∈ sources, s.id ≠ t.id ∧ s.Sets d.moduleCode d.key now ∧
        t.Sets d.moduleCode d.key now := by
  obtain ⟨-, -, checked, -, rfl⟩ := resolve_ok.mp resolved
  have shaped : ∀ s ∈ ordered sources, s.validateShape = .ok () := fun s listed =>
    Source.shape_of_validate ((checkSources_ok.mp checked).1.valid s listed)
  have nodup : ((ordered sources).map (·.id)).Nodup :=
    ((List.perm_insertionSort sourceOrder sources).map _).nodup_iff.mpr distinct
  obtain ⟨m, key, target, cause⟩ := conflict_of_mem_decisions member conflict
  simp only [Decision.target, Prod.mk.injEq] at target
  obtain ⟨-, module, named, -⟩ := target
  have few : (quotaReplacements ((ordered sources).map (·.standing now)) m key).length ≤ 1 :=
    length_quotaReplacements_le nodup (fun s listed t listed' =>
      exclusive s (mem_ordered.mp listed) t (mem_ordered.mp listed')) shaped
  obtain ⟨none, several⟩ := cause.resolve_left few.not_gt
  rw [List.length_eq_zero_iff] at none
  refine ⟨fun s listed ⟨quota, own, same, effect, active⟩ kind => ?_, ?_⟩
  · have inside : s ∈ quotaReplacements ((ordered sources).map (·.standing now)) m key :=
      mem_quotaReplacements.mpr ⟨mem_ordered.mpr listed, quota, own.trans module, same.trans named,
        active, by rw [effect]; nofun, kind⟩
    rw [none] at inside
    cases inside
  · have sets : ∀ s ∈ quotaBase ((ordered sources).map (·.standing now)) m key,
        s ∈ sources ∧ s.Sets d.moduleCode d.key now := by
      intro s inside
      obtain ⟨listed, quota, own, same, active, other, -⟩ := mem_quotaBase.mp inside
      exact ⟨mem_ordered.mp listed, quota, own.trans module.symm, same.trans named.symm,
        Source.replaces_of_validateShape (shaped s listed) quota other, active⟩
    have bases : ((quotaBase ((ordered sources).map (·.standing now)) m key).map (·.id)).Nodup := by
      rw [quotaBase, quotaSources_standing]
      exact nodup.sublist ((List.filter_sublist.trans List.filter_sublist).map _)
    match base : quotaBase ((ordered sources).map (·.standing now)) m key with
    | [] => rw [base] at several; cases several
    | [_] => rw [base] at several; exact absurd several (lt_irrefl 1)
    | s :: t :: rest =>
      rw [base] at sets bases
      obtain ⟨listed, first⟩ := sets s (by simp)
      obtain ⟨listed', second⟩ := sets t (by simp)
      refine ⟨s, listed, t, listed', fun same => ?_, first, second⟩
      simp [same] at bases

end Replacements

end Biz.Entitlement
