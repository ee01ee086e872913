import Biz.Change.History
import Biz.Change.Switch

/-!
# Sources that fit their subscription

In every state of a history the sources of a tenant are those that its subscription
should have, so that a later change can be captured, unless a boundary has moved the end
of a period without its sources. A grace period does so: the subscription gets a new end,
and its sources keep the old one.

The invariant is one of the ledger. The namespaces of all sources of plans are used up:
they are the one of the bootstrap and those of changes that have taken effect. So the
generation of a change meets nothing that is there already.
-/

namespace Biz.Change

open Time Checks Transaction Subscription Runs
open Entitlement (Source)
open Snapshot (Lists)

/-- `ValidateCurrentSources(Normalize(subscription, plan), plan, sources)` of the stored
rows. -/
def checkStored (C : Setting) (store : Store) : Except Err Unit := do
  let b ← found .notFound store.subscription
  let v ← found .notFound (store.plans.find? (b.planCode, b.planVersion))
  let sources ← (Snapshot.decodeSources C.encoding C.tenant
    (store.entitlements.rowsOf C.tenant)).mapError .entitlement
  let before ← normalize b (projected v)
  validateCurrentSources C.digests.source before (projected v) sources

/-- A namespace that sources may have: the one of the bootstrap, or that of a change that
has taken effect. -/
def Used (C : Setting) (receipt : String → Option Receipt) (sourceNamespace : String) : Prop :=
  sourceNamespace = subscriptionId C.digests.source C.tenant ∨
    Named sourceNamespace ∧ ∃ r, receipt sourceNamespace = some r ∧ r.status = .applied

/-- The identity of a source of a plan that is there, or one that no source of a plan
has. -/
def Placed (C : Setting) (receipt : String → Option Receipt) (id : String) (s : Source) : Prop :=
  s.sourceKind = .plan ∧ (∃ sourceNamespace moduleCode kind key action,
      Used C receipt sourceNamespace ∧
      id = sourceId C.digests.source sourceNamespace moduleCode kind key action) ∨
    s.sourceKind ≠ .plan ∧ ∀ sourceNamespace moduleCode kind key action,
      id ≠ sourceId C.digests.source sourceNamespace moduleCode kind key action

/-- What the sources have to be for a subscription and its plan. -/
structure Covers (digest : String → String) (source : String → Option Source)
    (b : BaseSubscription) (v : Plan.Version) : Prop where
  expected : ∀ id x, sourceEntry (expectedSources digest b (projected v)) id = some x →
    ∃ s, source id = some s ∧ s.sourceKind = .plan ∧ Matches b s x ∧ RevokedWithin s
  others : ∀ id s, source id = some s → s.sourceKind = .plan →
    sourceEntry (expectedSources digest b (projected v)) id = none → s.revokedAt ≠ none

structure Fitting (C : Setting) (l : Ledger) (b : BaseSubscription) (v : Plan.Version) : Prop where
  held : l.subscription = some b
  mine : b.tenantId = C.tenant
  plan : l.plan (b.planCode, b.planVersion) = some v
  keyed : v.planCode = b.planCode ∧ v.number = b.planVersion
  sold : v.state ≠ .draft ∧ v.terms.modules ≠ []
  readable : l.readable
  placed : ∀ id s, l.source id = some s → Placed C l.receipt id s
  live : ∀ id s, l.source id = some s → Live s → s.version = 1 ∧ s.effectiveAt ≤ l.time
  covers : Covers C.digests.source l.source b v

section Identities

variable {C : Setting} {before after : String → Option Receipt} {id : String} {s : Source}

theorem Used.onward {sourceNamespace : String} (used : Used C before sourceNamespace)
    (onward : Onward before after) : Used C after sourceNamespace := by
  rcases used with first | ⟨named, r, stored, applied⟩
  · exact .inl first
  · obtain ⟨r', stored', -, -, still⟩ := onward _ r stored
    exact .inr ⟨named, r', stored', still applied⟩

theorem Placed.onward (placed : Placed C before id s) (onward : Onward before after) :
    Placed C after id s := by
  rcases placed with ⟨plan, sourceNamespace, m, k, key, a, used, named⟩ | foreign
  · exact .inl ⟨plan, sourceNamespace, m, k, key, a, used.onward onward, named⟩
  · exact .inr foreign

theorem Placed.congr {w : Source} (placed : Placed C before id s)
    (same : w.sourceKind = s.sourceKind) : Placed C before id w := by
  unfold Placed
  rw [same]
  exact placed

/-- The first character of a text tells a change from the bootstrap. -/
theorem sub_ne_chg (first second rest rest' : String) :
    ("sub-" ++ first) ++ rest ≠ ("chg-" ++ second) ++ rest' := by
  intro same
  have heads := congrArg (fun text : String => text.toList.head?) same
  simp [String.toList_append] at heads

/-- A change that has not taken effect has a namespace of its own. -/
theorem unplaced {changeId m k key a : String}
    (collisionFree : Function.Injective C.digests.source) (named : Named changeId)
    (unused : ∀ known, before changeId = some known → known.status ≠ .applied)
    (placed : Placed C before (sourceId C.digests.source changeId m k key a) s) : False := by
  rcases placed with ⟨-, _, m', k', _, a', used, same⟩ | ⟨-, foreign⟩
  · have free : ∀ text, Text.key text = true → Separator.Free nul text :=
      fun text valid => Text.notMem_of_key valid (by decide)
    rcases used with first | ⟨other, r, stored, applied⟩
    · obtain ⟨_, rfl⟩ := named.2
      rw [first, eq_comm, sourceId_eq_iff collisionFree] at same
      exact sub_ne_chg _ _ _ _ same
    · obtain rfl := namespace_of_sourceId collisionFree (free _ named.1) (free _ other.1) same
      exact unused r stored applied
  · exact foreign _ _ _ _ _ rfl

end Identities

section Moves

variable {C : Setting} {l l' : Ledger} {b after : BaseSubscription} {v : Plan.Version}
  {source : String → Option Source} {digest : String → String}

/-- The fields of a subscription that its sources depend on. -/
def SameTerms (b after : BaseSubscription) : Prop :=
  after.tenantId = b.tenantId ∧ after.sourceNamespace = b.sourceNamespace ∧
    after.periodStart = b.periodStart ∧ after.periodEnd = b.periodEnd ∧
    after.planCode = b.planCode ∧ after.planVersion = b.planVersion

theorem SameTerms.expected (same : SameTerms b after) (p : Plan.Version) :
    expectedSources digest after p = expectedSources digest b p := by
  obtain ⟨tenant, sourceNamespace, start, ends, -⟩ := same
  rw [expectedSources, expectedSources, tenant, sourceNamespace, start, ends]

theorem SameTerms.matches {s x : Source} (same : SameTerms b after) (fits : Matches b s x) :
    Matches after s x := by
  obtain ⟨tenant, -, start, ends, -⟩ := same
  unfold Matches
  rw [tenant, start, ends]
  exact fits

theorem Covers.congr (covers : Covers digest source b v) (same : SameTerms b after) :
    Covers digest source after v := by
  constructor
  · intro id x entry
    rw [same.expected] at entry
    obtain ⟨s, present, plan, fits, within⟩ := covers.expected id x entry
    exact ⟨s, present, plan, same.matches fits, within⟩
  · intro id s present plan entry
    rw [same.expected] at entry
    exact covers.others id s present plan entry

/-- A fence ends sources within their period. -/
theorem Covers.fenced {source' : String → Option Source} {p : Prop} [Decidable p]
    {time due : Instant} (covers : Covers digest source b v)
    (live : ∀ id s, source id = some s → Live s → s.version = 1 ∧ s.effectiveAt ≤ time)
    (ahead : time ≤ due) (fence : ∀ id, source' id = (source id).map fun s =>
      if p ∧ fenced due s then fencedFrom due s else s) : Covers digest source' b v := by
  constructor
  · intro id x entry
    obtain ⟨s, present, plan, fits, within⟩ := covers.expected id x entry
    have after : source' id = some (if p ∧ Change.fenced due s then fencedFrom due s else s) := by
      rw [fence, present]
      rfl
    refine ⟨_, after, ?_⟩
    split
    · rename_i chosen
      obtain ⟨-, living, outlives⟩ := chosen
      obtain ⟨version, begun⟩ := live id s present living
      obtain ⟨tenant, code, kind, key, action, effect, limit, start, ends, -⟩ := fits
      refine ⟨plan, ⟨tenant, code, kind, key, action, effect, limit, start, ends, ?_⟩, ?_⟩
      · change Provisioning.increment64 s.version ≠ 0
        rw [version]
        decide
      · rintro _ ⟨⟩
        exact ⟨begun.trans ahead, fun expires known => (outlives expires known).le⟩
    · exact ⟨plan, fits, within⟩
  · intro id s' present plan entry
    rw [fence] at present
    obtain ⟨s, old, rfl⟩ := Option.map_eq_some_iff.mp present
    split
    · exact Option.some_ne_none due
    · rename_i spared
      rw [if_neg spared] at plan
      exact covers.others id s old plan entry

theorem Fitting.fenced {p : Prop} [Decidable p] {due : Instant} (fitting : Fitting C l b v)
    (saves : Saves l l' b after) (same : SameTerms b after) (readable : l.readable → l'.readable)
    (ahead : l.time ≤ due)
    (fence : ∀ id, l'.source id = (l.source id).map fun s =>
      if p ∧ fenced due s then fencedFrom due s else s) : Fitting C l' after v where
  held := saves.saved
  mine := same.1.trans fitting.mine
  plan := by
    rw [saves.plans, same.2.2.2.2.1, same.2.2.2.2.2]
    exact fitting.plan
  keyed := by
    rw [same.2.2.2.2.1, same.2.2.2.2.2]
    exact fitting.keyed
  sold := fitting.sold
  readable := readable fitting.readable
  placed id s' present := by
    rw [fence] at present
    obtain ⟨s, old, rfl⟩ := Option.map_eq_some_iff.mp present
    refine ((fitting.placed id s old).congr ?_).onward saves.receipts
    split <;> rfl
  live id s' present living := by
    rw [fence] at present
    obtain ⟨s, old, rfl⟩ := Option.map_eq_some_iff.mp present
    split at living
    · exact absurd living.2 (Option.some_ne_none due)
    · rename_i spared
      rw [if_neg spared]
      obtain ⟨version, begun⟩ := fitting.live id s old living
      exact ⟨version, begun.trans saves.later⟩
  covers := (fitting.covers.fenced fitting.live ahead fence).congr same

/-- A move that saves a subscription and leaves its sources and their terms alone. -/
theorem Fitting.saved (fitting : Fitting C l b v) (saves : Saves l l' b after)
    (same : SameTerms b after) (sources : l'.source = l.source)
    (readable : l.readable → l'.readable) : Fitting C l' after v := by
  refine fitting.fenced (p := False) saves same readable (le_refl _) fun id => ?_
  simp [sources]

/-- The version that a change gives a subscription. -/
theorem Fitting.usable {target : Plan.Version} (fitting : Fitting C l b v)
    (usable : Usable l b target) :
    ∃ w, l.plan (target.planCode, target.number) = some w ∧ target = projected w ∧
      w.state ≠ .draft ∧ w.terms.modules ≠ [] := by
  rcases usable with ⟨w, found, published, modules, rfl⟩ | ⟨w, found, rfl⟩
  · exact ⟨w, found, rfl, by rw [published]; decide, modules⟩
  · obtain rfl : v = w := Option.some.inj (fitting.plan.symm.trans found)
    refine ⟨v, ?_, rfl, fitting.sold⟩
    change l.plan (v.planCode, v.number) = some v
    rw [fitting.keyed.1, fitting.keyed.2]
    exact found

/-- A new source is as it should be. -/
theorem matches_of_generation {x : Source} {p : Plan.Version}
    (listed : x ∈ expectedSources digest b p) :
    x.sourceKind = .plan ∧ Matches b x x ∧ RevokedWithin x := by
  obtain ⟨owner, plan, start, ends, unrevoked, version, -⟩ := mem_generation listed
  refine ⟨plan, ⟨owner, rfl, rfl, rfl, rfl, rfl, rfl, start, ends, ?_⟩, ?_⟩
  · rw [version]
    decide
  · rw [RevokedWithin, unrevoked]
    simp

/-- What a change leaves that takes effect. -/
theorem covers_replaced {changeId tenant : String} {w : Plan.Version}
    (mine : after.tenantId = tenant) (named : after.sourceNamespace = changeId)
    (fresh : ∀ x ∈ generation digest tenant changeId after.periodStart after.periodEnd
      (projected w).terms, source x.id = none) :
    Covers digest (replaced after.periodStart (generation digest tenant changeId after.periodStart
      after.periodEnd (projected w).terms) source) after w := by
  have expected : expectedSources digest after (projected w) =
      generation digest tenant changeId after.periodStart after.periodEnd (projected w).terms := by
    rw [expectedSources, mine, named]
  constructor
  · intro id x entry
    obtain ⟨listed, same⟩ := sourceEntry_eq_some entry
    refine ⟨x, ?_, matches_of_generation listed⟩
    rw [expected] at listed entry
    rw [replaced, ← same, fresh x listed, same, entry]
    rfl
  · intro id s present plan entry
    rw [expected] at entry
    rw [replaced, entry, Option.or_none] at present
    obtain ⟨_, -, rfl⟩ := Option.map_eq_some_iff.mp present
    rw [retired_sourceKind] at plan
    exact retired_revoked plan

theorem Fitting.taken {target : Plan.Version} {r : Receipt}
    (collisionFree : Function.Injective C.digests.source) (fitting : Fitting C l b v)
    (saves : Saves l l' b after)
    (shape : after.tenantId = b.tenantId ∧ after.planCode = target.planCode ∧
      after.planVersion = target.number ∧ after.sourceNamespace = r.changeId)
    (usable : Usable l b target) (named : Named r.changeId)
    (unused : ∀ known, l.receipt r.changeId = some known → known.status ≠ .applied)
    (receipts : l'.receipt = Function.update l.receipt r.changeId (some r))
    (applied : r.status = .applied) (begun : after.periodStart ≤ l'.time)
    (sources : l'.source = replaced after.periodStart (generation C.digests.source C.tenant
      r.changeId after.periodStart after.periodEnd target.terms) l.source)
    (readable : l'.readable) : ∃ w, Fitting C l' after w := by
  obtain ⟨w, found, rfl, sold⟩ := fitting.usable usable
  obtain ⟨tenant, code, number, sourceNamespace⟩ := shape
  have mine : after.tenantId = C.tenant := tenant.trans fitting.mine
  have fresh : ∀ x ∈ generation C.digests.source C.tenant r.changeId after.periodStart
      after.periodEnd (projected w).terms, l.source x.id = none := by
    intro x listed
    obtain ⟨-, -, -, -, -, -, m, k, key, a, identity⟩ := mem_generation listed
    cases present : l.source x.id with
    | none => rfl
    | some s =>
      have placed := fitting.placed _ s present
      rw [identity] at placed
      exact (unplaced collisionFree named unused placed).elim
  refine ⟨w, ?_⟩
  constructor
  case held => exact saves.saved
  case mine => exact mine
  case plan =>
    rw [saves.plans, code, number]
    exact found
  case keyed => exact ⟨code.symm, number.symm⟩
  case sold => exact sold
  case readable => exact readable
  case placed =>
    intro id s present
    rw [sources, replaced] at present
    cases old : l.source id with
    | some s' =>
      rw [old, Option.map_some, Option.some_or, Option.some.injEq] at present
      refine ((fitting.placed id s' old).congr ?_).onward saves.receipts
      rw [← present]
      exact retired_sourceKind _ _
    | none =>
      rw [old, Option.map_none, Option.none_or] at present
      obtain ⟨listed, rfl⟩ := sourceEntry_eq_some present
      obtain ⟨-, plan, -, -, -, -, m, k, key, a, identity⟩ := mem_generation listed
      refine .inl ⟨plan, r.changeId, m, k, key, a, .inr ⟨named, r, ?_, applied⟩, identity⟩
      rw [receipts, Function.update_self]
  case live =>
    intro id s present living
    rw [sources, replaced] at present
    cases old : l.source id with
    | some s' =>
      rw [old, Option.map_some, Option.some_or, Option.some.injEq] at present
      rw [← present, Live, retired_sourceKind] at living
      exact absurd living.2 (retired_revoked living.1)
    | none =>
      rw [old, Option.map_none, Option.none_or] at present
      obtain ⟨-, -, start, -, -, version, -⟩ := mem_generation (sourceEntry_eq_some present).1
      rw [start]
      exact ⟨version, begun⟩
  case covers =>
    rw [sources]
    exact covers_replaced mine sourceNamespace fresh

/-- Moves keep the sources in step, unless a boundary moves the end of the period. -/
theorem Move.fitting {grace orphan : Prop} (collisionFree : Function.Injective C.digests.source)
    (move : Move C grace orphan l l') (punctual : Punctual l) (steady : ¬grace)
    (fitting : Fitting C l b v) : ∃ b' v', Fitting C l' b' v' := by
  have held : ∀ raw, l.subscription = some raw → raw = b := fun raw present =>
    Option.some.inj (present.symm.trans fitting.held)
  cases move with
  | idle later same watched =>
    refine ⟨b, v, ?_⟩
    rw [same]
    exact { fitting with
      live := fun id s present living =>
        ⟨(fitting.live id s present living).1, (fitting.live id s present living).2.trans later⟩ }
  | elapse later same previews kept =>
    obtain ⟨v', found, sold, code, number, terms⟩ := kept _ v fitting.plan fitting.sold.1
    refine ⟨b, v', ?_⟩
    have expected : expectedSources C.digests.source b (projected v') =
        expectedSources C.digests.source b (projected v) := by
      rw [expectedSources, expectedSources, projected, projected]
      simp only [Plan.Projection.canonical, terms]
    rw [same]
    exact { fitting with
      plan := found
      keyed := ⟨code.trans fitting.keyed.1, number.trans fitting.keyed.2⟩
      sold := ⟨sold, by rw [terms]; exact fitting.sold.2⟩
      live := fun id s present living =>
        ⟨(fitting.live id s present living).1, (fitting.live id s present living).2.trans later⟩
      covers := ⟨by rw [expected]; exact fitting.covers.expected,
        by rw [expected]; exact fitting.covers.others⟩ }
  | hold raw after r saves _ shape _ _ _ _ readable sources =>
    obtain rfl := held raw saves.held
    obtain ⟨_, ahead, fence⟩ := sources
    refine ⟨after, v, fitting.fenced saves ?_ readable ahead fence⟩
    rw [shape]
    exact ⟨rfl, rfl, rfl, rfl, rfl, rfl⟩
  | stop raw after saves _ shape sources readable =>
    obtain rfl := held raw saves.held
    refine ⟨after, v, fitting.saved saves ?_ sources readable⟩
    rw [shape]
    exact ⟨rfl, rfl, rfl, rfl, rfl, rfl⟩
  | take raw after target r saves shape usable named unused receipts applied begun sources
      readable =>
    obtain rfl := held raw saves.held
    refine ⟨after, fitting.taken collisionFree saves ?_ usable named unused receipts applied
      (begun punctual) sources readable⟩
    rw [shape]
    exact ⟨rfl, rfl, rfl, rfl⟩
  | release raw after saves shape sources readable =>
    obtain rfl := held raw saves.held
    refine ⟨after, v, fitting.saved saves ?_ sources readable⟩
    rw [shape]
    exact ⟨rfl, rfl, rfl, rfl, rfl, rfl⟩
  | start raw after r known saves _ _ shape _ _ _ _ _ sources readable =>
    obtain rfl := held raw saves.held
    refine ⟨after, v, fitting.saved saves ?_ sources readable⟩
    rw [shape]
    exact ⟨rfl, rfl, rfl, rfl, rfl, rfl⟩
  | bound raw after saves _ shape _ moved sources readable =>
    obtain rfl := held raw saves.held
    refine ⟨after, v, fitting.saved saves ?_ sources readable⟩
    have ends := moved.resolve_left steady
    rw [shape] at ends ⊢
    exact ⟨rfl, rfl, rfl, ends, rfl, rfl⟩

/-- The first sources of a tenant fit its first subscription. -/
theorem Begins.fitting {store : Store} {version : Plan.Version} (fresh : Fresh C store)
    (begins : Begins C (C.ledger store) l' b version) : ∃ v, Fitting C l' b v := by
  obtain ⟨v, found, published, modules, rfl⟩ := begins.sold
  obtain ⟨code, number⟩ := begins.plan
  have expected : ∀ x ∈ expectedSources C.digests.source b (projected v),
      x.tenantId = b.tenantId ∧ x.sourceKind = .plan ∧ x.effectiveAt = b.periodStart ∧
        x.expiresAt = b.periodEnd ∧ x.revokedAt = none ∧ x.version = 1 ∧
        ∃ m k key a, x.id = sourceId C.digests.source b.sourceNamespace m k key a :=
    fun x listed => mem_generation listed
  have others : ∀ id s, l'.source id = some s →
      sourceEntry (expectedSources C.digests.source b (projected v)) id = none →
      s.sourceKind ≠ .plan ∧ ∀ sourceNamespace m k key a,
        id ≠ sourceId C.digests.source sourceNamespace m k key a := by
    intro id s present entry
    rw [begins.sources, overwrite, entry, Option.none_or] at present
    exact fresh.sources id s present
  have new : ∀ id x, sourceEntry (expectedSources C.digests.source b (projected v)) id = some x →
      l'.source id = some x := by
    intro id x entry
    rw [begins.sources, overwrite, entry, Option.some_or]
  refine ⟨v, ?_⟩
  constructor
  case held => exact begins.saved
  case mine => exact begins.mine
  case plan =>
    rw [begins.plans, code, number]
    exact found
  case keyed => exact ⟨code.symm, number.symm⟩
  case sold => exact ⟨by rw [published]; decide, modules⟩
  case readable => exact begins.readable
  case placed =>
    intro id s present
    cases entry : sourceEntry (expectedSources C.digests.source b (projected v)) id with
    | none => exact .inr (others id s present entry)
    | some x =>
      obtain rfl : x = s := Option.some.inj ((new id x entry).symm.trans present)
      obtain ⟨listed, rfl⟩ := sourceEntry_eq_some entry
      obtain ⟨-, plan, -, -, -, -, m, k, key, a, identity⟩ := expected x listed
      exact .inl ⟨plan, b.sourceNamespace, m, k, key, a, .inl begins.named, identity⟩
  case live =>
    intro id s present living
    cases entry : sourceEntry (expectedSources C.digests.source b (projected v)) id with
    | none => exact absurd living.1 (others id s present entry).1
    | some x =>
      obtain rfl : x = s := Option.some.inj ((new id x entry).symm.trans present)
      obtain ⟨-, -, start, -, -, version, -⟩ := expected x (sourceEntry_eq_some entry).1
      rw [start]
      exact ⟨version, begins.begun⟩
  case covers =>
    constructor
    · intro id x entry
      exact ⟨x, new id x entry, matches_of_generation (sourceEntry_eq_some entry).1⟩
    · intro id s present plan entry
      exact absurd plan (others id s present entry).1

end Moves

section Checks

variable {C : Setting} {store : Store} {b : BaseSubscription} {v : Plan.Version}

/-- A subscription with a version is its own normal form. -/
theorem normalize_settled (keyed : v.planCode = b.planCode ∧ v.number = b.planVersion)
    (revised : b.revision ≠ 0) (valid : b.validate = .ok ()) :
    normalize b (projected v) = .ok b := by
  have parts := valid
  simp only [BaseSubscription.validate, bind_ok, require_ok] at parts
  obtain ⟨-, periods, -⟩ := parts
  obtain ⟨start, ends, named, -⟩ := periods revised
  simp only [normalize, bind_ok, require_ok, pure_ok, if_neg revised, if_neg named]
  exact ⟨(), ⟨keyed.1.symm, keyed.2.symm, valid⟩, (), ⟨start, ends⟩, trivial⟩

/-- Sources that cover their subscription pass the validation. -/
theorem Covers.validate {digest : String → String} {known : String → Option Source}
    {sources : List Source} (covers : Covers digest known b v) (lists : Lists known sources)
    (modules : v.terms.modules ≠ []) :
    validateCurrentSources digest b (projected v) sources = .ok () := by
  rw [validateCurrentSources_ok lists.distinct]
  refine ⟨generation_ne_nil (projected_modules modules), ?_, ?_⟩
  · intro s member plan
    have present := (lists.mem s).mp member
    refine ⟨covers.others s.id s present plan, fun x entry => ?_⟩
    obtain ⟨s', present', -, fits, within⟩ := covers.expected s.id x entry
    obtain rfl : s = s' := Option.some.inj (present.symm.trans present')
    exact ⟨fits, within⟩
  · intro x listed
    cases entry : sourceEntry (expectedSources digest b (projected v)) x.id with
    | none => exact absurd rfl (sourceEntry_eq_none.mp entry x listed)
    | some y =>
      obtain ⟨s, present, plan, -⟩ := covers.expected x.id y entry
      have named := lists.named x.id s present
      exact ⟨s, (lists.mem s).mpr (named ▸ present), plan, named⟩

theorem Fitting.checked (fitting : Fitting C (C.ledger store) b v)
    (settled : Settled (C.ledger store)) : checkStored C store = .ok () := by
  obtain ⟨b', held, revised, valid, -⟩ := settled
  obtain rfl : b = b' := Option.some.inj (fitting.held.symm.trans held)
  obtain ⟨sources, decoded⟩ := fitting.readable
  have lists := Snapshot.lists_of_decodeSources decoded
  simp only [checkStored, bind_ok, found_ok, mapError_ok]
  exact ⟨b, fitting.held, v, fitting.plan, sources, decoded, b,
    normalize_settled fitting.keyed revised valid, fitting.covers.validate lists fitting.sold.2⟩

end Checks

/-- In every state of a history in which no subscription enters a grace period the sources
pass the validation that comes before every change. -/
theorem sources_fit {C : Setting} {store after : Store} {S : Services} {requestId scope : String}
    {events : List Event} (collisionFree : Function.Injective C.digests.source)
    (fresh : Fresh C store)
    (run : Run (Guarded (Step C) fun store event => ¬event.EntersGrace C store) store
      (.bootstrap S requestId scope :: events) after) : checkStored C after = .ok () := by
  have start : ∀ l' b version, Begins C (C.ledger store) l' b version → ∃ b v, Fitting C l' b v :=
    fun l' b version begins => ⟨b, begins.fitting fresh⟩
  have kept : ∀ before (event : Event) after, ¬event.EntersGrace C before →
    Settled (C.ledger before) →
      Aligned (C.ledger before) → Punctual (C.ledger before) →
      (∃ b v, Fitting C (C.ledger before) b v) →
      Move C (event.EntersGrace C before) (event.LosesBoundary C before) (C.ledger before)
        (C.ledger after) → ∃ b v, Fitting C (C.ledger after) b v := by
    rintro before event last steady - - punctual ⟨b, v, fitting⟩ move
    exact move.fitting collisionFree punctual steady fitting
  obtain ⟨settled, -, b, v, fitting⟩ := history_invariant fresh start kept run
  exact fitting.checked settled

namespace Sample

/-- The setting of a month that ends. -/
def ending : Setting := setting (view 1 1 30 granted)

/-- The tenant when a worker has claimed the end of its month. -/
def claimed : Store :=
  run (claimTransition ending boundary "worker" minute) (wait (begun ending) 30 [])

/-- The tenant in its grace period. -/
def inGrace : Store := run (completeTransition ending (services []) boundary "worker" 1) claimed

/-- What the transactions of the month return and leave. -/
theorem grace_facts :
    (commit (bootstrap ending (services []) "request" "web") empty).isOk = true ∧
      (begun ending).clock.now ≤ addDays begin_ 30 ∧
      (commit (claimTransition ending boundary "worker" minute)
        (wait (begun ending) 30 [])).isOk = true ∧
      (commit (completeTransition ending (services []) boundary "worker" 1) claimed).isOk = true ∧
      checkStored ending inGrace = .error .corrupt := by
  decide +kernel

end Sample

open Sample

/-- A boundary that enters a grace period leaves the sources behind: the next change is
rejected. -/
theorem grace_leaves_sources :
    Run (Step ending) empty
      [.bootstrap (services []) "request" "web", .elapse,
        .claimTransition boundary "worker" minute,
        .completeTransition (services []) boundary "worker" 1] inGrace ∧
      checkStored ending inGrace = .error .corrupt := by
  obtain ⟨boots, later, claims, completes, corrupt⟩ := grace_facts
  refine ⟨?_, corrupt⟩
  refine .step (commits_run boots) ?_
  refine .step (elapsed_wait 30 [] later) ?_
  refine .step (commits_run claims) ?_
  exact .step (commits_run completes) (.done _)

/-- The sources fit as long as the end of the month is only claimed. -/
theorem sources_fit_until_claimed : checkStored ending claimed = .ok () := by
  obtain ⟨boots, later, claims, -⟩ := grace_facts
  have run : Run (Guarded (Step ending) fun store event =>
      ¬event.EntersGrace ending store) empty
      [.bootstrap (services []) "request" "web", .elapse,
        .claimTransition boundary "worker" minute] claimed := by
    refine .step ⟨commits_run boots, fun other => other⟩ ?_
    refine .step ⟨elapsed_wait 30 [] later, fun other => other⟩ ?_
    exact .step ⟨commits_run claims, fun other => other⟩ (.done _)
  exact sources_fit Function.injective_id (fresh _) run

/-! ## Changes that take effect once -/

/-- Receipts stay, a subscription changes with a new revision only, and it takes sources from
a change that has not taken effect before. -/
def Develops (C : Setting) (before after : Ledger) : Prop :=
  Onward before.receipt after.receipt ∧ ∀ b, before.subscription = some b →
    ∃ b', after.subscription = some b' ∧ (b.revision < b'.revision ∨ b' = b) ∧
      (b'.sourceNamespace = b.sourceNamespace ∨ ¬Used C before.receipt b'.sourceNamespace)

section Development

variable {C : Setting} {l l' l'' : Ledger} {grace orphan : Prop}

theorem develops_refl (C : Setting) (l : Ledger) : Develops C l l :=
  ⟨onward_refl _, fun b held => ⟨b, held, .inr rfl, .inl rfl⟩⟩

theorem Develops.trans (early : Develops C l l') (late : Develops C l' l'') : Develops C l l'' := by
  refine ⟨fun id r stored => ?_, fun b held => ?_⟩
  · obtain ⟨r', stored', mode, ends, still⟩ := early.1 id r stored
    obtain ⟨r'', stored'', mode', ends', still'⟩ := late.1 id r' stored'
    exact ⟨r'', stored'', mode'.trans mode, ends'.trans ends, fun applied => still' (still applied)⟩
  · obtain ⟨b', held', newer, origin⟩ := early.2 b held
    obtain ⟨b'', held'', newer', origin'⟩ := late.2 b' held'
    refine ⟨b'', held'', ?_, ?_⟩
    · grind
    · rcases origin' with same | unused
      · rw [same]
        exact origin
      · exact .inr fun used => unused (used.onward early.1)

theorem Saves.develops {raw after : BaseSubscription} (saves : Saves l l' raw after)
    (origin : after.sourceNamespace = raw.sourceNamespace ∨
      ¬Used C l.receipt after.sourceNamespace) :
    Develops C l l' := by
  refine ⟨saves.receipts, fun b held => ?_⟩
  obtain rfl : raw = b := Option.some.inj (saves.held.symm.trans held)
  exact ⟨after, saves.saved, .inl (by rw [saves.next]; exact Nat.lt_succ_self _), origin⟩

theorem not_used {receipt : String → Option Receipt} {changeId : String} (named : Named changeId)
    (unused : ∀ known, receipt changeId = some known → known.status ≠ .applied) :
    ¬Used C receipt changeId := by
  rintro (first | ⟨-, r, stored, applied⟩)
  · obtain ⟨rest, rfl⟩ := named.2
    exact sub_ne_chg _ rest "" "" (by simpa [subscriptionId] using first.symm)
  · exact unused r stored applied

theorem Move.develops (move : Move C grace orphan l l') : Develops C l l' := by
  cases move with
  | idle later same | elapse later same =>
    rw [same]
    exact develops_refl C l
  | take raw after target r saves shape usable named unused =>
    refine saves.develops (.inr ?_)
    rw [shape]
    exact not_used named unused
  | hold _ _ _ saves _ shape | stop _ _ saves _ shape | release _ _ saves shape
  | start _ _ _ _ saves _ _ shape | bound _ _ saves _ shape =>
    refine saves.develops (.inl ?_)
    rw [shape]

end Development

/-- Between two states of a history receipts stay, the subscription changes with a new
revision only, and no change takes effect a second time. -/
theorem changes_apply_once {C : Setting} {store early late : Store} {S : Services}
    {requestId scope : String} {events more : List Event} (fresh : Fresh C store)
    (reached : Run (Step C) store (.bootstrap S requestId scope :: events) early)
    (onward : Run (Step C) early more late) : Develops C (C.ledger early) (C.ledger late) := by
  obtain ⟨_, taken, rest⟩ := reached.uncons
  obtain ⟨_, _, begins⟩ := begins_of_bootstrap fresh taken
  have kept : ∀ before event after, Settled (C.ledger before) → Step C before event after →
      Settled (C.ledger after) := fun _ _ _ settled taken =>
        (Step.move settled taken).settled settled
  have settled : Settled (C.ledger early) := rest.invariant kept begins.settled
  refine onward.invariant_under kept ?_ settled (develops_refl C _)
  exact fun _ _ _ settled develops taken => develops.trans (Step.move settled taken).develops

/-- A change to fewer devices takes effect, under a new revision. -/
theorem reduction_applies_once :
    Develops monthOver (monthOver.ledger (begun monthOver)) (monthOver.ledger reduced) ∧
      reduced.subscription.map (·.sourceNamespace) = some changeId := by
  obtain ⟨boots, -, -, saved, -⟩ := reduction_facts
  have onward := Run.step lapsed_elapses (.step reduced_confirms (.done _))
  refine ⟨changes_apply_once (fresh _) (.step (commits_run boots) (.done _)) onward, ?_⟩
  rw [saved]
  rfl

end Biz.Change
