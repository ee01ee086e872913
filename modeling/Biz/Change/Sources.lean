import Biz.Change.Ledger

/-!
# What a change does to the sources

The loops that write sources, as changes of the map of sources: a change that takes
effect retires what is live and adds its generation, a fence ends what would outlive
it. Then what `capture` has established, and how a change that takes effect can fail.
-/

namespace Biz.Change

open Time Checks Transaction Subscription
open Entitlement (Source)
open Snapshot (Lists stored)

section Maps

variable {known : String → Option Source} {sources writes : List Source} {id : String}

/-- A map after writes of sources under their identities. -/
def overwrite (known : String → Option Source) (writes : List Source) (id : String) :
    Option Source :=
  (sourceEntry writes id).or (known id)

theorem sourceEntry_append (first second : List Source) (id : String) :
    sourceEntry (first ++ second) id = (sourceEntry second id).or (sourceEntry first id) := by
  simp [sourceEntry, List.find?_append]

theorem overwrite_append (known : String → Option Source) (first second : List Source) :
    overwrite known (first ++ second) = overwrite (overwrite known first) second := by
  funext id
  rw [overwrite, sourceEntry_append, Option.or_assoc]
  rfl

theorem overwrite_singleton (known : String → Option Source) (s : Source) :
    overwrite known [s] = Function.update known s.id (some s) := by
  funext id
  rw [Function.update_apply, overwrite]
  by_cases same : id = s.id
  · simp [sourceEntry, same]
  · have other : s.id ≠ id := fun equal => same equal.symm
    simp [sourceEntry, same, other]

/-- The entry of an identity among sources with distinct identities. -/
theorem sourceEntry_of_lists (lists : Lists known sources) (id : String) :
    sourceEntry sources id = known id := by
  cases entry : sourceEntry sources id with
  | some s =>
    obtain ⟨member, rfl⟩ := sourceEntry_eq_some entry
    exact ((lists.mem s).mp member).symm
  | none =>
    cases present : known id with
    | none => rfl
    | some s =>
      have same := lists.named id s present
      exact absurd same (sourceEntry_eq_none.mp entry s ((lists.mem s).mpr (same ▸ present)))

theorem sourceEntry_filter {keep : Source → Bool} :
    sourceEntry (sources.filter keep) id =
      sources.reverse.find? fun s => keep s && decide (s.id = id) := by
  rw [sourceEntry, ← List.filter_reverse, List.find?_filter]
  simp

/-- Writing some of the sources of a map again, under their identities. -/
theorem overwrite_revised (lists : Lists known sources) {p : Source → Prop} [DecidablePred p]
    {f : Source → Source} (keeps : ∀ s, (f s).id = s.id) (id : String) :
    overwrite known ((sources.filter fun s => p s).map f) id =
      (known id).map fun s => if p s then f s else s := by
  have entry : sourceEntry ((sources.filter fun s => p s).map f) id =
      (sourceEntry (sources.filter fun s => p s) id).map f := by
    simp [sourceEntry, ← List.map_reverse, List.find?_map, keeps]
  rw [overwrite, entry]
  cases found : sourceEntry (sources.filter fun s => p s) id with
  | some s =>
    obtain ⟨member, same⟩ := sourceEntry_eq_some found
    obtain ⟨listed, chosen⟩ := List.mem_filter.mp member
    rw [← same, (lists.mem s).mp listed]
    simp [of_decide_eq_true chosen]
  | none =>
    cases present : known id with
    | none => rfl
    | some s =>
      have same := lists.named id s present
      have listed : s ∈ sources := (lists.mem s).mpr (same ▸ present)
      have spared : ¬p s := fun chosen =>
        sourceEntry_eq_none.mp found s (List.mem_filter.mpr ⟨listed, decide_eq_true chosen⟩) same
      simp [spared]

end Maps

section Loops

variable {C : Setting} {store middle after : Store} {writes : List Source} {u : Unit}

/-- A run that writes these sources and nothing else. -/
def Writes (C : Setting) (writes : List Source) (store after : Store) : Prop :=
  ∃ rows, after = { store with entitlements := { store.entitlements with sources := rows } } ∧
    stored C.encoding C.tenant after.entitlements =
      overwrite (stored C.encoding C.tenant store.entitlements) writes

theorem Writes.refl (C : Setting) (store : Store) : Writes C [] store store :=
  ⟨store.entitlements.sources, rfl, rfl⟩

theorem Writes.trans {later : List Source} (first : Writes C writes store middle)
    (second : Writes C later middle after) : Writes C (writes ++ later) store after := by
  obtain ⟨_, rfl, known⟩ := first
  obtain ⟨rows', rfl, known'⟩ := second
  exact ⟨rows', rfl, by rw [known', known, overwrite_append]⟩

theorem Writes.source (written : Writes C writes store after) :
    stored C.encoding C.tenant after.entitlements =
      overwrite (stored C.encoding C.tenant store.entitlements) writes := written.choose_spec.2

/-- The loop rule: a loop writes what its steps write. -/
theorem writes_forM {Item : Type} {body : Item → Tx Unit} {f : Item → List Source}
    {items : List Item} (each : ∀ item ∈ items, ∀ store after, body item store = .ok () after →
      Writes C (f item) store after) (ran : items.forM body store = .ok u after) :
    Writes C (items.flatMap f) store after := by
  induction items generalizing store with
  | nil =>
    rw [← run_forM_nil.mp ran]
    exact Writes.refl C store
  | cons item rest ih =>
    obtain ⟨_, first, later⟩ := run_forM_cons.mp ran
    refine (each item List.mem_cons_self _ _ first).trans (ih ?_ later)
    exact fun other member => each other (List.mem_cons_of_mem _ member)

theorem writes_insertSource {s : Source} (mine : s.tenantId = C.tenant)
    (ran : insertSource C s store = .ok u after) : Writes C [s] store after := by
  obtain ⟨entitlements, rfl, inserted⟩ := run_insertSource ran
  obtain ⟨shape, known⟩ := Snapshot.insert_ok inserted
  refine ⟨entitlements.sources, by rw [← shape], ?_⟩
  rw [overwrite_singleton, ← mine]
  exact known

theorem writes_revokeSource {s : Source} {expected : Nat} (mine : s.tenantId = C.tenant)
    (ran : revokeSource C s expected store = .ok u after) : Writes C [s] store after := by
  obtain ⟨entitlements, rfl, revoked⟩ := run_revokeSource ran
  obtain ⟨shape, known⟩ := Snapshot.revoke_ok revoked
  refine ⟨entitlements.sources, by rw [← shape], ?_⟩
  rw [overwrite_singleton, ← mine]
  exact known

/-- What the loop of a change writes of one source. -/
def written (sources : List Source) (v : Source) : List Source :=
  match sourceEntry sources v.id with
  | some previous =>
    if v.sourceKind = .plan ∧ previous.revokedAt = none ∧ v.revokedAt ≠ none then [v] else []
  | none => [v]

theorem writes_writeSource {m : Material} {v : Source} (mine : v.tenantId = C.tenant)
    (ran : writeSource C m v store = .ok u after) : Writes C (written m.sources v) store after := by
  unfold writeSource at ran
  unfold written
  cases entry : sourceEntry m.sources v.id with
  | some previous =>
    simp only [entry] at ran ⊢
    by_cases revokes : v.sourceKind = .plan ∧ previous.revokedAt = none ∧ v.revokedAt ≠ none
    · rw [if_pos revokes] at ran ⊢
      exact writes_revokeSource mine ran
    · rw [if_neg revokes] at ran ⊢
      rw [← (run_pure.mp ran).2]
      exact Writes.refl C store
  | none =>
    simp only [entry, run_bind, run_check] at ran ⊢
    obtain ⟨_, _, ⟨-, rfl⟩, inserted⟩ := ran
    exact writes_insertSource mine inserted

end Loops

section Generations

variable {digest : String → String} {tenant sourceNamespace : String} {start : Instant}
  {ends : Option Instant} {t : Plan.Terms} {sources : List Source} {known : String → Option Source}

/-- The map that a change leaves: what was there is retired, and the generation of the
change is added where nothing was. -/
def replaced (start : Instant) (generation : List Source) (known : String → Option Source)
    (id : String) : Option Source :=
  ((known id).map (retired start)).or (sourceEntry generation id)

theorem flatMap_ite {α β : Type} {p : α → Prop} [DecidablePred p] {f : α → β} (items : List α) :
    (items.flatMap fun x => if p x then [f x] else []) = (items.filter fun x => p x).map f := by
  induction items with
  | nil => rfl
  | cons x rest ih =>
    rw [List.flatMap_cons, ih, List.filter_cons]
    by_cases chosen : p x <;> simp [chosen]

/-- Of the sources that were there, the loop writes those that it retires. -/
theorem written_retired (lists : Lists known sources) :
    (sources.map (retired start)).flatMap (written sources) =
      (sources.filter fun v => Live v).map (revokedFrom start) := by
  rw [List.flatMap_map, ← flatMap_ite]
  refine List.flatMap_congr fun v member => ?_
  have entry : sourceEntry sources v.id = some v :=
    (sourceEntry_of_lists lists v.id).trans ((lists.mem v).mp member)
  by_cases live : Live v
  · obtain ⟨plan, valid⟩ := live
    simp [written, retired, Live, revokedFrom, plan, valid, entry]
  · have same : retired start v = v := if_neg live
    have kept : ¬(v.sourceKind = .plan ∧ v.revokedAt = none ∧ v.revokedAt ≠ none) :=
      fun ⟨_, valid, revoked⟩ => revoked valid
    rw [same, if_neg live, written, entry]
    exact if_neg kept

/-- Of its generation, the loop writes what was not there. -/
theorem written_generation :
    (generation digest tenant sourceNamespace start ends t).flatMap (written sources) =
      (generation digest tenant sourceNamespace start ends t).filter fun x =>
        sourceEntry sources x.id = none := by
  rw [← List.map_id (List.filter _ _), ← flatMap_ite]
  refine List.flatMap_congr fun x listed => ?_
  obtain ⟨-, -, -, -, unrevoked, -⟩ := mem_generation listed
  cases entry : sourceEntry sources x.id <;> simp [written, entry, unrevoked]

/-- The writes of a change that takes effect, as a map. -/
theorem overwrite_written (lists : Lists known sources) :
    overwrite known ((sources.map (retired start) ++
        generation digest tenant sourceNamespace start ends t).flatMap (written sources)) =
      replaced start (generation digest tenant sourceNamespace start ends t) known := by
  rw [List.flatMap_append, overwrite_append, written_retired lists, written_generation]
  funext id
  rw [overwrite, overwrite_revised (f := revokedFrom start) lists (fun _ => rfl), replaced,
    sourceEntry_filter]
  cases present : known id with
  | some s =>
    have none : (generation digest tenant sourceNamespace start ends t).reverse.find?
        (fun x => decide (sourceEntry sources x.id = none) && decide (x.id = id)) = none := by
      rw [List.find?_eq_none]
      intro x _ both
      obtain ⟨absent, rfl⟩ := by simpa using both
      rw [sourceEntry_of_lists lists, present] at absent
      cases absent
    rw [none]
    rfl
  | none =>
    have same : (fun x : Source => decide (sourceEntry sources x.id = none) && decide (x.id = id)) =
        fun x => decide (x.id = id) := by
      funext x
      by_cases equal : x.id = id
      · subst equal
        simp [sourceEntry_of_lists lists, present]
      · simp [equal]
    rw [same]
    simp [sourceEntry]

end Generations

section Plans

variable {C : Setting} {S : Services} {store after : Store} {code : String} {number : Nat}
  {v p : Plan.Version}

/-- A version as subscriptions read it: canonical terms without feature codes. -/
def projected (v : Plan.Version) : Plan.Version :=
  Plan.Projection.canonical { v with terms := { v.terms with featureCodes := [] } }

theorem project_ok (read : project C v = .ok p) : p = projected v := by
  rw [project, mapError_ok, Plan.Projection.version_dto] at read
  exact read.2.2.2.1

theorem projected_modules (some_ : v.terms.modules ≠ []) : (projected v).terms.modules ≠ [] := by
  intro none
  have sorted : (Plan.sortBy Plan.Module.code v.terms.modules).map Plan.Module.canonical = [] :=
    none
  have perm := List.perm_insertionSort (fun a b : Plan.Module => a.code ≤ b.code) v.terms.modules
  rw [show v.terms.modules.insertionSort _ = [] from List.map_eq_nil_iff.mp sorted] at perm
  exact some_ (List.nil_perm.mp perm)

/-- A version that may be sold, as a change uses it. -/
def OnSale (plan : String × Nat → Option Plan.Version) (p : Plan.Version) : Prop :=
  ∃ v, plan (p.planCode, p.number) = some v ∧ v.state = .published ∧ v.terms.modules ≠ [] ∧
    p = projected v

theorem findPlan_ok (read : findPlan C code number store = .ok v) :
    store.plans.find? (code, number) = some v ∧ v.planCode = code ∧ v.number = number := by
  simp only [findPlan, bind_ok, require_ok, found_ok, mapError_ok, pure_ok] at read
  obtain ⟨-, -, v, found, -, -, rfl⟩ := read
  have key := Table.key_of_find? found
  exact ⟨found, congrArg Prod.fst key, congrArg Prod.snd key⟩

theorem getPlanVersion_ok (read : getPlanVersion C code number store = .ok p) :
    ∃ v, store.plans.find? (code, number) = some v ∧ p = projected v := by
  simp only [getPlanVersion, bind_ok] at read
  obtain ⟨v, found, read⟩ := read
  exact ⟨v, (findPlan_ok found).1, project_ok read⟩

theorem checkPlanEligibility_ok {scope : String}
    (read : checkPlanEligibility C S code number scope store = .ok (v, true))
    (projection : project C v = .ok p) :
    OnSale store.plans.find? p ∧ p.planCode = code ∧ p.number = number := by
  simp only [checkPlanEligibility, bind_ok, require_ok, pure_ok, Prod.mk.injEq,
    decide_eq_true_eq] at read
  obtain ⟨-, -, _, -, v, found, rfl, eligible⟩ := read
  obtain ⟨known, rfl, rfl⟩ := findPlan_ok found
  obtain ⟨-, published, -, valid⟩ := Plan.Version.eligible_iff.mp eligible
  obtain rfl := project_ok projection
  refine ⟨⟨v, known, published, ?_, rfl⟩, rfl, rfl⟩
  simp only [Plan.Terms.validate, bind_ok, require_ok] at valid
  exact fun none => valid.choose_spec.1.1 (by rw [none]; rfl)

theorem run_resolveTarget {scope : String}
    (ran : resolveTarget C S code number scope store = .ok p after) :
    after = store ∧ OnSale store.plans.find? p ∧ p.planCode = code ∧ p.number = number := by
  simp only [resolveTarget, run_bind, run_read, run_demand, run_check, run_pure, mapError_ok] at ran
  obtain ⟨⟨v, _⟩, _, ⟨read, rfl⟩, _, _, ⟨yes, rfl⟩, p, _, ⟨projection, rfl⟩, _, _, ⟨-, rfl⟩,
    rfl, rfl⟩ := ran
  subst yes
  exact ⟨rfl, checkPlanEligibility_ok read projection⟩

end Plans

section Capture

variable {C : Setting} {S : Services} {store after : Store} {raw : BaseSubscription} {i : Input}
  {m : Material}

instance : Std.Refl (Quiet C) := ⟨Quiet.refl C⟩

instance : Trans (Quiet C) (Quiet C) (Quiet C) := ⟨Quiet.trans⟩

/-- The sources of the tenant and their version stay. -/
def SameRights (C : Setting) (store after : Store) : Prop :=
  after.entitlements.sources = store.entitlements.sources ∧
    after.entitlements.version C.tenant = store.entitlements.version C.tenant

instance : Std.Refl (SameRights C) := ⟨fun _ => ⟨rfl, rfl⟩⟩

instance : Trans (SameRights C) (SameRights C) (SameRights C) where
  trans first second := ⟨second.1.trans first.1, second.2.trans first.2⟩

theorem keeps_readSnapshot (C : Setting) (cache : Snapshot.Cache) :
    Keeps (Quiet C) (readSnapshot C cache) :=
  Keeps.write fun _ _ _ done => quiet_readSnapshot (run_write.mpr done)

variable {related : Store → Store → Prop}

theorem keeps_lock [Std.Refl related] (locks : ∀ store version sources entitlements,
      Snapshot.lock C.encoding C.tenant store.entitlements = .ok (version, sources, entitlements) →
      related store { store with entitlements }) : Keeps related (lockSources C) := by
  constructor
  · intro store value after ran
    obtain ⟨_, done, rfl⟩ := run_entitled ran
    simp only [bind_ok, pure_ok, Prod.mk.injEq] at done
    obtain ⟨⟨_, _, _⟩, taken, -, rfl⟩ := done
    exact locks _ _ _ _ taken
  · intro store failure after failed
    rw [lockSources, entitled, fail_write] at failed
    exact failed.2 ▸ Std.Refl.refl store

theorem keeps_lockSources (C : Setting) : Keeps (Quiet C) (lockSources C) := by
  refine keeps_lock fun store version sources entitlements taken => ?_
  obtain ⟨shape, -⟩ := Snapshot.lock_frame taken
  exact quiet_of_sources (by rw [shape]) (le_refl _)

/-- Capturing locks the sources and reads the view; all else it does is reading. -/
theorem keeps_capture [Std.Refl related]
    [Trans related related related] (locks : Keeps related (lockSources C))
    (reads : Keeps related (readSnapshot C S.cache)) (raw : BaseSubscription) (i : Input) :
    Keeps related (capture C S raw i) := by
  have target : ∀ old, Keeps related (changeTarget C S raw i old) := by
    intro old
    unfold changeTarget
    split
    · exact .pure old
    · refine .bind (.read _) fun _ => ?_
      refine .bind (.demand _ _) fun _ => ?_
      refine .bind (.check _) fun _ => ?_
      exact .bind (.demand _ _) fun _ => .pure _
  have current : ∀ version, Keeps related (readCurrent C S version) := by
    intro version
    refine .bind reads fun _ => ?_
    exact .bind (.demand _ _) fun _ => .pure _
  refine .bind (.read _) fun old => ?_
  refine .bind (.check _) fun before => ?_
  refine .bind (.demand _ _) fun _ => ?_
  refine .bind (.demand _ _) fun _ => ?_
  refine .bind (.demand _ _) fun _ => ?_
  refine .bind (target old) fun _ => ?_
  refine .bind (.check _) fun _ => ?_
  refine .bind locks fun _ => ?_
  refine .bind (.demand _ _) fun _ => ?_
  refine .bind (.check _) fun _ => ?_
  exact .bind (current _) fun _ => .pure _

theorem sameRights_readSnapshot {cache : Snapshot.Cache} {view : Entitlement.Result}
    (ran : readSnapshot C cache store = .ok view after) : SameRights C store after := by
  obtain ⟨_, rfl, same, -, -, version, -⟩ := run_readSnapshot ran
  exact ⟨same, version⟩

theorem sameRights_capture (C : Setting) (S : Services) (raw : BaseSubscription) (i : Input) :
    Keeps (SameRights C) (capture C S raw i) := by
  refine keeps_capture (keeps_lock fun store version sources entitlements taken => ?_)
    (.write fun _ _ _ done => sameRights_readSnapshot (run_write.mpr done)) raw i
  obtain ⟨shape, -, known, version⟩ := Snapshot.lock_frame taken
  exact ⟨by rw [shape], version.trans known⟩

/-- What a change is decided on, as the ledger has it. -/
structure Captured (C : Setting) (l : Ledger) (raw : BaseSubscription) (i : Input)
    (m : Material) : Prop where
  old : ∃ v, l.plan (raw.planCode, raw.planVersion) = some v ∧ m.old = projected v
  normalized : normalize raw m.old = .ok m.before
  target : i.action ≠ .stopRenewal → OnSale l.plan m.target ∧
    m.target.planCode = i.targetPlanCode ∧ m.target.number = i.targetPlanVersion
  kept : i.action = .stopRenewal → m.target = m.old
  lists : Lists l.source m.sources
  mine : ∀ v ∈ m.sources, v.tenantId = C.tenant
  checked : validateCurrentSources C.digests.source m.before m.old m.sources = .ok ()

/-- A version that a change may give a subscription: one on sale, or the one it has. -/
def Usable (l : Ledger) (raw : BaseSubscription) (p : Plan.Version) : Prop :=
  OnSale l.plan p ∨ ∃ v, l.plan (raw.planCode, raw.planVersion) = some v ∧ p = projected v

theorem Captured.usable {l : Ledger} (captured : Captured C l raw i m) :
    Usable l raw m.target := by
  by_cases stop : i.action = .stopRenewal
  · obtain ⟨v, found, old⟩ := captured.old
    exact .inr ⟨v, found, (captured.kept stop).trans old⟩
  · exact .inl (captured.target stop).1

theorem run_readCurrent {version : Nat} {current : Entitlement.Result}
    (ran : readCurrent C S version store = .ok current after) :
    Quiet C store after ∧
      after.entitlements.viewVersion C.tenant = current.entitlementVersion := by
  simp only [readCurrent, run_bind, run_demand, run_pure] at ran
  obtain ⟨_, _, read, _, _, ⟨-, rfl⟩, rfl, rfl⟩ := ran
  have quiet := quiet_readSnapshot read
  obtain ⟨_, rfl, -, -, -, -, stamp, -⟩ := run_readSnapshot read
  exact ⟨quiet, stamp⟩

theorem run_capture (ran : capture C S raw i store = .ok m after) :
    Captured C (C.ledger store) raw i m ∧ Quiet C store after ∧
      after.entitlements.viewVersion C.tenant = m.current.entitlementVersion := by
  have quiet :=
    (keeps_capture (keeps_lockSources C) (keeps_readSnapshot C S.cache) raw i).1 _ _ _ ran
  simp only [capture, run_bind, run_read, run_check, run_demand, run_pure] at ran
  obtain ⟨old, _, ⟨readOld, rfl⟩, before, _, ⟨normal, rfl⟩, _, _, ⟨-, rfl⟩, _, _, ⟨-, rfl⟩, _, _,
    ⟨-, rfl⟩, target, second, resolved, catalog, _, ⟨-, rfl⟩, ⟨version, sources⟩, third, locked, _,
    _, ⟨-, rfl⟩, _, _, ⟨checked, rfl⟩, current, _, read, rfl, rfl⟩ := ran
  have sold : second = store ∧ (i.action ≠ .stopRenewal → OnSale store.plans.find? target ∧
      target.planCode = i.targetPlanCode ∧ target.number = i.targetPlanVersion) ∧
      (i.action = .stopRenewal → target = old) := by
    unfold changeTarget at resolved
    split at resolved
    · rename_i stop
      obtain ⟨same, kept⟩ := run_pure.mp resolved
      exact ⟨kept.symm, fun other => absurd stop other, fun _ => same.symm⟩
    · rename_i change
      obtain ⟨rfl, sale⟩ := run_resolveTarget resolved
      exact ⟨rfl, fun _ => sale, fun stop => absurd stop change⟩
  obtain ⟨rfl, sale, kept⟩ := sold
  obtain ⟨_, rfl, -, decoded, -⟩ := run_lockSources locked
  exact ⟨⟨getPlanVersion_ok readOld, normal, sale, kept, Snapshot.lists_of_decodeSources decoded,
    Snapshot.tenant_of_decodeSources decoded, checked⟩, quiet, (run_readCurrent read).2⟩

/-- Rows with a version and a namespace are normal already. -/
theorem normalize_eq {p : Plan.Version} {before : BaseSubscription}
    (normal : normalize raw p = .ok before) (revised : raw.revision ≠ 0)
    (named : raw.sourceNamespace ≠ "") : before = raw := by
  simp only [normalize, bind_ok, require_ok, pure_ok, if_neg revised, if_neg named] at normal
  obtain ⟨-, -, -, -, rfl⟩ := normal
  rfl

theorem normalize_frame {p : Plan.Version} {before : BaseSubscription}
    (normal : normalize raw p = .ok before) :
    before = { raw with
      revision := before.revision, periodStart := before.periodStart,
      periodEnd := before.periodEnd, sourceNamespace := before.sourceNamespace } := by
  simp only [normalize, bind_ok, require_ok, pure_ok] at normal
  obtain ⟨-, -, -, -, rfl⟩ := normal
  split_ifs <;> rfl

end Capture

end Biz.Change
