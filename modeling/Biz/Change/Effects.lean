import Biz.Change.Moves

/-!
# What the parts of a transaction do

The transactions on a subscription share their parts: the sources of a change are
applied or fenced, a receipt is completed and the transition of a period is scheduled.
Each part has one lemma here that says what a successful run leaves in the ledger.
Applying the sources of a change may also fail; the errors that end a reserved change
are those of its first check, before anything is written.
-/

namespace Biz.Change

open Time Checks Transaction Subscription
open Entitlement (Source)
open Snapshot (Lists Readable advance_frame readable_congr stored stored_congr)

variable {C : Setting} {S : Services} {store middle after : Store} {m : Material}

section Failures

variable {failure : Err}

theorem fail_entitled {α : Type} {f : Snapshot.Store → Except Snapshot.Err (α × Snapshot.Store)}
    (failed : entitled f store = .error failure after) : ∃ error, failure = .entitlement error := by
  rw [entitled, fail_write] at failed
  cases done : f store.entitlements with
  | ok result => simp [done, Except.mapError, bind, Except.bind, pure, Except.pure] at failed
  | error error =>
    refine ⟨error, ?_⟩
    simpa [done, Except.mapError, bind, Except.bind, eq_comm] using failed.1

/-- The errors that are tried again. -/
def Retried (failure : Err) : Prop := terminalTransitionError failure = none

theorem retried_of_entitled {α : Type}
    {f : Snapshot.Store → Except Snapshot.Err (α × Snapshot.Store)}
    (failed : entitled f store = .error failure after) : Retried failure := by
  obtain ⟨_, rfl⟩ := fail_entitled failed
  rfl

theorem retried_of_writeSource {v : Source}
    (failed : writeSource C m v store = .error failure after) : Retried failure := by
  unfold writeSource at failed
  cases entry : sourceEntry m.sources v.id with
  | some previous =>
    simp only [entry] at failed
    by_cases revokes : v.sourceKind = .plan ∧ previous.revokedAt = none ∧ v.revokedAt ≠ none
    · rw [if_pos revokes] at failed
      exact retried_of_entitled failed
    · rw [if_neg revokes] at failed
      exact (fail_pure.mp failed).elim
  | none =>
    simp only [entry] at failed
    rcases fail_bind.mp failed with refused | ⟨_, _, -, rejected⟩
    · rw [fail_check] at refused
      cases shape : v.validate m.catalog with
      | ok => simp [shape, Except.mapError] at refused
      | error error =>
        have same : Err.source error = failure := by
          simpa [shape, Except.mapError] using refused.1
        rw [← same]
        rfl
    · exact retried_of_entitled rejected

theorem retried_of_readSnapshot {cache : Snapshot.Cache}
    (failed : readSnapshot C cache store = .error failure after) : Retried failure := by
  rw [readSnapshot, fail_write] at failed
  rcases bind_error.mp failed.1 with refused | ⟨_, -, rest⟩
  · rw [← (require_error.mp refused).2]
    rfl
  · rcases bind_error.mp rest with unread | ⟨_, -, done⟩
    · cases read : Snapshot.locked C.encoding cache C.tenant
        ⟨store.clock.now, store.clock.now_positive⟩ store.entitlements with
      | ok result => simp [read, Except.mapError] at unread
      | error error =>
        have same : Err.entitlement error = failure := by
          simpa [read, Except.mapError] using unread
        rw [← same]
        rfl
    · cases done

end Failures

section Views

/-- The entitlement store is at the version and the view that a change was decided on. -/
def At (C : Setting) (m : Material) (store : Store) : Prop :=
  store.entitlements.viewVersion C.tenant = m.current.entitlementVersion

/-- Writing sources changes no head. -/
theorem At.of_writes {writes : List Source} (here : At C m store)
    (written : Writes C writes store after) : At C m after := by
  obtain ⟨_, rfl, -⟩ := written
  exact here

/-- A part that only wrote sources and tasks and read the clock. -/
structure Entitled (store after : Store) : Prop where
  frame : after = { store with
    entitlements := after.entitlements, clock := after.clock, tasks := after.tasks }
  later : store.clock.now ≤ after.clock.now

/-- Only sources can have changed in the ledger. -/
theorem Entitled.ledger (worked : Entitled store after) :
    C.ledger after = { C.ledger store with
      time := after.clock.now, source := (C.ledger after).source,
      readable := (C.ledger after).readable } := by
  conv_lhs => rw [worked.frame]
  rfl

theorem run_publish {view : Entitlement.Result} (ran : publish C S m store = .ok view after) :
    Entitled store after ∧ after.entitlements.sources = store.entitlements.sources ∧
      Readable C.encoding C.tenant after.entitlements := by
  simp only [publish, run_bind, run_demand, run_pure] at ran
  obtain ⟨_, _, advanced, _, _, read, _, _, ⟨-, rfl⟩, -, rfl⟩ := ran
  obtain ⟨_, rfl, advance⟩ := run_advance advanced
  obtain ⟨_, rfl, kept, readable, -⟩ := run_readSnapshot read
  obtain ⟨same, -⟩ := advance_frame advance
  exact ⟨⟨rfl, store.clock.now_le_tick⟩, kept.trans same,
    (readable_congr kept).mpr readable⟩

/-- Publishing never finds that the view has not moved on. -/
theorem retried_of_publish {failure : Err} (here : At C m store)
    (failed : publish C S m store = .error failure after) : Retried failure := by
  rcases fail_bind.mp failed with stuck | ⟨_, _, advanced, rest⟩
  · exact retried_of_entitled stuck
  · rcases fail_bind.mp rest with unread | ⟨_, _, read, rest⟩
    · exact retried_of_readSnapshot unread
    · rcases fail_bind.mp rest with stale | ⟨_, _, -, done⟩
      · obtain ⟨_, rfl, advance⟩ := run_advance advanced
        obtain ⟨-, version, stamp, invalid⟩ := advance_frame advance
        obtain ⟨_, rfl, -, -, source, -, -, newer⟩ := run_readSnapshot read
        refine absurd ⟨source.trans version, ?_⟩ (fail_demand.mp stale).1
        rw [← here, ← stamp]
        exact newer invalid
      · exact (fail_pure.mp done).elim

end Views

section Apply

variable {sub result : BaseSubscription} {view : Entitlement.Result} {id : String}
  {start : Instant} {ends : Option Instant}

/-- The loop of a change that takes effect. -/
theorem writes_applied {u : Unit} (mine : ∀ v ∈ m.sources, v.tenantId = C.tenant)
    (loop : (m.sources.map (retired start) ++ generation C.digests.source C.tenant id start ends
      m.target.terms).forM (writeSource C m) store = .ok u after) :
    Writes C ((m.sources.map (retired start) ++ generation C.digests.source C.tenant id start ends
      m.target.terms).flatMap (written m.sources)) store after := by
  refine writes_forM (fun v member _ _ done => writes_writeSource ?_ done) loop
  rcases List.mem_append.mp member with kept | added
  · obtain ⟨w, inside, rfl⟩ := List.mem_map.mp kept
    have same : (retired start w).tenantId = w.tenantId := by
      unfold retired
      split <;> rfl
    exact same.trans (mine w inside)
  · exact (mem_generation added).1

/-- A change that takes effect replaces the sources. -/
theorem run_applySources (lists : Lists (stored C.encoding C.tenant store.entitlements) m.sources)
    (mine : ∀ v ∈ m.sources, v.tenantId = C.tenant) (owned : m.before.tenantId = C.tenant)
    (ran : applySources C S m sub id start ends store = .ok (result, view) after) :
    result = activated m sub id start ends ∧ Entitled store after ∧
      Readable C.encoding C.tenant after.entitlements ∧
      stored C.encoding C.tenant after.entitlements =
        replaced start (generation C.digests.source C.tenant id start ends m.target.terms)
          (stored C.encoding C.tenant store.entitlements) := by
  simp only [applySources, run_bind, run_check, run_pure, Prod.mk.injEq] at ran
  obtain ⟨_, _, ⟨projected, rfl⟩, _, _, loop, _, _, published, ⟨rfl, -⟩, rfl⟩ := ran
  obtain rfl := projectSources_ok projected
  rw [owned] at loop
  have written := writes_applied mine loop
  obtain ⟨shape, same, readable⟩ := run_publish published
  have known := written.source
  obtain ⟨_, rfl, -⟩ := written
  refine ⟨rfl, ⟨?_, shape.later⟩, readable, ?_⟩
  · rw [shape.frame]
  · rw [stored_congr same, known, overwrite_written lists]

/-- An error that ends a reserved change is the one of the first check, and nothing was
written before it. -/
theorem fail_applySources {failure : Err} (here : At C m store)
    (mine : ∀ v ∈ m.sources, v.tenantId = C.tenant) (owned : m.before.tenantId = C.tenant)
    (failed : applySources C S m sub id start ends store = .error failure after) :
    Retried failure ∨ after = store ∧
      projectSources C.digests.source m.before m.old m.target m.sources id start ends =
        .error failure := by
  rcases fail_bind.mp failed with refused | ⟨_, _, projection, rest⟩
  · obtain ⟨error, rfl⟩ := fail_check.mp refused
    exact .inr ⟨rfl, error⟩
  obtain ⟨projected, rfl⟩ := run_check.mp projection
  obtain rfl := projectSources_ok projected
  left
  rcases fail_bind.mp rest with stuck | ⟨_, _, loop, rest⟩
  · obtain ⟨v, -, _, step⟩ := exists_of_forM_fail stuck
    exact retried_of_writeSource step
  · rcases fail_bind.mp rest with unpublished | ⟨_, _, -, done⟩
    · rw [owned] at loop
      exact retried_of_publish (here.of_writes (writes_applied mine loop)) unpublished
    · exact (fail_pure.mp done).elim

/-- A fence ends what would outlive its instant. -/
theorem run_installTimeFence {due : Instant} {sourceVersion entitlementVersion : Nat}
    (lists : Lists (stored C.encoding C.tenant store.entitlements) m.sources)
    (mine : ∀ v ∈ m.sources, v.tenantId = C.tenant)
    (ran : installTimeFence C S m sub due store =
      .ok (sourceVersion, entitlementVersion, result) after) :
    result = { sub with entitlementSourceVersion := result.entitlementSourceVersion } ∧
      Entitled store after ∧
      (Readable C.encoding C.tenant store.entitlements →
        Readable C.encoding C.tenant after.entitlements) ∧
      ∀ id, stored C.encoding C.tenant after.entitlements id =
        (stored C.encoding C.tenant store.entitlements id).map fun v =>
          if fenced due v then fencedFrom due v else v := by
  obtain ⟨_, middle, loop, rest⟩ := run_bind.mp ran
  have each : Writes C ((m.sources.filter fun v => fenced due v).flatMap fun v =>
      [fencedFrom due v]) store middle := by
    refine writes_forM (fun v member _ _ done => writes_revokeSource ?_ done) loop
    exact mine v (List.mem_filter.mp member).1
  rw [← List.map_eq_flatMap] at each
  have known := each.source
  have revised : ∀ id, stored C.encoding C.tenant middle.entitlements id =
      (stored C.encoding C.tenant store.entitlements id).map fun v =>
        if fenced due v then fencedFrom due v else v := by
    intro id
    rw [known]
    exact overwrite_revised (p := fenced due) (f := fencedFrom due) lists (fun _ => rfl) id
  obtain ⟨rows, rfl, -⟩ := each
  split at rest
  · rename_i none
    obtain ⟨⟨-, -, rfl⟩, rfl⟩ := rest
    rw [none] at loop
    have unmoved := run_forM_nil.mp loop
    refine ⟨rfl, ⟨rfl, le_refl _⟩, fun readable => ?_, revised⟩
    rw [← unmoved]
    exact readable
  · simp only [run_bind, run_demand, run_pure, Prod.mk.injEq] at rest
    obtain ⟨_, _, published, _, _, ⟨-, rfl⟩, ⟨-, -, rfl⟩, rfl⟩ := rest
    obtain ⟨shape, same, readable⟩ := run_publish published
    refine ⟨rfl, ⟨?_, shape.later⟩, fun _ => readable, fun id => ?_⟩
    · rw [shape.frame]
    · rw [stored_congr same]
      exact revised id

end Apply

section Schedules

variable {b : BaseSubscription} {u : Unit}

/-- A scheduled boundary watches its subscription. -/
theorem watched_of_schedule {ends created : Instant} {timezone : String}
    (ends_ : b.periodEnd = some ends)
    (ran : scheduleTransition C .subscriptionBoundary b.id b.revision ends created timezone store =
      .ok u after) :
    (∃ transitions, after = { store with transitions }) ∧ Watched C after.transitions.find? b := by
  obtain ⟨t, transitions, key, live, rfl, lookups⟩ := run_scheduleTransition ran
  refine ⟨⟨transitions, rfl⟩, fun other same => ⟨t, ?_, live⟩⟩
  obtain rfl : ends = other := Option.some.inj (ends_.symm.trans same)
  rw [lookups, boundaryKey, ← key, Function.update_self]

theorem watched_of_endless {transition : Transition.Key → Option Transition.Task}
    (endless : b.periodEnd = none) : Watched C transition b := by
  intro ends same
  rw [endless] at same
  cases same

theorem run_scheduleBoundary {created : Instant}
    (ran : scheduleBoundary C b created store = .ok u after) :
    (∃ transitions, after = { store with transitions }) ∧ Watched C after.transitions.find? b := by
  unfold scheduleBoundary at ran
  cases ends_ : b.periodEnd with
  | none =>
    simp only [ends_, run_pure] at ran
    rw [← ran.2]
    exact ⟨⟨store.transitions, rfl⟩, watched_of_endless ends_⟩
  | some ends =>
    simp only [ends_] at ran
    exact watched_of_schedule ends_ ran

/-- A completed confirmation has a receipt, and a boundary if its change is immediate. -/
theorem run_complete {r : Receipt} (ran : complete C r store = .ok u after) :
    store.receipts.find? r.changeId = none ∧
      ∃ receipts transitions, after = { store with
        receipts, transitions, clock := store.clock.tick } ∧
        receipts.find? = Function.update store.receipts.find? r.changeId (some r) ∧
        (r.mode = .immediate → r.status = .applied ∨ r.status = .provisioning →
          Watched C transitions.find? r.after) := by
  simp only [complete, run_bind] at ran
  obtain ⟨_, _, inserted, created, _, read, scheduled⟩ := ran
  obtain ⟨absent, -, receipts, rfl, lookups⟩ := run_insertReceipt inserted
  obtain ⟨rfl, rfl⟩ := run_now.mp read
  refine ⟨absent, receipts, ?_⟩
  unfold scheduleCompletion at scheduled
  split at scheduled
  · rename_i reserved
    obtain ⟨_, transitions, -, -, rfl, -⟩ := run_scheduleTransition scheduled
    refine ⟨transitions, rfl, lookups, fun _ other => ?_⟩
    rw [reserved] at other
    rcases other with other | other <;> cases other
  · cases ends_ : r.after.periodEnd with
    | none =>
      simp only [ends_, run_pure] at scheduled
      obtain ⟨-, rfl⟩ := scheduled
      exact ⟨store.transitions, rfl, lookups, fun _ _ => watched_of_endless ends_⟩
    | some ends =>
      simp only [ends_] at scheduled
      split at scheduled
      · obtain ⟨⟨transitions, rfl⟩, watched⟩ := watched_of_schedule ends_ scheduled
        exact ⟨transitions, rfl, lookups, fun _ _ => watched⟩
      · rename_i other
        obtain ⟨-, rfl⟩ := run_pure.mp scheduled
        exact ⟨store.transitions, rfl, lookups, fun mode status => absurd ⟨mode, status⟩ other⟩

end Schedules

section Leases

variable {id : Transition.Key} {worker : String} {token : Nat} {at_ : Instant}
  {current next : Transition.Task}

theorem run_lockOwned (ran : lockOwned C id worker token store = .ok (current, at_) after) :
    current.id = id ∧ at_ = store.clock.now ∧ after = { store with clock := store.clock.tick } := by
  simp only [lockOwned, run_bind, run_read, run_demand, run_pure, Prod.mk.injEq] at ran
  obtain ⟨_, _, ⟨found, rfl⟩, _, _, read, _, _, ⟨-, rfl⟩, ⟨rfl, rfl⟩, rfl⟩ := ran
  obtain ⟨rfl, rfl⟩ := run_now.mp read
  exact ⟨(getTransition_ok found).2, rfl, rfl⟩

theorem run_finishTransition {state : Transition.State} {outcome : String}
    (ran : finishTransition C worker token current state outcome at_ store = .ok next after) :
    next.state = state ∧ ∃ transitions, after = { store with transitions } ∧
      transitions.find? = Function.update store.transitions.find? current.id (some next) := by
  simp only [finishTransition, run_bind, run_check, run_pure, mapError_ok] at ran
  obtain ⟨_, _, ⟨finished, rfl⟩, _, _, saved, rfl, rfl⟩ := ran
  obtain ⟨transitions, rfl, lookups⟩ := run_saveTransition saved
  have shape := Transition.Task.finish_ok finished
  exact ⟨by rw [shape]; rfl, transitions, rfl, lookups⟩

end Leases

section Previews

variable {id : String} {p : Preview}

/-- What a preview that can be read says about its change. -/
theorem named_of_preview (read : getPreview C id store = .ok (some p))
    (accepted : Text.key id = true) : Named id ∧ Whole p.input.effectiveAt := by
  obtain ⟨known, intact⟩ := getPreview_ok read
  have same : p.changeId = id := Table.key_of_find? known
  simp only [Preview.integrity, bind_ok, require_ok] at intact
  obtain ⟨-, ⟨-, valid, -, made, -⟩, -⟩ := intact
  refine ⟨⟨accepted, _, same.symm.trans made⟩, fun t asked => ?_⟩
  simp only [Input.validate, bind_ok, require_ok] at valid
  exact (valid.choose_spec.1 t asked).2.2.2

theorem key_of_receipt {r : Receipt} (read : getReceipt C id store = .ok (some r)) :
    Text.key id = true ∧ r.changeId = id := by
  obtain ⟨known, intact⟩ := getReceipt_ok read
  have same : r.changeId = id := Table.key_of_find? known
  rw [Receipt.integrity, require_ok] at intact
  exact ⟨same ▸ intact.2.2.1, same⟩

end Previews

section Bootstrap

variable {scope : String} {rules : List Rule} {rule : Rule} {version : Plan.Version}

/-- The loop over the rules reads only, and what it chooses is on sale. -/
theorem run_chooseRule
    (ran : chooseRule C S scope rules store = .ok (some (rule, version)) after) :
    after = store ∧ OnSale store.plans.find? version ∧ version.planCode = rule.planCode ∧
      version.number = rule.planVersion := by
  induction rules generalizing store with
  | nil =>
    simp only [chooseRule, run_pure] at ran
    cases ran.1
  | cons first rest ih =>
    unfold chooseRule at ran
    split at ran
    · obtain ⟨answer, _, asked, ran⟩ := run_bind.mp ran
      obtain ⟨eligible, rfl⟩ := run_read.mp asked
      split at ran
      · simp only [run_bind, run_check] at ran
        obtain ⟨p, _, ⟨projection, rfl⟩, _, _, ⟨-, rfl⟩, ran⟩ := ran
        split at ran
        · obtain ⟨⟨rfl, rfl⟩, rfl⟩ := ran
          unfold ruleEligibility at eligible
          split at eligible
          · rename_i answer checked
            cases eligible
            exact ⟨rfl, checkPlanEligibility_ok checked projection⟩
          · split at eligible <;> cases eligible
        · exact ih ran
      · exact ih ran
    · exact ih ran

/-- The sources of terms are the generation of the period that the terms give. -/
theorem sources_eq_generation {digest : String → String} {tenant sourceNamespace : String}
    {start : Instant} {t : Plan.Terms} :
    sources digest tenant sourceNamespace start t =
      generation digest tenant sourceNamespace start
        (if t.validityMode = .fixedDays then some (addDays start t.validityDays) else none) t := by
  unfold generation sources
  split
  · rw [List.map_map]
    rfl
  · refine (List.map_id _).symm.trans (List.map_congr_left fun s member => ?_)
    obtain ⟨m, -, inside⟩ := List.mem_flatMap.mp member
    rcases mem_moduleSources.mp inside with rfl | ⟨_, -, rfl⟩ | ⟨_, -, rfl⟩ | ⟨_, -, rfl⟩ <;> rfl

/-- The sources of a new subscription are written and can be read. -/
theorem run_grant {writes : List Source} {u : Unit}
    (ours : ∀ v ∈ writes, v.tenantId = C.tenant ∧ v.sourceKind = .plan)
    (ran : writes.forM (grantSource C) store = .ok u after)
    (readable : Readable C.encoding C.tenant store.entitlements) :
    Writes C writes store after ∧ Readable C.encoding C.tenant after.entitlements := by
  induction writes generalizing store with
  | nil =>
    rw [← run_forM_nil.mp ran]
    exact ⟨Writes.refl C store, readable⟩
  | cons v rest ih =>
    obtain ⟨⟨mine, kind⟩, others⟩ := List.forall_mem_cons.mp ours
    obtain ⟨_, granted, later⟩ := run_forM_cons.mp ran
    simp only [grantSource, run_bind, run_check, mapError_ok] at granted
    obtain ⟨⟨⟩, _, ⟨valid, rfl⟩, inserted⟩ := granted
    have written := writes_insertSource mine inserted
    obtain ⟨_, rfl, insertion⟩ := run_insertSource inserted
    obtain ⟨laterWrites, laterReadable⟩ := ih others later
      (mine ▸ Snapshot.readable_insert insertion valid (.inr (.inl kind)) (mine ▸ readable))
    exact ⟨written.trans laterWrites, laterReadable⟩

/-- What the ledger has after a tenant has got its first subscription. -/
structure Begins (C : Setting) (l l' : Ledger) (b : BaseSubscription) (version : Plan.Version) :
    Prop where
  later : l.time ≤ l'.time
  plans : l'.plan = l.plan
  receipts : l'.receipt = l.receipt
  absent : l.subscription = none
  saved : l'.subscription = some b
  revised : b.revision = 1
  valid : b.validate = .ok ()
  state : b.state = C.lifecycle.stateFor version.planCode version.number
  free : b.pendingChangeId = ""
  mine : b.tenantId = C.tenant
  named : b.sourceNamespace = subscriptionId C.digests.source C.tenant
  sold : OnSale l.plan version
  plan : b.planCode = version.planCode ∧ b.planVersion = version.number
  begun : b.periodStart ≤ l'.time
  whole : Whole b.periodEnd
  readable : l'.readable
  sources : l'.source = overwrite l.source (expectedSources C.digests.source b version)
  watched : Watched C l'.transition b

theorem run_saveBase {b : BaseSubscription} {u : Unit} (ran : saveBase C b store = .ok u after) :
    store.subscription = none ∧ store.clock.now ≤ after.clock.now ∧
      after = { store with
        subscription := some b, transitions := after.transitions, clock := after.clock } ∧
      Watched C after.transitions.find? b := by
  obtain ⟨_, _, inserted, scheduled⟩ := run_bind.mp ran
  obtain ⟨absent, rfl⟩ := run_insertBase inserted
  refine ⟨absent, ?_⟩
  cases ends_ : b.periodEnd with
  | none =>
    simp only [ends_, run_pure] at scheduled
    obtain ⟨-, rfl⟩ := scheduled
    exact ⟨le_refl _, rfl, watched_of_endless ends_⟩
  | some ends =>
    simp only [ends_, run_bind] at scheduled
    obtain ⟨_, _, read, scheduled⟩ := scheduled
    obtain ⟨rfl, rfl⟩ := run_now.mp read
    obtain ⟨⟨_, rfl⟩, watched⟩ := watched_of_schedule ends_ scheduled
    exact ⟨store.clock.now_le_tick, rfl, watched⟩

theorem run_grantDefault {b : BaseSubscription}
    (ran : grantDefault C S scope store = .ok b after) :
    ∃ version, Begins C (C.ledger store) (C.ledger after) b version := by
  obtain ⟨_, _, checked, rest⟩ := run_bind.mp ran
  obtain ⟨-, rfl⟩ := run_check.mp checked
  obtain ⟨choice, second, chosen, granting⟩ := run_bind.mp rest
  cases choice with
  | none => exact absurd (run_check.mp granting).1 (by simp)
  | some choice =>
    obtain ⟨_, version⟩ := choice
    obtain ⟨rfl, sold, code, number⟩ := run_chooseRule chosen
    simp only [run_bind, run_check, run_pure, mapError_ok] at granting
    obtain ⟨_, _, read, ⟨_, known⟩, _, locked, _, _, granted, _, _,
      advanced, ⟨⟩, _, ⟨valid, rfl⟩, _, last, saved, rfl, rfl⟩ := granting
    have clock := second.clock.now_whole
    obtain ⟨rfl, rfl⟩ := run_now.mp read
    obtain ⟨locking, rfl, kept, decoded, -⟩ := run_lockSources locked
    have readable : Readable C.encoding C.tenant locking :=
      (readable_congr kept).mpr ⟨known, decoded⟩
    rw [sources_eq_generation] at granted
    obtain ⟨written, readable⟩ := run_grant (fun v member =>
      ⟨(mem_generation member).1, (mem_generation member).2.1⟩) granted readable
    have added := written.source
    obtain ⟨_, rfl, -⟩ := written
    obtain ⟨_, rfl, advance⟩ := run_advance advanced
    obtain ⟨same, -⟩ := advance_frame advance
    obtain ⟨absent, later, frame, watched⟩ := run_saveBase saved
    rw [frame]
    have passed : second.clock.now ≤ last.clock.now := second.clock.now_le_tick.trans later
    refine ⟨version, ?_⟩
    constructor
    case later => exact passed
    case plans => rfl
    case receipts => rfl
    case absent => exact absent
    case saved => rfl
    case revised => rfl
    case valid => exact valid
    case state => rw [code, number]; rfl
    case free => rfl
    case mine => rfl
    case named => rfl
    case sold => exact sold
    case plan => exact ⟨code.symm, number.symm⟩
    case begun => exact passed
    case whole =>
      intro ends bounded
      simp only [defaultSubscription] at bounded
      split at bounded
      · cases bounded
        exact whole_addDays clock _
      · cases bounded
    case readable => exact (readable_congr same).mpr readable
    case sources =>
      refine (stored_congr same).trans (added.trans ?_)
      rw [stored_congr kept]
      rfl
    case watched => exact watched

end Bootstrap

end Biz.Change
