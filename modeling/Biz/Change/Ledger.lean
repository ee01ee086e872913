import Biz.Snapshot.Rows
import Biz.Change.Due

/-!
# The ledger of a tenant

What the records of a tenant say, as maps: its subscription, the plan versions, the
sources by identity, the previews, the receipts and the transitions. Views, caches and
tasks do not show in it. Each operation of the repositories has one lemma here that
says what a successful run has checked and what it leaves in the ledger.
-/

namespace Biz.Change

open Time Checks Transaction Subscription
open Entitlement (Source)
open Transition (Key canonicalTime)
open Function (update update_apply)

/-- The records of a tenant as maps. -/
structure Ledger where
  time : Instant
  subscription : Option BaseSubscription
  plan : String × Nat → Option Plan.Version
  source : String → Option Source
  /-- Every row of a source can be read. -/
  readable : Prop
  preview : String → Option Preview
  receipt : String → Option Receipt
  transition : Key → Option Transition.Task

/-- What the rows say. -/
def Setting.ledger (C : Setting) (store : Store) : Ledger where
  time := store.clock.now
  subscription := store.subscription
  plan := store.plans.find?
  source := Snapshot.stored C.encoding C.tenant store.entitlements
  readable := Snapshot.Readable C.encoding C.tenant store.entitlements
  preview := store.previews.find?
  receipt := store.receipts.find?
  transition := store.transitions.find?

/-- Time passes and the ledger stays. -/
def Quiet (C : Setting) (store after : Store) : Prop :=
  store.clock.now ≤ after.clock.now ∧
    C.ledger after = { C.ledger store with time := after.clock.now }

section Quiet

variable {C : Setting} {store middle after : Store}

/-- Nothing happens. -/
theorem Quiet.refl (C : Setting) (store : Store) : Quiet C store store := ⟨le_refl _, rfl⟩

/-- Quiet stretches compose. -/
theorem Quiet.trans (early : Quiet C store middle) (late : Quiet C middle after) :
    Quiet C store after := by
  refine ⟨early.1.trans late.1, ?_⟩
  rw [late.2, early.2]

section

variable (quiet : Quiet C store after)

include quiet

/-- The subscription stays. -/
theorem Quiet.subscription : after.subscription = store.subscription :=
  congrArg Ledger.subscription quiet.2

/-- The sources stay. -/
theorem Quiet.source :
    Snapshot.stored C.encoding C.tenant after.entitlements =
      Snapshot.stored C.encoding C.tenant store.entitlements := congrArg Ledger.source quiet.2

/-- The previews stay. -/
theorem Quiet.preview : after.previews.find? = store.previews.find? :=
  congrArg Ledger.preview quiet.2

/-- The receipts stay. -/
theorem Quiet.receipt : after.receipts.find? = store.receipts.find? :=
  congrArg Ledger.receipt quiet.2

/-- The transitions stay. -/
theorem Quiet.transition : after.transitions.find? = store.transitions.find? :=
  congrArg Ledger.transition quiet.2

/-- The ledger after rows are written. -/
theorem Quiet.written (subscription : Option BaseSubscription) (receipts : Table Receipt.changeId)
    (transitions : Table Transition.Task.id) :
    C.ledger { after with subscription, receipts, transitions } = { C.ledger store with
      time := after.clock.now, subscription, receipt := receipts.find?,
      transition := transitions.find? } := by
  have base : C.ledger { after with subscription, receipts, transitions } = { C.ledger after with
      subscription, receipt := receipts.find?, transition := transitions.find? } := rfl
  rw [base, quiet.2]

end

/-- Only the sources of the entitlement store show in the ledger. -/
theorem quiet_of_sources {entitlements : Snapshot.Store} {clock : Clock}
    (same : entitlements.sources = store.entitlements.sources)
    (later : store.clock.now ≤ clock.now) :
    Quiet C store { store with entitlements, clock } := by
  refine ⟨later, ?_⟩
  simp only [Setting.ledger, Snapshot.stored_congr same, Snapshot.readable_congr same]

end Quiet

section Operations

variable {C : Setting} {store after : Store} {t : Transition.Task} {r : Receipt} {id : String}
  {u : Unit}

/-- Each reading of the clock moves it on. -/
theorem run_now {t : Instant} : now store = .ok t after ↔
    store.clock.now = t ∧ { store with clock := store.clock.tick } = after := by
  rw [now, run_write, Except.ok.injEq, Prod.mk.injEq]

/-- A subscription that is read is that of the tenant. -/
theorem getBase_ok {b : BaseSubscription} (read : getBase C store = .ok b) :
    store.subscription = some b ∧ b.tenantId = C.tenant := by
  simp only [getBase, bind_ok, found_ok, require_ok, mapError_ok, pure_ok] at read
  obtain ⟨b, held, -, mine, -, -, rfl⟩ := read
  exact ⟨held, mine⟩

/-- The lock reads the subscription and writes nothing. -/
theorem run_lockTenant {b : BaseSubscription} (ran : lockTenant C store = .ok b after) :
    after = store ∧ store.subscription = some b ∧ b.tenantId = C.tenant := by
  simp only [lockTenant, run_read, bind_ok, mapError_ok] at ran
  obtain ⟨⟨-, -, read⟩, rfl⟩ := ran
  exact ⟨rfl, getBase_ok read⟩

/-- A corrupt subscription is an error, not a missing one. -/
theorem optionalBase_none (read : optionalBase C store = .ok none) : store.subscription = none := by
  cases held : store.subscription with
  | none => rfl
  | some b =>
    have other : getBase C store ≠ .error (.subscription .notFound) := by
      intro failed
      simp only [getBase, held, found, ok_bind, bind_error, require_error] at failed
      rcases failed with ⟨-, error⟩ | ⟨-, -, refused | ⟨-, -, done⟩⟩
      · cases error
      · cases valid : b.validate with
        | ok => simp [valid, Except.mapError] at refused
        | error error =>
          rw [BaseSubscription.validate_error valid] at valid
          simp [valid, Except.mapError] at refused
      · cases done
    unfold optionalBase at read
    split at read
    · cases read
    · rename_i error failed
      split at read
      · rename_i missing
        exact absurd (missing ▸ failed) other
      · cases read

/-- A saved subscription is valid, with the next revision. -/
theorem run_saveCurrent {before a : BaseSubscription}
    (ran : saveCurrent before a store = .ok u after) :
    after = { store with subscription := some a } ∧ a.revision = before.revision + 1 ∧
      a.validate = .ok () := by
  simp only [saveCurrent, run_write, bind_ok, require_ok, found_ok, pure_ok, Prod.mk.injEq] at ran
  obtain ⟨-, ⟨-, -, -, -, next, valid⟩, -, -, -, -, -, rfl⟩ := ran
  exact ⟨rfl, next, valid⟩

/-- A tenant gets a subscription only if it has none. -/
theorem run_insertBase {a : BaseSubscription} (ran : insertBase a store = .ok u after) :
    store.subscription = none ∧ after = { store with subscription := some a } := by
  simp only [insertBase, run_write, bind_ok, require_ok, pure_ok, Prod.mk.injEq] at ran
  obtain ⟨-, absent, -, rfl⟩ := ran
  exact ⟨absent, rfl⟩

/-- An operation on the entitlement store leaves the other tables. -/
theorem run_entitled {α : Type} {f : Snapshot.Store → Except Snapshot.Err (α × Snapshot.Store)}
    {value : α} (ran : entitled f store = .ok value after) :
    ∃ entitlements, f store.entitlements = .ok (value, entitlements) ∧
      after = { store with entitlements } := by
  simp only [entitled, run_write, bind_ok, mapError_ok, pure_ok, Prod.mk.injEq] at ran
  obtain ⟨⟨_, entitlements⟩, done, rfl, rfl⟩ := ran
  exact ⟨entitlements, done, rfl⟩

/-- Locking the sources reads all of them and changes none. -/
theorem run_lockSources {version : Nat} {sources : List Source}
    (ran : lockSources C store = .ok (version, sources) after) :
    ∃ entitlements, after = { store with entitlements } ∧
      entitlements.sources = store.entitlements.sources ∧
      Snapshot.decodeSources C.encoding C.tenant (store.entitlements.rowsOf C.tenant) =
        .ok sources ∧
      entitlements.version C.tenant = version := by
  obtain ⟨_, done, rfl⟩ := run_entitled ran
  simp only [bind_ok, pure_ok, Prod.mk.injEq] at done
  obtain ⟨⟨_, _, _⟩, taken, ⟨rfl, rfl⟩, rfl⟩ := done
  obtain ⟨shape, decoded, -, version⟩ := Snapshot.lock_frame taken
  exact ⟨_, rfl, by rw [shape], decoded, version⟩

/-- The unit value of an operation is dropped. -/
theorem map_unit_ok {ε α : Type} {x : Except ε α} {value : α}
    (done : x.map (fun after => ((), after)) = .ok (u, value)) : x = .ok value := by
  cases x <;> simp_all [Except.map]

/-- An insertion is one of the entitlement store. -/
theorem run_insertSource {s : Source} (ran : insertSource C s store = .ok u after) :
    ∃ entitlements, after = { store with entitlements } ∧
      Snapshot.insert C.encoding s store.entitlements = .ok entitlements := by
  obtain ⟨entitlements, done, rfl⟩ := run_entitled ran
  exact ⟨entitlements, rfl, map_unit_ok done⟩

/-- A revocation is one of the entitlement store. -/
theorem run_revokeSource {s : Source} {expected : Nat}
    (ran : revokeSource C s expected store = .ok u after) :
    ∃ entitlements, after = { store with entitlements } ∧
      Snapshot.revoke C.encoding s expected store.entitlements = .ok entitlements := by
  obtain ⟨entitlements, done, rfl⟩ := run_entitled ran
  exact ⟨entitlements, rfl, map_unit_ok done⟩

/-- An advance is one of the entitlement store. -/
theorem run_advance {expected : Nat} (ran : advance C expected store = .ok u after) :
    ∃ entitlements, after = { store with entitlements } ∧
      Snapshot.advance C.tenant expected store.entitlements = .ok entitlements := by
  obtain ⟨entitlements, done, rfl⟩ := run_entitled ran
  exact ⟨entitlements, rfl, map_unit_ok done⟩

/-- A view is of the current version, and newer than an invalidated one. -/
theorem run_readSnapshot {cache : Snapshot.Cache} {view : Entitlement.Result}
    (ran : readSnapshot C cache store = .ok view after) :
    ∃ entitlements, after = { store with entitlements, clock := store.clock.tick } ∧
      entitlements.sources = store.entitlements.sources ∧
      Snapshot.Readable C.encoding C.tenant store.entitlements ∧
      view.sourceVersion = store.entitlements.version C.tenant ∧
      entitlements.version C.tenant = store.entitlements.version C.tenant ∧
      entitlements.viewVersion C.tenant = view.entitlementVersion ∧
      ((∀ h, store.entitlements.heads.find? C.tenant = some h → h.invalidated = true) →
        store.entitlements.viewVersion C.tenant < view.entitlementVersion) := by
  simp only [readSnapshot, run_write, bind_ok, require_ok, mapError_ok, pure_ok,
    Prod.mk.injEq] at ran
  obtain ⟨-, -, ⟨_, entitlements⟩, returned, rfl, rfl⟩ := ran
  obtain ⟨same, readable, version, source, stamp, newer⟩ := Snapshot.locked_ok returned
  exact ⟨entitlements, rfl, same, readable, source, version, stamp, newer⟩

/-- Reading a view is quiet. -/
theorem quiet_readSnapshot {cache : Snapshot.Cache} {view : Entitlement.Result}
    (ran : readSnapshot C cache store = .ok view after) : Quiet C store after := by
  obtain ⟨_, rfl, same, -⟩ := run_readSnapshot ran
  exact quiet_of_sources same store.clock.now_le_tick

/-- Reading the clock is quiet. -/
theorem quiet_now {t : Instant} (ran : now store = .ok t after) :
    Quiet C store after ∧ t ≤ after.clock.now := by
  obtain ⟨rfl, rfl⟩ := run_now.mp ran
  exact ⟨quiet_of_sources rfl store.clock.now_le_tick, store.clock.now_le_tick⟩

/-- A preview that is read is stored and intact. -/
theorem getPreview_ok {p : Preview} (read : getPreview C id store = .ok (some p)) :
    store.previews.find? id = some p ∧ p.integrity C.digests = .ok () := by
  unfold getPreview at read
  split at read
  · cases read
  · rename_i row found
    split at read
    · simp only [bind_ok, pure_ok, Option.some.injEq] at read
      obtain ⟨⟨⟩, intact, rfl⟩ := read
      exact ⟨found, intact⟩
    · cases read

/-- A receipt that is read is stored and intact. -/
theorem getReceipt_ok (read : getReceipt C id store = .ok (some r)) :
    store.receipts.find? id = some r ∧ r.integrity C.digests = .ok () := by
  unfold getReceipt at read
  split at read
  · cases read
  · rename_i row found
    split at read
    · simp only [bind_ok, pure_ok, Option.some.injEq] at read
      obtain ⟨⟨⟩, intact, rfl⟩ := read
      exact ⟨found, intact⟩
    · cases read

/-- A change has one receipt, which is intact. -/
theorem run_insertReceipt (ran : insertReceipt C r store = .ok u after) :
    store.receipts.find? r.changeId = none ∧ r.integrity C.digests = .ok () ∧
      ∃ receipts, after = { store with receipts } ∧
        receipts.find? = update store.receipts.find? r.changeId (some r) := by
  simp only [insertReceipt, run_write, bind_ok, found_ok, pure_ok, Prod.mk.injEq] at ran
  obtain ⟨⟨⟩, intact, receipts, inserted, -, rfl⟩ := ran
  refine ⟨(Table.insert?_eq_some inserted).1, intact, receipts, rfl, funext fun id => ?_⟩
  rw [Table.find?_of_insert? inserted, update_apply]

/-- An update replaces the receipt of its change. -/
theorem run_updateReceipt {next : Receipt} (ran : updateReceipt C r next store = .ok u after) :
    ∃ receipts, after = { store with receipts } ∧
      receipts.find? = update store.receipts.find? r.changeId (some next) := by
  simp only [updateReceipt, run_write, bind_ok, require_ok, found_ok, pure_ok, Prod.mk.injEq] at ran
  obtain ⟨-, ⟨same, -⟩, row, found, -, -, -, rfl⟩ := ran
  refine ⟨_, rfl, funext fun id => ?_⟩
  have key : row.changeId = next.changeId := (Table.key_of_find? found).trans same
  rw [Table.find?_update, update_apply, found, Option.map_some, Receipt.moved, key]

/-- A new task does not show in the ledger. -/
theorem run_insertTask {t : Provisioning.Task} (ran : insertTask C t store = .ok u after) :
    ∃ tasks, after = { store with tasks } := by
  simp only [insertTask, run_write, bind_ok, require_ok, found_ok, pure_ok, Prod.mk.injEq] at ran
  obtain ⟨-, -, tasks, -, -, rfl⟩ := ran
  exact ⟨tasks, rfl⟩

/-- Locking a task writes nothing. -/
theorem run_lockTask {t : Provisioning.Task} (ran : lockTask C id store = .ok t after) :
    after = store := by
  simp only [lockTask, run_bind, run_read, run_demand, run_pure] at ran
  obtain ⟨b, _, locked, _, _, ⟨-, rfl⟩, _, _, ⟨-, rfl⟩, _, _, ⟨-, rfl⟩, -, rfl⟩ := ran
  exact (run_lockTenant locked).1

/-- A transition that is read is stored under its key. -/
theorem getTransition_ok {id : Key} (read : getTransition C id store = .ok t) :
    store.transitions.find? id = some t ∧ t.id = id := by
  simp only [getTransition, bind_ok, found_ok, mapError_ok, pure_ok] at read
  obtain ⟨t, found, -, -, rfl⟩ := read
  exact ⟨found, Table.key_of_find? found⟩

/-- After an insertion the transition is there, whether or not it was before. -/
theorem run_insertTransition (ran : insertTransition C t store = .ok u after) :
    ∃ transitions, after = { store with transitions } ∧
      transitions.find? = update store.transitions.find? t.id (some t) := by
  simp only [insertTransition, run_write, bind_ok, mapError_ok] at ran
  obtain ⟨-, -, ran⟩ := ran
  split at ran
  · rename_i transitions inserted
    obtain ⟨-, rfl⟩ := ran
    refine ⟨transitions, rfl, funext fun id => ?_⟩
    rw [Table.find?_of_insert? inserted, update_apply]
  · simp only [bind_ok, require_ok, pure_ok, Prod.mk.injEq] at ran
    obtain ⟨-, present, -, rfl⟩ := ran
    exact ⟨store.transitions, rfl, by rw [← present, Function.update_eq_self]⟩

/-- A saved transition replaces the one with its key. -/
theorem run_saveTransition {next : Transition.Task}
    (ran : saveTransition C t next store = .ok u after) :
    ∃ transitions, after = { store with transitions } ∧
      transitions.find? = update store.transitions.find? t.id (some next) := by
  simp only [saveTransition, run_write, bind_ok, require_ok, mapError_ok, pure_ok,
    Prod.mk.injEq] at ran
  obtain ⟨-, ⟨same, -⟩, -, -, -, found, -, rfl⟩ := ran
  refine ⟨_, rfl, funext fun id => ?_⟩
  rw [Table.find?_update, update_apply, found, Option.map_some, movedTransition, same]

/-- A scheduled transition is live, at the canonical instant. -/
theorem run_scheduleTransition {kind : Transition.Kind} {authority timezone : String}
    {version : Nat} {due created : Instant}
    (ran : scheduleTransition C kind authority version due created timezone store =
      .ok u after) :
    ∃ t transitions, t.id = ⟨kind, C.tenant, authority, version, canonicalTime due⟩ ∧ t.live ∧
      after = { store with transitions } ∧
      transitions.find? = update store.transitions.find? t.id (some t) := by
  simp only [scheduleTransition, run_bind, run_check, mapError_ok] at ran
  obtain ⟨t, _, ⟨made, rfl⟩, inserted⟩ := ran
  obtain ⟨transitions, rfl, lookups⟩ := run_insertTransition inserted
  have shape := Transition.newInTimezone_ok made
  exact ⟨t, transitions, by rw [shape, Transition.queued], by rw [shape]; rfl, rfl, lookups⟩

end Operations

end Biz.Change
