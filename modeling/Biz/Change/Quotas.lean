import Biz.Change.Classify
import Biz.Change.Reservations

/-!
# Reductions that are vouched for

Before a change takes effect, the quotas that it changes are put to an evaluator, which
may answer anything. `CheckQuotaReport` compares the report with the question item by
item, and accepts a reduction only with known usage that fits the new limit.

A change may be confirmed with a check that is put off. Whatever path it takes then, the
transaction that applies it asks again, about the terms of the plan that the tenant has
and the one that it gets.
-/

namespace Biz.Change

open Time Checks Transaction Subscription Runs
open Provisioning (Completion)

section Reports

/-- An item of a report answers the item that was asked about: it repeats it, and if the
limit is reduced it knows a usage within the new limit. -/
structure Answers (asked q : QuotaImpact) : Prop where
  echoed : q.moduleCode = asked.moduleCode ∧ q.key = asked.key ∧ q.before = asked.before ∧
    q.after = asked.after
  reduced : less q.after q.before = true →
    q.usageKnown = true ∧ q.evidence ≠ "" ∧ q.used ≤ q.after.value ∧ q.overLimit = false

/-- The loop of an immediate change accepts answers only. Proof: induction on the pairs. -/
theorem answers_of_checkReports {deferred result : Bool} {pairs : List (QuotaImpact × QuotaImpact)}
    (checked : checkReports .immediate deferred pairs = .ok result) :
    ∀ pair ∈ pairs, Answers pair.1 pair.2 := by
  induction pairs with
  | nil => simp
  | cons pair rest ih =>
    obtain ⟨asked, q⟩ := pair
    simp only [checkReports, bind_ok, require_ok] at checked
    obtain ⟨-, ⟨code, key, before, after, -⟩, checked⟩ := checked
    rw [List.forall_mem_cons]
    by_cases reduces : less q.after q.before = true
    · rw [if_pos reduces] at checked
      simp only [bind_ok, require_ok] at checked
      obtain ⟨-, evidence, -, flag, checked⟩ := checked
      split at checked
      · simp only [bind_ok, require_ok] at checked
        exact absurd rfl checked.choose_spec.1
      · rename_i fits
        simp only [Bool.or_eq_true, Bool.not_eq_true', not_or, Bool.not_eq_false,
          Bool.not_eq_true] at fits
        obtain ⟨known, within⟩ := fits
        have finite : q.after.unlimited = false := by
          simp only [less, Bool.and_eq_true, Bool.not_eq_true'] at reduces
          exact reduces.1
        refine ⟨⟨⟨code, key, before, after⟩, fun _ => ⟨known, evidence known, ?_, ?_⟩⟩,
          ih checked⟩
        · simpa [known, finite] using within
        · rw [flag, within]
    · rw [if_neg reduces] at checked
      exact ⟨⟨⟨code, key, before, after⟩, fun other => absurd other reduces⟩,
        ih checked⟩

variable {requested report : List QuotaImpact}

/-- The report of an immediate change answers what was asked, item by item. -/
theorem answers_of_report {deferred : Bool}
    (checked : checkQuotaReport requested report .immediate = .ok deferred) :
    List.Forall₂ Answers requested report := by
  simp only [checkQuotaReport, bind_ok, require_ok] at checked
  obtain ⟨-, sizes, checked⟩ := checked
  rw [List.forall₂_iff_zip]
  exact ⟨sizes, fun {asked q} member => answers_of_checkReports checked (asked, q) member⟩

/-- Every item that was asked about has an answer. -/
theorem exists_answer {asked : QuotaImpact} (answers : List.Forall₂ Answers requested report)
    (member : asked ∈ requested) : ∃ q ∈ report, Answers asked q := by
  induction answers with
  | nil => cases member
  | cons first rest ih =>
    rcases List.mem_cons.mp member with rfl | later
    · exact ⟨_, List.mem_cons_self, first⟩
    · obtain ⟨q, inside, answer⟩ := ih later
      exact ⟨q, List.mem_cons_of_mem _ inside, answer⟩

end Reports

/-- Terms that stay change no limit. -/
theorem quotaChanges_self (a : Plan.Terms) : quotaChanges a a = [] := by
  refine List.filterMap_eq_nil_iff.mpr fun text _ => ?_
  cases lastEntry (quotaEntries a ++ quotaEntries a) text with
  | none => rfl
  | some entry => exact if_neg (fun differs => differs rfl)

section Records

/-- The terms of the plan of the tenant, as changes read them. -/
def Store.terms (store : Store) : Plan.Terms :=
  match store.subscription.bind fun b => store.plans.find? (b.planCode, b.planVersion) with
  | some v => (projected v).terms
  | none => noPlan.terms

/-- The records that say which terms a tenant has and which changes have taken effect. -/
def SameRecords (store after : Store) : Prop :=
  after.plans.find? = store.plans.find? ∧ after.receipts.find? = store.receipts.find? ∧
    after.subscription = store.subscription

variable {C : Setting} {S : Services} {store middle after : Store}

instance : Std.Refl SameRecords := ⟨fun _ => ⟨rfl, rfl, rfl⟩⟩

instance : Trans SameRecords SameRecords SameRecords where
  trans first second :=
    ⟨second.1.trans first.1, second.2.1.trans first.2.1, second.2.2.trans first.2.2⟩

theorem Quiet.records (quiet : Quiet C store after) : SameRecords store after :=
  ⟨congrArg Ledger.plan quiet.2, quiet.receipt, quiet.subscription⟩

theorem terms_of_plan {b : BaseSubscription} {v : Plan.Version}
    (held : store.subscription = some b)
    (found : store.plans.find? (b.planCode, b.planVersion) = some v) :
    store.terms = (projected v).terms := by
  simp only [Store.terms, held, Option.bind_some, found]

theorem keeps_entitled {α : Type}
    (f : Snapshot.Store → Except Snapshot.Err (α × Snapshot.Store)) :
    Keeps SameRecords (entitled f) := by
  refine .write fun store value after done => ?_
  obtain ⟨_, -, rfl⟩ := run_entitled (run_write.mpr done)
  exact ⟨rfl, rfl, rfl⟩

theorem keeps_view (C : Setting) (cache : Snapshot.Cache) :
    Keeps SameRecords (readSnapshot C cache) := by
  refine .write fun store value after done => ?_
  exact (quiet_readSnapshot (C := C) (run_write.mpr done)).records

theorem keeps_insertTask (C : Setting) (t : Provisioning.Task) :
    Keeps SameRecords (insertTask C t) := by
  refine .write fun store value after done => ?_
  obtain ⟨_, rfl⟩ := run_insertTask (run_write.mpr done)
  exact ⟨rfl, rfl, rfl⟩

theorem keeps_publish (C : Setting) (S : Services) (m : Material) :
    Keeps SameRecords (publish C S m) := by
  refine .bind (keeps_entitled _) fun _ => ?_
  refine .bind (keeps_view C _) fun _ => ?_
  exact .bind (.demand _ _) fun _ => .pure _

/-- Sources are applied without a change of the records. -/
theorem keeps_applyChange (C : Setting) (S : Services) (action : Action) (m : Material)
    (b : BaseSubscription) (id : String) (start : Instant) (ends : Option Instant) :
    Keeps SameRecords (applyChange C S action m b id start ends) := by
  have inserts : ∀ v, Keeps SameRecords (do
      check ((Entitlement.Source.validate v m.catalog).mapError .source)
      insertSource C v) := fun v =>
    Keeps.bind (.check _) fun _ => keeps_entitled _
  have publishes : ∀ b' : BaseSubscription, Keeps SameRecords (do
      let view ← publish C S m
      return (b', view)) := fun b' =>
    Keeps.bind (keeps_publish C S m) fun _ => .pure _
  unfold applyChange
  split
  · refine .bind (.check _) fun _ => ?_
    refine .bind (.forM (fun v => ?_) _)
      fun _ => publishes _
    unfold writeInitialSource
    split
    · exact .pure _
    · exact inserts v
  · refine .bind (.check _) fun _ => ?_
    refine .bind (.forM (fun v => ?_) _)
      fun _ => publishes _
    unfold writeSource
    split
    · split
      · exact keeps_entitled _
      · exact .pure _
    · exact inserts v

theorem keeps_installTimeFence (C : Setting) (S : Services) (m : Material) (b : BaseSubscription)
    (due : Instant) : Keeps SameRecords (installTimeFence C S m b due) := by
  refine .bind
    (.forM (fun v => keeps_entitled _) _) fun _ => ?_
  split
  · exact .pure _
  · refine .bind (keeps_publish C S m) fun _ => ?_
    exact .bind (.demand _ _) fun _ => .pure _

/-- The branches of a confirmation leave the records to its last writes. -/
theorem keeps_execute (C : Setting) (S : Services) (r : Confirmation) (a : Admission) :
    Keeps SameRecords (execute C S r a) := by
  unfold execute
  split
  · split
    · refine .bind (keeps_entitled _) fun _ => ?_
      refine .bind (keeps_view C _) fun _ => ?_
      refine .bind (.demand _ _) fun _ => ?_
      refine .bind (.check _) fun _ => ?_
      refine .bind (.demand _ _) fun _ => ?_
      exact .bind (keeps_insertTask C _) fun _ => .pure _
    · refine .bind (.check _) fun _ => ?_
      exact .bind (keeps_insertTask C _) fun _ => .pure _
  · split
    · exact .bind (keeps_installTimeFence C S _ _ _) fun _ =>
        Keeps.pure _
    · split
      · exact .pure _
      · exact .bind (keeps_applyChange C S _ _ _ _ _ _) fun _ =>
          Keeps.pure _

end Records

section Questions

variable {C : Setting} {S : Services} {store middle after : Store} {m : Material} {i : Input}
  {raw b : BaseSubscription} {old : Plan.Terms}

/-- The evaluator has answered for every limit that changes. -/
def Vouched (S : Services) (old target : Plan.Terms) : Prop :=
  ∃ start report, S.quotas .immediate start (quotaChanges old target) = .ok report ∧
    List.Forall₂ Answers (quotaChanges old target) report

/-- The evaluator has answered for the terms that a change gives to a tenant. A first
activation that was prepared compares them with no plan, and finds them in place. -/
def Accounted (S : Services) (store after : Store) : Prop :=
  ∃ old, (old = store.terms ∨ old = noPlan.terms ∧ store.terms = after.terms) ∧
    Vouched S old after.terms

/-- The terms that a change is asked about are those of stored plans. -/
structure Asks (store : Store) (i : Input) (m : Material) (old : Plan.Terms) : Prop where
  old : m.old.terms = old
  target : ∃ w, store.plans.find? (m.target.planCode, m.target.number) = some w ∧
    m.target = projected w
  same : i.action = .stopRenewal → m.target = m.old

theorem Asks.quotasOf (asks : Asks store i m old) :
    quotasOf i.action m = quotaChanges old m.target.terms := by
  unfold Change.quotasOf
  split
  · rename_i stop
    rw [asks.same stop, asks.old, quotaChanges_self]
  · rw [asks.old]

/-- What the tenant has after the change is the target. -/
theorem Asks.terms (asks : Asks store i m old) (plans : after.plans.find? = store.plans.find?)
    (saved : after.subscription = some b)
    (given : b.planCode = m.target.planCode ∧ b.planVersion = m.target.number) :
    after.terms = m.target.terms := by
  obtain ⟨w, found, target⟩ := asks.target
  rw [target]
  apply terms_of_plan saved
  rw [plans, given.1, given.2]
  exact found

/-- An answer for what is asked about vouches for what the tenant gets. -/
theorem Asks.vouched {start : Instant} {report : List QuotaImpact} {deferred : Bool}
    (asks : Asks store i m old) (terms : after.terms = m.target.terms)
    (asked : S.quotas .immediate start (Change.quotasOf i.action m) = .ok report)
    (checked : checkQuotaReport (Change.quotasOf i.action m) report .immediate = .ok deferred) :
    Vouched S old after.terms := by
  rw [asks.quotasOf, ← terms] at asked checked
  exact ⟨start, report, asked, answers_of_report checked⟩

theorem asks_of_captured (captured : Captured C (C.ledger store) raw i m)
    (held : store.subscription = some raw) : Asks store i m store.terms := by
  obtain ⟨v, found, old⟩ := captured.old
  have keys : v.planCode = raw.planCode ∧ v.number = raw.planVersion := by
    have key := Table.key_of_find? found
    exact ⟨congrArg Prod.fst key, congrArg Prod.snd key⟩
  constructor
  case old =>
    rw [old]
    exact (terms_of_plan held found).symm
  case target =>
    by_cases stop : i.action = .stopRenewal
    · refine ⟨v, ?_, (captured.kept stop).trans old⟩
      rw [captured.kept stop, old]
      change store.plans.find? (v.planCode, v.number) = some v
      rw [keys.1, keys.2]
      exact found
    · obtain ⟨⟨w, sold, -, -, target⟩, -⟩ := captured.target stop
      exact ⟨w, sold, target⟩
  case same => exact captured.kept

theorem run_captureInitial (ran : captureInitial C S i store = .ok m after) :
    Quiet C store after ∧ Asks store i m noPlan.terms ∧
      m.target.planCode = i.targetPlanCode ∧ m.target.number = i.targetPlanVersion := by
  obtain ⟨⟨initial, -⟩, ran⟩ := run_demand_bind.mp ran
  obtain ⟨_, _, resolved, rest⟩ := run_bind.mp ran
  obtain ⟨rfl, ⟨w, sold, -, -, same⟩, code, number⟩ := run_resolveTarget resolved
  obtain ⟨_, -, rest⟩ := run_check_bind.mp rest
  obtain ⟨⟨_, _⟩, _, locked, rest⟩ := run_bind.mp rest
  obtain ⟨-, rest⟩ := run_demand_bind.mp rest
  obtain ⟨-, rest⟩ := run_demand_bind.mp rest
  obtain ⟨_, read, rfl⟩ := run_bind_pure.mp rest
  have early := (keeps_lockSources C).1 _ _ _ locked
  refine ⟨early.trans (run_readCurrent read).1, ⟨rfl, ⟨w, sold, same⟩, ?_⟩, code, number⟩
  intro stop
  rw [initial] at stop
  cases stop

end Questions

section Transactions

variable {C : Setting} {S : Services} {store middle after : Store} {m : Material} {i : Input}
  {raw b : BaseSubscription} {view : Entitlement.Result} {id : String}

section Confirm

variable {r : Confirmation} {a : Admission} {current : Option BaseSubscription}
  {receipt x : Receipt}

/-- A confirmation asks about the plan that the tenant has and its target. -/
theorem asks_of_admission {first : Store} (locked : lockCurrent C r i store = .ok current first)
    (admits : admission C S r current first = .ok a middle) :
    SameRecords store middle ∧ Asks store a.preview.input a.material store.terms ∧
      (a.preview.input.action = .stopRenewal →
        a.material.before.planCode = a.material.target.planCode ∧
          a.material.before.planVersion = a.material.target.number) := by
  obtain ⟨early, absent, present⟩ := run_lockCurrent locked
  obtain ⟨_, _, _, _, _, -, clock, material, -, -, -, clock', -⟩ := admission_steps admits
  have passed := early.trans (quiet_now (C := C) clock).1
  have passed' := (quiet_now (C := C) clock').1
  by_cases initial : a.preview.input.action = .initial
  · have free := absent (none_of_admission admits initial)
    rw [confirmedMaterial, if_pos initial] at material
    obtain ⟨-, material⟩ := run_demand_bind.mp material
    obtain ⟨-, -, material⟩ := run_check_bind.mp material
    obtain ⟨quiet, asks, -⟩ := run_captureInitial material
    have terms : store.terms = noPlan.terms := by
      rw [Store.terms, free]
      rfl
    refine ⟨((passed.trans quiet).trans passed').records, ⟨?_, ?_, asks.same⟩, ?_⟩
    · rw [terms]
      exact asks.old
    · rw [← passed.records.1]
      exact asks.target
    · intro stop
      rw [initial] at stop
      cases stop
  · obtain ⟨-, captures⟩ := run_confirmedMaterial initial material
    obtain ⟨captured, quiet, -⟩ := run_capture captures
    have normal := captured.normalized
    have frame := normalize_frame normal
    simp only [normalize, bind_ok, require_ok] at normal
    obtain ⟨-, ⟨code, number, valid⟩, -⟩ := normal
    cases current with
    | none => cases valid
    | some raw =>
      refine ⟨((passed.trans quiet).trans passed').records,
        asks_of_captured (captured.of_quiet passed) (present raw rfl).1, fun stop => ?_⟩
      rw [captured.kept stop, frame]
      exact ⟨code, number⟩

/-- What the writes of a confirmation leave in the records. -/
theorem records_of_settle (ran : settle C S r a store = .ok receipt after) :
    ∃ b, after.subscription = some b ∧ after.plans.find? = store.plans.find? ∧
      after.receipts.find? =
        Function.update store.receipts.find? r.changeId (some receipt) ∧
      (receipt.status = .applied → a.mode = .immediate ∧
        if a.preview.input.action = .stopRenewal then
          b.planCode = (confirmedSubscription C r a).planCode ∧
            b.planVersion = (confirmedSubscription C r a).planVersion
        else b.planCode = a.material.target.planCode ∧
          b.planVersion = a.material.target.number) := by
  obtain ⟨⟨x, b⟩, first, executes, ran⟩ := run_bind.mp ran
  obtain ⟨_, second, saves, ran⟩ := run_bind.mp ran
  obtain ⟨_, completes, rfl⟩ := run_bind_pure.mp ran
  have records := (keeps_execute C S r a).1 _ _ _ executes
  have saved : second = { first with subscription := some b } := by
    unfold saveConfirmed at saves
    split at saves
    · obtain ⟨-, saves⟩ := run_demand_bind.mp saves
      obtain ⟨_, -, saves⟩ := run_read_bind.mp saves
      obtain ⟨-, saves⟩ := run_demand_bind.mp saves
      exact (run_insertBase saves).2
    · exact (run_saveCurrent saves).1
  subst saved
  obtain ⟨-, _, _, rfl, lookups, -⟩ := run_complete completes
  have key : x.changeId = r.changeId := by
    rw [(confirmed_of_execute executes).1]
    rfl
  refine ⟨b, rfl, records.1, ?_, (confirmed_of_execute executes).2⟩
  refine lookups.trans ?_
  rw [records.2.1]
  exact congrArg (fun id => Function.update store.receipts.find? id _) key

/-- A confirmation that takes effect has asked. -/
theorem accounted_of_confirm (ran : confirm C S r store = .ok receipt after)
    (stored : after.receipts.find? id = some x) (applied : x.status = .applied)
    (new : ∀ known, store.receipts.find? id = some known → known.status ≠ .applied) :
    Accounted S store after := by
  rcases confirm_steps ran with ⟨quiet, -⟩ | ⟨-, hint, current, first, a, middle, locked, admits,
    settles⟩
  · rw [quiet.receipt] at stored
    exact absurd applied (new x stored)
  obtain ⟨same, asks, kept⟩ := asks_of_admission locked admits
  obtain ⟨b, saved, plans, receipts, effective⟩ := records_of_settle settles
  rw [receipts, same.2.1] at stored
  by_cases mine : id = r.changeId
  · subst mine
    rw [Function.update_self, Option.some.injEq] at stored
    subst stored
    obtain ⟨immediate, plan⟩ := effective applied
    obtain ⟨_, start, _, _, _, -, -, -, -, -, -, -, -, asked, checked⟩ := admission_steps admits
    have given : b.planCode = a.material.target.planCode ∧
        b.planVersion = a.material.target.number := by
      split at plan
      · rename_i stop
        rw [confirmedSubscription_change (by rw [stop]; decide)] at plan
        exact ⟨plan.1.trans (kept stop).1, plan.2.trans (kept stop).2⟩
      · exact plan
    have terms := asks.terms (plans.trans same.1) saved given
    rw [immediate] at asked checked
    exact ⟨store.terms, .inl rfl, asks.vouched terms asked checked⟩
  · rw [Function.update_of_ne mine] at stored
    exact absurd applied (new x stored)

end Confirm

section Prepared

variable {taskId worker : String} {token : Nat} {x : Preparation} {done : Completion}

/-- A completion asks about the plan that the tenant has and its target. That of a first
activation is in place already. -/
theorem asks_of_prepare (held : store.subscription = some raw)
    (ran : prepare C S taskId worker token raw store = .ok x after) :
    SameRecords store after ∧
      (Asks store x.preview.input x.material store.terms ∨
        Asks store x.preview.input x.material noPlan.terms ∧
          raw.planCode = x.material.target.planCode ∧
          raw.planVersion = x.material.target.number) := by
  obtain ⟨_, _, _, clock, -, -, material, clock', -⟩ := prepare_steps ran
  have passed := (quiet_now (C := C) clock).1
  have passed' := (quiet_now (C := C) clock').1
  unfold preparedMaterial at material
  split at material
  · obtain ⟨⟨-, -, code, number, -⟩, material⟩ := run_demand_bind.mp material
    obtain ⟨quiet, asks, code', number'⟩ := run_captureInitial material
    refine ⟨((passed.trans quiet).trans passed').records,
      .inr ⟨⟨asks.old, ?_, asks.same⟩, code.trans code'.symm, number.trans number'.symm⟩⟩
    rw [← passed.records.1]
    exact asks.target
  · obtain ⟨captured, quiet, -⟩ := run_capture material
    exact ⟨((passed.trans quiet).trans passed').records,
      .inl (asks_of_captured (captured.of_quiet passed) held)⟩

/-- What the writes of a completion leave in the records. -/
theorem records_of_activate (ran : activate C S raw x store = .ok done after) :
    ∃ b, after.subscription = some b ∧ after.plans.find? = store.plans.find? ∧
      b.planCode = x.material.target.planCode ∧ b.planVersion = x.material.target.number := by
  obtain ⟨⟨b, _⟩, _, applies, ran⟩ := run_bind.mp ran
  obtain ⟨_, _, saves, ran⟩ := run_bind.mp ran
  obtain ⟨_, _, updates, ran⟩ := run_bind.mp ran
  obtain ⟨_, schedules, -⟩ := run_bind_pure.mp ran
  have records := (keeps_applyChange C S _ _ _ _ _ _).1 _ _ _ applies
  obtain ⟨rfl, -⟩ := run_saveCurrent saves
  obtain ⟨_, rfl, -⟩ := run_updateReceipt updates
  obtain ⟨⟨_, rfl⟩, -⟩ := run_scheduleBoundary schedules
  exact ⟨b, rfl, records.1, plan_of_applyChange applies⟩

/-- A prepared change that takes effect has asked. -/
theorem accounted_of_completePrepared
    (ran : completePrepared C S taskId worker token store = .ok done after) :
    Accounted S store after := by
  obtain ⟨-, ran⟩ := run_demand_bind.mp ran
  obtain ⟨_, _, locked, rest⟩ := run_bind.mp ran
  obtain ⟨rfl, held, -⟩ := run_lockTenant locked
  obtain ⟨x, _, prepares, activates⟩ := run_bind.mp rest
  obtain ⟨same, asks⟩ := asks_of_prepare held prepares
  obtain ⟨b, saved, plans, given⟩ := records_of_activate activates
  obtain ⟨_, _, _, -, -, -, -, -, -, _, asked, checked⟩ := prepare_steps prepares
  rcases asks with asks | ⟨asks, code, number⟩
  · have terms := asks.terms (plans.trans same.1) saved given
    exact ⟨_, .inl rfl, asks.vouched terms asked checked⟩
  · have terms := asks.terms (plans.trans same.1) saved given
    have terms' := asks.terms rfl held ⟨code, number⟩
    exact ⟨_, .inr ⟨rfl, terms'.trans terms.symm⟩, asks.vouched terms asked checked⟩

end Prepared

section Due

variable {key : Transition.Key} {worker : String} {token : Nat} {result : TransitionResult}
  {y : Receipt}

theorem receipts_of_finish {current next : Transition.Task} {state : Transition.State}
    {outcome : String} {at_ : Instant}
    (ran : finishTransition C worker token current state outcome at_ middle = .ok next after)
    (same : middle.receipts.find? = store.receipts.find?) :
    after.receipts.find? = store.receipts.find? := by
  obtain ⟨-, _, rfl, -⟩ := run_finishTransition ran
  exact same

theorem receipts_of_expiry
    (ran : completeEntitlementExpiry C S key worker token store = .ok result after) :
    after.receipts.find? = store.receipts.find? := by
  obtain ⟨⟨_, _⟩, _, locked, rest⟩ := run_bind.mp ran
  obtain ⟨_, _, read, rest⟩ := run_bind.mp rest
  obtain ⟨⟨_, _⟩, _, owned, rest⟩ := run_bind.mp rest
  obtain ⟨_, finishes, -⟩ := run_bind_pure.mp rest
  have early := (keeps_lockSources C).1 _ _ _ locked
  have quiet := (early.trans (quiet_readSnapshot read)).trans (quiet_lockOwned (C := C) owned).1
  exact receipts_of_finish finishes quiet.receipt

theorem receipts_of_boundary
    (ran : completeSubscriptionBoundary C S key worker token store = .ok result after) :
    after.receipts.find? = store.receipts.find? := by
  obtain ⟨_, _, locked, rest⟩ := run_bind.mp ran
  obtain ⟨rfl, -⟩ := run_lockTenant locked
  obtain ⟨_, _, read, rest⟩ := run_bind.mp rest
  obtain ⟨⟨_, _⟩, _, owned, rest⟩ := run_bind.mp rest
  have quiet := (quiet_readSnapshot read).trans (quiet_lockOwned (C := C) owned).1
  dsimp only at rest
  split at rest
  · obtain ⟨finished, finishes, -⟩ := run_bind_pure.mp rest
    exact receipts_of_finish finishes quiet.receipt
  · split at rest
    · obtain ⟨_, finishes, -⟩ := run_bind_pure.mp rest
      exact receipts_of_finish finishes quiet.receipt
    · obtain ⟨_, _, saves, rest⟩ := run_bind.mp rest
      obtain ⟨_, _, schedules, rest⟩ := run_bind.mp rest
      obtain ⟨_, finishes, -⟩ := run_bind_pure.mp rest
      obtain ⟨rfl, -⟩ := run_saveCurrent saves
      obtain ⟨⟨_, rfl⟩, -⟩ := run_scheduleGraceEnd schedules
      exact receipts_of_finish finishes quiet.receipt

/-- A receipt that is rewritten without effect is not the one that takes effect. -/
theorem known_of_update {next : Receipt} {key : String}
    (ledger : (C.ledger after).receipt =
      Function.update (C.ledger store).receipt key (some next))
    (idle : next.status ≠ .applied) (stored : after.receipts.find? id = some y)
    (applied : y.status = .applied) : store.receipts.find? id = some y := by
  replace stored : (C.ledger after).receipt id = some y := stored
  rw [ledger] at stored
  by_cases mine : id = key
  · subst mine
    rw [Function.update_self, Option.some.injEq] at stored
    exact absurd (stored ▸ applied) idle
  · rw [Function.update_of_ne mine] at stored
    exact stored

/-- The material of a capture is that of another one of the same change. -/
theorem Captured.same_terms {l : Ledger} {m' : Material} (captured : Captured C l raw i m)
    (other : Captured C l raw i m') :
    m'.target.terms = m.target.terms := by
  obtain ⟨v, found, old⟩ := captured.old
  obtain ⟨v', found', old'⟩ := other.old
  obtain rfl : v = v' := Option.some.inj (found.symm.trans found')
  have olds : m'.old = m.old := old'.trans old.symm
  refine congrArg Plan.Version.terms ?_
  by_cases stop : i.action = .stopRenewal
  · rw [captured.kept stop, other.kept stop, olds]
  · obtain ⟨⟨w, sold, -, -, target⟩, code, number⟩ := captured.target stop
    obtain ⟨⟨w', sold', -, -, target'⟩, code', number'⟩ := other.target stop
    rw [code, number] at sold
    rw [code', number'] at sold'
    obtain rfl : w = w' := Option.some.inj (sold.symm.trans sold')
    exact target'.trans target.symm

/-- A reserved change that takes effect has asked. -/
theorem accounted_of_scheduled
    (ran : completeScheduledChange C S key worker token store = .ok result after)
    (stored : after.receipts.find? id = some y) (applied : y.status = .applied)
    (new : ∀ known, store.receipts.find? id = some known → known.status ≠ .applied) :
    Accounted S store after := by
  obtain ⟨raw, _, receipt, held, _, -, known, outcome⟩ := outcome_of_scheduled ran
  have known := (getReceipt_ok known).1
  cases outcome with
  | superseded middle current at_ quiet same finishes =>
    rw [receipts_of_finish finishes quiet.receipt] at stored
    exact absurd applied (new y stored)
  | failed middle reason quiet rights reserved refused fails =>
    obtain ⟨_, _, _, -, -, -, -, -, -, status, -, ledger⟩ :=
      run_failScheduledTransition quiet known fails
    exact absurd applied (new y (known_of_update (congrArg Ledger.receipt ledger)
      (by rw [status]; decide) stored applied))
  | started middle m report requirements current at_ quiet same reserved starts =>
    obtain ⟨_, _, _, -, -, -, -, -, -, -, status, ledger⟩ :=
      run_startProvisioning quiet known starts
    exact absurd applied (new y (known_of_update (congrArg Ledger.receipt ledger)
      (by rw [status]; decide) stored applied))
  | taken middle second third fourth m report current at_ b view quiet same reserved due captured
      passes applies saves updates finishes =>
    obtain ⟨m', _, _, captures, asked, checked, -⟩ := passes
    have again := (run_capture captures).1
    have asks := asks_of_captured captured held
    have sameTarget := captured.same_terms again
    have records : SameRecords middle second := by
      have kept := (keeps_applyChange C S .renew m (duedSubscription C raw m) key.authorityId
        receipt.effectiveAt receipt.entitlementExpiresAt).1 middle (b, view) second
      exact kept applies
    have given : b.planCode = m.target.planCode ∧ b.planVersion = m.target.number :=
      plan_of_applyChange (k := .renew) applies
    obtain ⟨saved, -⟩ := run_saveCurrent saves
    obtain ⟨_, updated, -⟩ := run_updateReceipt updates
    obtain ⟨-, _, finished, -⟩ := run_finishTransition finishes
    have left : after.subscription = some b ∧ after.plans.find? = second.plans.find? := by
      rw [finished, updated, saved]
      exact ⟨rfl, rfl⟩
    have terms := asks.terms (left.2.trans (records.1.trans quiet.records.1)) left.1 given
    exact ⟨store.terms, .inl rfl,
      (asks_of_captured again held).vouched (terms.trans sameTarget.symm) asked checked⟩

end Due

end Transactions

/-- The services that a step works with. -/
def Event.services : Event → Option Services
  | .bootstrap S _ _ => some S
  | .confirm S _ => some S
  | .completePrepared S _ _ _ => some S
  | .cancelPrepared S _ _ => some S
  | .completeTransition S _ _ _ => some S
  | .claimTransition _ _ _ => none
  | .elapse => none

/-- Only a confirmation and a completion can let a change take effect, and both have
asked. -/
theorem Step.accounted {C : Setting} {store after : Store} {event : Event} {id : String}
    {r : Receipt} (taken : Step C store event after)
    (stored : after.receipts.find? id = some r) (applied : r.status = .applied)
    (new : ∀ known, store.receipts.find? id = some known → known.status ≠ .applied) :
    ∃ S, event.services = some S ∧ Accounted S store after := by
  have unchanged : after.receipts.find? = store.receipts.find? → False := by
    intro same
    rw [same] at stored
    exact new r stored applied
  cases event with
  | bootstrap S requestId scope =>
    obtain ⟨b, committed⟩ := taken
    refine (unchanged ?_).elim
    rcases run_bootstrap (commit_ok.mp committed) with ⟨_, begins⟩ | ⟨rfl, -⟩
    · exact begins.receipts
    · rfl
  | confirm S r =>
    obtain ⟨_, committed⟩ := taken
    exact ⟨S, rfl, accounted_of_confirm (commit_ok.mp committed) stored applied new⟩
  | completePrepared S taskId worker token =>
    obtain ⟨_, committed⟩ := taken
    exact ⟨S, rfl, accounted_of_completePrepared (commit_ok.mp committed)⟩
  | cancelPrepared S taskId taskRevision =>
    obtain ⟨_, committed⟩ := taken
    obtain ⟨_, _, -, -, -, -, -, -, ledger⟩ := run_cancelPrepared (commit_ok.mp committed)
    exact (unchanged (congrArg Ledger.receipt ledger)).elim
  | claimTransition key worker lease =>
    obtain ⟨_, committed⟩ := taken
    obtain ⟨_, _, clock, rest⟩ := run_bind.mp (commit_ok.mp committed)
    obtain ⟨-, rfl⟩ := run_now.mp clock
    obtain ⟨_, -, rest⟩ := run_read_bind.mp rest
    obtain ⟨_, -, rest⟩ := run_check_bind.mp rest
    obtain ⟨_, saves, -⟩ := run_bind_pure.mp rest
    obtain ⟨_, rfl, -⟩ := run_saveTransition saves
    exact (unchanged rfl).elim
  | completeTransition S key worker token =>
    obtain ⟨_, committed⟩ := taken
    obtain ⟨-, ran⟩ := run_demand_bind.mp (commit_ok.mp committed)
    obtain ⟨hint, -, ran⟩ := run_read_bind.mp ran
    cases kind : hint.id.kind with
    | entitlementExpiry =>
      simp only [kind] at ran
      exact (unchanged (receipts_of_expiry ran)).elim
    | subscriptionBoundary =>
      simp only [kind] at ran
      exact (unchanged (receipts_of_boundary ran)).elim
    | scheduledChange =>
      simp only [kind] at ran
      exact ⟨S, rfl, accounted_of_scheduled ran stored applied new⟩
  | elapse => exact (unchanged (by rw [taken.receipts])).elim

/-- When a change takes effect, the evaluator has answered in that transaction: its report
repeats what was asked, item by item, and for every limit that is less in the new plan
than in the old one it knows a usage within the new limit, with evidence. -/
theorem reductions_vouched {C : Setting} {store after : Store} {event : Event} {id : String}
    {r : Receipt} (taken : Step C store event after)
    (stored : after.receipts.find? id = some r) (applied : r.status = .applied)
    (new : ∀ known, store.receipts.find? id = some known → known.status ≠ .applied) :
    ∃ S old start report, event.services = some S ∧
      (old = store.terms ∨ old = noPlan.terms ∧ store.terms = after.terms) ∧
      S.quotas .immediate start (quotaChanges old after.terms) = .ok report ∧
      List.Forall₂ Answers (quotaChanges old after.terms) report ∧
      ∀ text, less (quotaLimit after.terms text) (quotaLimit store.terms text) = true →
        ∃ q ∈ report, q.moduleCode ++ "/" ++ q.key = text ∧ q.before = quotaLimit store.terms text ∧
          q.after = quotaLimit after.terms text ∧ q.usageKnown = true ∧ q.evidence ≠ "" ∧
          q.used ≤ q.after.value := by
  obtain ⟨S, services, old, which, start, report, asked, answers⟩ :=
    taken.accounted stored applied new
  refine ⟨S, old, start, report, services, which, asked, answers, fun text reduces => ?_⟩
  have differs : quotaLimit store.terms text ≠ quotaLimit after.terms text := by
    intro same
    rw [same, less_irrefl] at reduces
    cases reduces
  rcases which with rfl | ⟨-, same⟩
  · obtain ⟨_, member, named, before, final⟩ := mem_quotaChanges differs
    obtain ⟨q, inside, answer⟩ := exists_answer answers member
    obtain ⟨code, key, before', after'⟩ := answer.echoed
    have shrinks : less q.after q.before = true := by
      rw [after', before', final, before]
      exact reduces
    obtain ⟨known, evidence, fits, -⟩ := answer.reduced shrinks
    refine ⟨q, inside, ?_, before'.trans before, after'.trans final, known, evidence, fits⟩
    rw [code, key]
    exact named
  · rw [same] at differs
    exact absurd rfl differs

namespace Sample

/-- An evaluator that flags everything, whatever the usage is. -/
def flagging : Services :=
  { services [] with
    quotas := fun _ _ asked => .ok (asked.map fun q =>
      { q with usageKnown := true, overLimit := true, policy := "checked", evidence := "count" }) }

/-- The sources of a first activation of the plan. -/
def devices : List Entitlement.Source :=
  generation id "tenant" changeId begin_ (some (addDays begin_ 30)) (monthly 10)

def activating : Setting :=
  { setting [] with
    encoding :=
      { sources := Codec.ofList devices,
        results := Codec.ofList (view 1 0 0 [] ++ view 2 1 0 devices),
        inputs := fun _ _ => some "", digest := id } }

def activation (current : Entitlement.Result) : Preview :=
  { provisioningRequirements := [], changeId, actorId := "actor"
    input :=
      { tenantId := "tenant", requestId := "renewal", action := .initial, targetPlanCode := "basic",
        targetPlanVersion := 1, salesScope := "web", effectiveAt := none, reason := "start" }
    fingerprint := hash, hash := hash, before := .zero, target := offer, current
    classification := .action .initial, mode := .immediate, createdAt := begin_
    expiresAt := addDays begin_ 1, effectiveAt := begin_, impactDetails := []
    pricingBasis := .noPriceReference }

/-- A tenant without a subscription, with the preview of its activation. -/
def vacant : Store := wait empty 0 ((view 1 0 0 []).map activation)

def active : Store := run (confirm activating flagging confirmation) vacant

/-- What the confirmation of the activation returns and leaves. -/
theorem activation_facts :
    (commit (confirm activating flagging confirmation) vacant).isOk = true ∧
      vacant.receipts.find? changeId = none ∧
      (active.receipts.find? changeId).map (fun r => (r.status, r.quotas)) =
        some (.applied,
          [⟨"device", "count", {}, ⟨false, 10⟩, true, 0, true, "checked", "count"⟩]) := by
  decide +kernel

end Sample

open Sample

/-- An increase is applied although its report flags a usage of zero as over the limit of
ten. -/
theorem flagged_increase_applies :
    Step activating vacant (.confirm flagging confirmation)
        active ∧
      vacant.receipts.find? changeId = none ∧
      ∃ r q, active.receipts.find? changeId = some r ∧ r.status = .applied ∧
        r.quotas = [q] ∧ q.usageKnown = true ∧ q.used ≤ q.after.value ∧ q.overLimit = true := by
  obtain ⟨confirms, absent, left⟩ := activation_facts
  obtain ⟨r, stored, fields⟩ := Option.map_eq_some_iff.mp left
  obtain ⟨status, quotas⟩ := Prod.mk.inj fields
  exact ⟨commits_run confirms, absent, r, _, stored, status, quotas, rfl, by decide, rfl⟩

/-- The change to fewer devices has asked for their number, which is within the new limit. -/
theorem reductions_vouched_reduction :
    ∃ start report,
      (services []).quotas .immediate start
        (quotaChanges lapsed.terms reduced.terms) = .ok report ∧
      ∃ q ∈ report, q.moduleCode ++ "/" ++ q.key = "device/count" ∧ q.before = ⟨false, 10⟩ ∧
        q.after = ⟨false, 5⟩ ∧ q.usageKnown = true ∧ q.evidence ≠ "" ∧ q.used ≤ q.after.value := by
  obtain ⟨-, -, -, saved, held, old, new, absent, left⟩ := reduction_facts
  obtain ⟨r, stored, applied⟩ := Option.map_eq_some_iff.mp left
  have before : lapsed.terms = (projected offer).terms := terms_of_plan held old
  have after : reduced.terms = (projected fewer).terms := terms_of_plan saved new
  have vouched := reductions_vouched reduced_confirms stored applied (by simp [absent])
  rw [before, after] at vouched ⊢
  obtain ⟨_, _, start, report, services, which, asked, -, vouched⟩ := vouched
  obtain rfl := Option.some.inj services
  obtain rfl := which.resolve_right fun other => absurd other.2 (by decide)
  exact ⟨start, report, asked, vouched "device/count" (by decide +kernel)⟩

end Biz.Change
