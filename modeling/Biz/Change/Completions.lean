import Biz.Change.Confirmations

/-!
# Completions as moves

The shapes that the ledger has after a change takes effect, is released, ends a period
or writes a transition, each of them a move. Then the completion and the cancellation of
a prepared change.
-/

namespace Biz.Change

open Time Checks Transaction Subscription
open Entitlement (Source)
open Provisioning (Completion increment64)
open Transition (Key Task canonicalTime)

variable {C : Setting} {S : Services} {store middle after : Store} {raw b : BaseSubscription}
  {m : Material} {grace orphan : Prop}

section Shapes

variable {l l' : Ledger} {time start : Instant} {ends : Option Instant} {readable : Prop}
  {source : String → Option Source} {transition : Key → Option Task}
  {known next : Receipt} {changeId : String}

/-- A change that was held takes effect. -/
theorem move_take
    (shape : l' = { l with
      time, subscription := some b, source := replaced start (generation C.digests.source C.tenant
        changeId start ends m.target.terms) l.source,
      readable, receipt := Function.update l.receipt changeId (some next), transition })
    (later : l.time ≤ time) (held : l.subscription = some raw)
    (form : b = activated m { raw with
      revision := increment64 raw.revision, pendingChangeId := "",
      state := C.lifecycle.stateFor m.target.planCode m.target.number } changeId start ends)
    (revised : b.revision = raw.revision + 1) (valid : b.validate = .ok ())
    (stored : l.receipt changeId = some known) (unused : known.status ≠ .applied)
    (updated : next.changeId = changeId ∧ next.mode = known.mode ∧
      next.entitlementExpiresAt = known.entitlementExpiresAt ∧ next.status = .applied)
    (usable : Usable l raw m.target) (named : Named changeId) (whole : Aligned l → Whole ends)
    (begun : Punctual l → start ≤ time) (reads : readable)
    (watched : orphan ∨ Watched C transition b) : Move C grace orphan l l' := by
  obtain ⟨key, mode, same, applied⟩ := updated
  have period_ : b.periodStart = start ∧ b.periodEnd = ends := by
    rw [form]
    exact ⟨rfl, rfl⟩
  have saved : b = { raw with
      revision := b.revision, pendingChangeId := "",
      state := C.lifecycle.stateFor m.target.planCode m.target.number,
      planCode := m.target.planCode, planVersion := m.target.number, periodStart := b.periodStart,
      periodEnd := b.periodEnd, sourceNamespace := changeId, renewalStopped := false,
      entitlementSourceVersion := b.entitlementSourceVersion } := by
    rw [form]
    rfl
  have state : b.state ≠ .provisioning := by
    rw [saved]
    exact not_provisioning _ _ _
  have saves : Saves l l' raw b := by
    refine saves_of_shape shape later held revised valid state
      (onward_update stored mode same unused) fun aligned => ⟨?_, ?_⟩
    · rw [period_.2]
      exact whole aligned
    · intro id r absent present
      exact (absurd_of_update stored absent present).elim
  rw [revised, ← key] at saved
  rw [shape] at saves ⊢
  subst key
  refine .take raw b m.target next saves saved usable named ?_ rfl applied ?_ ?_ reads watched
  · intro old present
    obtain rfl : known = old := Option.some.inj (stored.symm.trans present)
    exact unused
  · intro punctual
    rw [period_.1]
    exact begun punctual
  · rw [period_.1, period_.2]

/-- The ledger that a change leaves that takes effect. -/
theorem ledger_of_applied {last : Store} {receipts : Table Receipt.changeId} (b : BaseSubscription)
    (transitions : Table Task.id) (quiet : Quiet C store middle) (worked : Entitled middle last)
    (sources : Snapshot.stored C.encoding C.tenant last.entitlements =
      replaced start (generation C.digests.source C.tenant changeId start ends m.target.terms)
        (Snapshot.stored C.encoding C.tenant middle.entitlements))
    (lookups : receipts.find? = Function.update last.receipts.find? known.changeId (some next))
    (key : known.changeId = changeId) :
    C.ledger { last with subscription := some b, receipts, transitions } = { C.ledger store with
      time := last.clock.now, subscription := some b,
      source := replaced start (generation C.digests.source C.tenant changeId start ends
        m.target.terms) (C.ledger store).source,
      readable := (C.ledger last).readable,
      receipt := Function.update (C.ledger store).receipt changeId (some next),
      transition := transitions.find? } := by
  have kept : last.receipts.find? = (C.ledger store).receipt :=
    (congrArg Ledger.receipt (worked.ledger (C := C))).trans quiet.receipt
  refine ((Quiet.refl C last).written (some b) receipts transitions).trans ?_
  conv_lhs => rw [worked.ledger, quiet.2]
  rw [lookups, kept, key, show (C.ledger last).source = _ from sources, quiet.source]
  rfl

/-- A change that was held is released. -/
theorem move_release {receipt : String → Option Receipt}
    (shape : l' = { l with
      time, subscription := some b, source := l.source, readable := l.readable, receipt,
      transition })
    (later : l.time ≤ time) (held : l.subscription = some raw)
    (form : b = { raw with
      pendingChangeId := "", revision := increment64 raw.revision,
      entitlementSourceVersion := b.entitlementSourceVersion })
    (revised : b.revision = raw.revision + 1) (valid : b.validate = .ok ())
    (state : raw.state ≠ .provisioning) (onward : Onward l.receipt receipt)
    (fresh : ∀ id r, l.receipt id = none → receipt id = some r → False)
    (lost : orphan ∨ raw.periodEnd = none ∨ ¬Running raw) : Move C grace orphan l l' := by
  have saved : b = { raw with
      revision := b.revision, pendingChangeId := "",
      entitlementSourceVersion := b.entitlementSourceVersion } := by
    rw [form]
  have saves : Saves l l' raw b := by
    refine saves_of_shape shape later held revised valid ?_ onward fun aligned => ⟨?_, ?_⟩
    · rw [form]
      exact state
    · rw [form]
      exact aligned.1 raw held
    · intro id r absent present
      exact (fresh id r absent present).elim
  rw [revised] at saved
  rw [shape] at saves ⊢
  exact .release raw b saves saved rfl (fun reads => reads) lost

/-- A period ends. -/
theorem move_bound
    (shape : l' = { l with time, subscription := some b, transition }) (later : l.time ≤ time)
    (held : l.subscription = some raw) (free : raw.pendingChangeId = "")
    (form : b = { raw with
      revision := b.revision, state := b.state, periodEnd := b.periodEnd,
      entitlementSourceVersion := b.entitlementSourceVersion })
    (revised : b.revision = raw.revision + 1) (valid : b.validate = .ok ())
    (past : b.state = .grace ∧ grace ∧ Whole b.periodEnd ∧ Watched C transition b ∨
      (b.state = .restricted ∨ b.state = .ended) ∧ b.periodEnd = raw.periodEnd) :
    Move C grace orphan l l' := by
  have saves : Saves l l' raw b := by
    refine saves_of_shape shape later held revised valid ?_ (onward_refl _) fun aligned => ⟨?_, ?_⟩
    · rcases past with ⟨same, -⟩ | ⟨same | same, -⟩ <;> rw [same] <;> decide
    · rcases past with ⟨-, -, whole, -⟩ | ⟨-, same⟩
      · exact whole
      · rw [same]
        exact aligned.1 raw held
    · intro id r absent present
      rw [absent] at present
      cases present
  rw [revised] at form
  rw [shape] at saves ⊢
  refine .bound raw b saves free form ?_ ?_ rfl (fun reads => reads)
  · rcases past with ⟨same, -, -, watched⟩ | ⟨ended, -⟩
    · exact .inl ⟨same, watched⟩
    · exact .inr ended
  · rcases past with ⟨-, entered, -⟩ | ⟨-, same⟩
    · exact .inl entered
    · exact .inr same

theorem Watched.update {id : Key} {t : Task}
    (watched : Watched C transition b)
    (spared : t.live ∨ ∀ ends, b.periodEnd = some ends →
      boundaryKey C b (canonicalTime ends) ≠ id) :
    Watched C (Function.update transition id (some t)) b := by
  intro ends bounded
  obtain ⟨old, present, live⟩ := watched ends bounded
  by_cases same : boundaryKey C b (canonicalTime ends) = id
  · rcases spared with fine | other
    · exact ⟨t, by rw [same, Function.update_self], fine⟩
    · exact absurd same (other ends bounded)
  · exact ⟨old, by rw [Function.update_of_ne same, present], live⟩

/-- A transition is written that is not the boundary of a free subscription, or stays
live. -/
theorem move_transition {id : Key} {t : Task}
    (shape : l' = { l with time, transition := Function.update l.transition id (some t) })
    (later : l.time ≤ time)
    (spared : ∀ b, l.subscription = some b → b.pendingChangeId = "" → Whole b.periodEnd →
      t.live ∨ ∀ ends, b.periodEnd = some ends → boundaryKey C b (canonicalTime ends) ≠ id) :
    Move C grace orphan l l' := by
  subst shape
  refine .idle later rfl fun b held free whole watched => ?_
  exact watched.update (spared b held free whole)

end Shapes

section Prepared

variable {taskId worker : String} {token taskRevision : Nat} {x : Preparation} {done : Completion}

theorem approvedWith_ok {t : Provisioning.Task} {p : Preview} {receipt : Receipt}
    (read : approvedWith C t store = .ok (p, receipt)) :
    getPreview C t.approval.changeId store = .ok (some p) ∧
      getReceipt C t.approval.changeId store = .ok (some receipt) ∧
      receipt.status = .provisioning := by
  simp only [approvedWith, bind_ok, require_ok, found_ok, pure_ok, Prod.mk.injEq] at read
  obtain ⟨_, preview, _, stored, _, rfl, _, rfl, -, ⟨-, -, -, status, -⟩, rfl, rfl⟩ := read
  exact ⟨preview, stored, status⟩

/-- The steps of the checks of a completion. -/
theorem prepare_steps (ran : prepare C S taskId worker token raw store = .ok x after) :
    ∃ first second third, now store = .ok first second ∧
      raw.pendingChangeId = x.task.approval.changeId ∧
      approvedWith C x.task second = .ok (x.preview, x.receipt) ∧
      preparedMaterial C S raw x.preview.input second = .ok x.material third ∧
      now third = .ok x.admitted after ∧
      (∃ at_, (at_ = first ∨ at_ = x.admitted) ∧
        preparedPeriod x.preview x.receipt x.material at_ = .ok (x.start, x.ends)) ∧
      ∃ start, S.quotas .immediate start (quotasOf x.preview.input.action x.material) =
          .ok x.report ∧
        checkQuotaReport (quotasOf x.preview.input.action x.material) x.report .immediate =
          .ok false := by
  obtain ⟨t, _, locked, rest⟩ := run_bind.mp ran
  obtain rfl := run_lockTask locked
  obtain ⟨first, second, clock, ran⟩ := run_bind.mp rest
  obtain ⟨-, ran⟩ := run_demand_bind.mp ran
  obtain ⟨⟨pending, -⟩, ran⟩ := run_demand_bind.mp ran
  obtain ⟨⟨p, receipt⟩, approved, ran⟩ := run_read_bind.mp ran
  obtain ⟨-, ran⟩ := run_demand_bind.mp ran
  obtain ⟨m, third, material, ran⟩ := run_bind.mp ran
  obtain ⟨-, ran⟩ := run_demand_bind.mp ran
  obtain ⟨_, -, ran⟩ := run_check_bind.mp ran
  obtain ⟨-, ran⟩ := run_demand_bind.mp ran
  obtain ⟨-, ran⟩ := run_demand_bind.mp ran
  obtain ⟨⟨start, _⟩, chosen, ran⟩ := run_check_bind.mp ran
  obtain ⟨_, asked, ran⟩ := run_check_bind.mp ran
  obtain ⟨_, checked, ran⟩ := run_check_bind.mp ran
  obtain ⟨settled, ran⟩ := run_demand_bind.mp ran
  obtain ⟨admitted, _, clock', ran⟩ := run_bind.mp ran
  obtain ⟨-, ran⟩ := run_demand_bind.mp ran
  rw [settled] at checked
  refine ⟨first, second, third, clock, ?_⟩
  cases mode : receipt.mode with
  | immediate =>
    simp only [mode] at ran
    obtain ⟨-, ran⟩ := run_demand_bind.mp ran
    obtain ⟨⟨_, _⟩, again, ran⟩ := run_check_bind.mp ran
    obtain ⟨rfl, rfl⟩ := run_pure.mp ran
    exact ⟨pending, approved, material, clock', ⟨admitted, .inr rfl, again⟩, start, asked, checked⟩
  | scheduled =>
    simp only [mode] at ran
    obtain ⟨rfl, rfl⟩ := run_pure.mp ran
    exact ⟨pending, approved, material, clock', ⟨first, .inl rfl, chosen⟩, start, asked, checked⟩

/-- A first activation can only be completed on a subscription that waits for it. -/
theorem run_preparedMaterial {i : Input} (state : raw.state ≠ .provisioning)
    (ran : preparedMaterial C S raw i store = .ok m after) :
    i.action ≠ .initial ∧ capture C S raw i store = .ok m after := by
  unfold preparedMaterial at ran
  split at ran
  · exact absurd (run_demand_bind.mp ran).1.2.1 state
  · rename_i change
    exact ⟨change, ran⟩

/-- The period of a completion: it has begun, and its end is whole. -/
theorem preparedPeriod_ok {p : Preview} {receipt : Receipt} {at_ start : Instant}
    {ends : Option Instant} (chosen : preparedPeriod p receipt m at_ = .ok (start, ends)) :
    (receipt.mode = .immediate ∧ ∃ mode, period p.input m.before p.classification at_
        m.target.terms = .ok (mode, start, ends)) ∨
      receipt.mode = .scheduled ∧ start ≤ at_ ∧ ends = receipt.entitlementExpiresAt := by
  unfold preparedPeriod at chosen
  cases mode : receipt.mode with
  | immediate =>
    simp only [mode, bind_ok, pure_ok, Prod.mk.injEq] at chosen
    obtain ⟨⟨mode', _, _⟩, given, rfl, rfl⟩ := chosen
    exact .inl ⟨rfl, mode', given⟩
  | scheduled =>
    simp only [mode, bind_ok, require_ok, pure_ok, Prod.mk.injEq] at chosen
    obtain ⟨-, due, rfl, rfl⟩ := chosen
    exact .inr ⟨rfl, due, rfl⟩

/-- What the checks of a completion have established. -/
structure Ready (C : Setting) (store middle : Store) (raw : BaseSubscription) (x : Preparation) :
    Prop where
  quiet : Quiet C store middle
  change : x.preview.input.action ≠ .initial
  captured : Captured C (C.ledger store) raw x.preview.input x.material
  normal : x.material.before = raw
  named : Named x.task.approval.changeId
  stored : (C.ledger store).receipt x.task.approval.changeId = some x.receipt
  status : x.receipt.status = .provisioning
  whole : Aligned (C.ledger store) → Whole x.ends
  begun : Punctual (C.ledger store) → x.start ≤ middle.clock.now

theorem run_prepare (held : store.subscription = some raw) (revised : raw.revision ≠ 0)
    (valid : raw.validate = .ok ()) (state : raw.state ≠ .provisioning)
    (ran : prepare C S taskId worker token raw store = .ok x middle) :
      Ready C store middle raw x := by
  obtain ⟨first, _, third, clock, pending, approved, material, clock',
    ⟨at_, reading, chosen⟩, -⟩ := prepare_steps ran
  obtain ⟨change, captures⟩ := run_preparedMaterial state material
  obtain ⟨captured, quiet, -⟩ := run_capture captures
  have passed := (quiet_now (C := C) clock).1
  have passed' := quiet_now (C := C) clock'
  obtain ⟨preview, stored, status⟩ := approvedWith_ok approved
  have key := (key_of_receipt stored).1
  obtain ⟨named, asked⟩ := named_of_preview preview key
  have normal : x.material.before = raw := normalize_eq captured.normalized revised
    (BaseSubscription.namespace_of_validate valid revised)
  have early : store.clock.now = first := (run_now.mp clock).1
  have late : third.clock.now = x.admitted := (run_now.mp clock').1
  -- The reading that the period is taken from lies between the two states.
  have between : store.clock.now ≤ at_ ∧ at_ ≤ middle.clock.now ∧ at_ % microsecond = 0 := by
    rcases reading with rfl | rfl
    · rw [← early]
      exact ⟨le_refl _, ((passed.trans quiet).trans passed'.1).1, store.clock.now_whole⟩
    · refine ⟨?_, passed'.2, late ▸ third.clock.now_whole⟩
      rw [← late]
      exact (passed.trans quiet).1
  have known : (C.ledger store).receipt x.task.approval.changeId = some x.receipt := by
    have found := (getReceipt_ok stored).1
    rw [passed.receipt] at found
    exact found
  constructor
  case quiet => exact (passed.trans quiet).trans passed'.1
  case change => exact change
  case captured => exact captured.of_quiet passed
  case normal => exact normal
  case named => exact named
  case stored => exact known
  case status => exact status
  case whole =>
    intro aligned
    rcases preparedPeriod_ok chosen with ⟨-, _, given⟩ | ⟨scheduled, -, same⟩
    · exact whole_period given asked (normal ▸ aligned.1 raw held) between.2.2
    · rw [same]
      exact aligned.2 _ _ known scheduled
  case begun =>
    intro punctual
    rcases preparedPeriod_ok chosen with ⟨immediate, _, given⟩ | ⟨-, due, -⟩
    · rw [← pending] at known key
      obtain ⟨p, shown, prompt⟩ := punctual raw _ held (Text.key_ne_empty key) known immediate
      have found := (getPreview_ok preview).1
      rw [passed.preview, ← pending] at found
      obtain rfl : p = x.preview := Option.some.inj (shown.symm.trans found)
      rw [normal] at given
      rw [prompt at_ _ _ _ _ between.1 given]
      exact between.2.1
    · exact due.trans between.2.1

theorem move_activate (ready : Ready C store middle raw x) (held : store.subscription = some raw)
    (mine : raw.tenantId = C.tenant) (ran : activate C S raw x middle = .ok done after) :
    Move C grace orphan (C.ledger store) (C.ledger after) := by
  simp only [activate, if_neg ready.change, applyChange] at ran
  obtain ⟨⟨b, _⟩, _, applies, ran⟩ := run_bind.mp ran
  obtain ⟨_, _, saves, rest⟩ := run_bind.mp ran
  obtain ⟨rfl, revised, valid⟩ := run_saveCurrent saves
  obtain ⟨_, _, updates, rest⟩ := run_bind.mp rest
  obtain ⟨_, schedules, -⟩ := run_bind_pure.mp rest
  have lists : Snapshot.Lists (C.ledger middle).source x.material.sources := by
    rw [show (C.ledger middle).source = (C.ledger store).source from ready.quiet.source]
    exact ready.captured.lists
  obtain ⟨form, worked, readable, sources⟩ := run_applySources lists ready.captured.mine
    (by rw [ready.normal]; exact mine) applies
  obtain ⟨_, rfl, lookups⟩ := run_updateReceipt updates
  obtain ⟨⟨transitions, rfl⟩, watched⟩ := run_scheduleBoundary schedules
  have changeId : x.receipt.changeId = x.task.approval.changeId := Table.key_of_find? ready.stored
  have ledger := ledger_of_applied b transitions ready.quiet worked sources lookups changeId
  refine move_take ledger (ready.quiet.1.trans worked.later) held ?_
    (ready.normal ▸ revised) valid ready.stored ?_
    ⟨changeId, rfl, if_neg ready.change, rfl⟩ ready.captured.usable ready.named
    ready.whole (fun punctual => (ready.begun punctual).trans worked.later) readable (.inr watched)
  · rw [form, preparedSubscription, ready.normal]
  · rw [ready.status]
    decide

theorem move_completePrepared (settled : Settled (C.ledger store))
    (ran : completePrepared C S taskId worker token store = .ok done after) :
    Move C grace orphan (C.ledger store) (C.ledger after) := by
  obtain ⟨-, ran⟩ := run_demand_bind.mp ran
  obtain ⟨raw, _, locked, rest⟩ := run_bind.mp ran
  obtain ⟨rfl, held, mine⟩ := run_lockTenant locked
  obtain ⟨x, _, prepared, activates⟩ := run_bind.mp rest
  obtain ⟨b, held', revised, valid, state⟩ := settled
  obtain rfl : raw = b := Option.some.inj (held.symm.trans held')
  exact move_activate (run_prepare held revised valid state prepared) held mine activates

/-- What a cancellation does: it releases the subscription. -/
theorem run_cancelPrepared (ran : cancelPrepared C S taskId taskRevision store = .ok done after) :
    ∃ raw b, store.subscription = some raw ∧ raw.pendingChangeId = done.changeId ∧
      b = { raw with
        pendingChangeId := "", revision := increment64 raw.revision,
        entitlementSourceVersion := b.entitlementSourceVersion } ∧
      b.revision = raw.revision + 1 ∧ b.validate = .ok () ∧ store.clock.now ≤ after.clock.now ∧
      C.ledger after = { C.ledger store with
        time := after.clock.now, subscription := some b } := by
  obtain ⟨-, ran⟩ := run_demand_bind.mp ran
  obtain ⟨raw, _, locked, rest⟩ := run_bind.mp ran
  obtain ⟨rfl, held, -⟩ := run_lockTenant locked
  obtain ⟨t, _, checked, rest⟩ := run_bind.mp rest
  obtain ⟨_, _, clock, rest⟩ := run_bind.mp rest
  obtain ⟨_, fourth, read, rest⟩ := run_bind.mp rest
  obtain ⟨_, saves, rfl⟩ := run_bind_pure.mp rest
  obtain ⟨t', _, task, checks⟩ := run_bind.mp checked
  obtain rfl := run_lockTask task
  obtain ⟨-, checked⟩ := run_demand_bind.mp checks
  obtain ⟨⟨pending, -⟩, checked⟩ := run_demand_bind.mp checked
  obtain ⟨rfl, rfl⟩ := run_pure.mp checked
  have quiet : Quiet C _ fourth := (quiet_now (C := C) clock).1.trans (quiet_readSnapshot read)
  obtain ⟨rfl, next, valid⟩ := run_saveCurrent saves
  refine ⟨raw, _, held, pending, rfl, next, valid, quiet.1, ?_⟩
  refine (quiet.written (some _) fourth.receipts fourth.transitions).trans ?_
  rw [quiet.receipt, quiet.transition]
  rfl

theorem move_cancelPrepared (settled : Settled (C.ledger store))
    (ran : cancelPrepared C S taskId taskRevision store = .ok done after)
    (lost : ∀ b, store.subscription = some b → b.periodEnd ≠ none → Running b → orphan) :
    Move C grace orphan (C.ledger store) (C.ledger after) := by
  obtain ⟨raw, b, held, -, form, next, valid, later, ledger⟩ := run_cancelPrepared ran
  obtain ⟨raw', held', -, -, state⟩ := settled
  obtain rfl : raw = raw' := Option.some.inj (held.symm.trans held')
  refine move_release ledger later held form next valid state (onward_refl _) ?_ ?_
  · intro id r absent present
    rw [absent] at present
    cases present
  · by_cases ends : raw.periodEnd = none
    · exact .inr (.inl ends)
    · by_cases running : Running raw
      · exact .inl (lost raw held ends running)
      · exact .inr (.inr running)

end Prepared

end Biz.Change
