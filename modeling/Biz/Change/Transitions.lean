import Biz.Change.Completions

/-!
# Transitions as moves

A worker claims a transition and completes it. The end of a source and a boundary that
is out of date change nothing but the transition. A boundary that is still one of its
subscription ends the period. A reserved change is superseded, fails, starts its
provisioning or takes effect.

`EntersGrace` and `LosesBoundary` say, about the state before, when a completion goes
wrong.
-/

namespace Biz.Change

open Time Checks Transaction Subscription
open Provisioning (Requirement increment64)
open Transition (Key canonicalTime)

variable {C : Setting} {S : Services} {store middle after : Store} {raw b : BaseSubscription}
  {m : Material} {grace orphan : Prop}

section Transitions

variable {id : Key} {worker outcome : String} {token : Nat} {result : TransitionResult}
  {current next : Transition.Task} {state : Transition.State} {at_ : Instant}

theorem move_claimTransition {lease : Duration} {claimed : Transition.Task}
    (ran : claimTransition C id worker lease store = .ok claimed after) :
    Move C grace orphan (C.ledger store) (C.ledger after) := by
  obtain ⟨_, _, clock, rest⟩ := run_bind.mp ran
  obtain ⟨rfl, rfl⟩ := run_now.mp clock
  obtain ⟨_, _, rest⟩ := run_read_bind.mp rest
  obtain ⟨_, claims, rest⟩ := run_check_bind.mp rest
  obtain ⟨_, saves, rfl⟩ := run_bind_pure.mp rest
  obtain ⟨transitions, rfl, lookups⟩ := run_saveTransition saves
  rw [mapError_ok] at claims
  have passed : Quiet C store { store with clock := store.clock.tick } := (quiet_now clock).1
  have ledger := passed.written store.subscription store.receipts transitions
  rw [lookups] at ledger
  refine move_transition ledger store.clock.now_le_tick fun _ _ _ _ => .inl ?_
  rw [Transition.Task.claim_ok claims]
  rfl

/-- A transition is finished that is not the boundary of a free subscription. -/
theorem move_finish (quiet : Quiet C store middle)
    (ran : finishTransition C worker token current state outcome at_ middle = .ok next after)
    (spared : ∀ b, store.subscription = some b → b.pendingChangeId = "" → Whole b.periodEnd →
      ∀ ends, b.periodEnd = some ends → boundaryKey C b (canonicalTime ends) ≠ current.id) :
    Move C grace orphan (C.ledger store) (C.ledger after) := by
  obtain ⟨-, transitions, rfl, lookups⟩ := run_finishTransition ran
  have ledger : C.ledger { middle with transitions } = { C.ledger store with
      time := middle.clock.now,
      transition := Function.update (C.ledger store).transition current.id (some next) } := by
    refine (quiet.written middle.subscription middle.receipts transitions).trans ?_
    rw [quiet.subscription, quiet.receipt, lookups, quiet.transition]
    rfl
  exact move_transition ledger quiet.1 fun b held free whole => .inr (spared b held free whole)

theorem quiet_lockOwned (ran : lockOwned C id worker token store = .ok (current, at_) after) :
    Quiet C store after ∧ current.id = id ∧ at_ = store.clock.now ∧ at_ ≤ after.clock.now := by
  obtain ⟨same, rfl, rfl⟩ := run_lockOwned ran
  exact ⟨quiet_of_sources rfl store.clock.now_le_tick, same, rfl, store.clock.now_le_tick⟩

theorem move_entitlementExpiry (kind : id.kind = .entitlementExpiry)
    (ran : completeEntitlementExpiry C S id worker token store = .ok result after) :
    Move C grace orphan (C.ledger store) (C.ledger after) := by
  obtain ⟨⟨_, _⟩, _, locked, rest⟩ := run_bind.mp ran
  obtain ⟨_, _, read, rest⟩ := run_bind.mp rest
  obtain ⟨⟨_, _⟩, _, owned, rest⟩ := run_bind.mp rest
  obtain ⟨_, finishes, -⟩ := run_bind_pure.mp rest
  obtain ⟨late, same, -⟩ := quiet_lockOwned (C := C) owned
  have early := (keeps_lockSources C).1 _ _ _ locked
  refine move_finish ((early.trans (quiet_readSnapshot read)).trans late) finishes ?_
  intro b _ _ _ ends _ equal
  rw [← same, ← equal] at kind
  cases kind

end Transitions

section Boundaries

variable {id : Key} {worker : String} {token : Nat} {result : TransitionResult}

/-- The end of a period leads to grace: a boundary comes due for a subscription that
renews, has not been in grace yet, and is noticed before the grace period is over. -/
def EntersGrace (C : Setting) (store : Store) (id : Key) : Prop :=
  id.kind = .subscriptionBoundary ∧ ∃ b, store.subscription = some b ∧ bounds id b ∧
    b.pendingChangeId = "" ∧ b.renewalStopped = false ∧ b.state ≠ .grace ∧
    0 < C.lifecycle.graceDuration ∧
    store.clock.tick.now < canonicalTime (id.dueAt + C.lifecycle.graceDuration)

theorem pastBoundary_cases (p : LifecyclePolicy) (raw : BaseSubscription) (due at_ : Instant) :
    (pastBoundary p raw due at_).1 = { raw with
        revision := increment64 raw.revision, state := (pastBoundary p raw due at_).1.state,
        periodEnd := (pastBoundary p raw due at_).1.periodEnd } ∧
      (((pastBoundary p raw due at_).1.state = .grace ∧ raw.renewalStopped = false ∧
          raw.state ≠ .grace ∧ 0 < p.graceDuration ∧ at_ < canonicalTime (due + p.graceDuration) ∧
          (pastBoundary p raw due at_).1.periodEnd =
            some (canonicalTime (due + p.graceDuration))) ∨
        ((pastBoundary p raw due at_).1.state = .restricted ∨
            (pastBoundary p raw due at_).1.state = .ended) ∧
          (pastBoundary p raw due at_).1.periodEnd = raw.periodEnd) := by
  unfold pastBoundary
  by_cases stopped : raw.renewalStopped
  · rw [if_pos stopped]
    exact ⟨rfl, .inr ⟨.inr rfl, rfl⟩⟩
  · rw [if_neg stopped]
    by_cases renewable : raw.state ≠ .grace ∧ 0 < p.graceDuration
    · rw [if_pos renewable]
      by_cases early : at_ < canonicalTime (due + p.graceDuration)
      · rw [if_pos early]
        exact ⟨rfl, .inl ⟨rfl, by simpa using stopped, renewable.1, renewable.2, early, rfl⟩⟩
      · rw [if_neg early]
        exact ⟨rfl, .inr ⟨.inl rfl, rfl⟩⟩
    · rw [if_neg renewable]
      exact ⟨rfl, .inr ⟨.inl rfl, rfl⟩⟩

theorem run_scheduleGraceEnd {created : Instant} {timezone : String} {u : Unit}
    (ran : scheduleGraceEnd C b created timezone store = .ok u after) :
    (∃ transitions, after = { store with transitions }) ∧
      (b.state = .grace → Watched C after.transitions.find? b) := by
  unfold scheduleGraceEnd at ran
  generalize kind : b.state = state at ran
  generalize ends_ : b.periodEnd = bound at ran
  split at ran
  · obtain ⟨frame, watched⟩ := watched_of_schedule ends_ ran
    exact ⟨frame, fun _ => watched⟩
  · rename_i other
    obtain ⟨-, rfl⟩ := run_pure.mp ran
    refine ⟨⟨store.transitions, rfl⟩, fun grace ends same => ?_⟩
    exact (other ends grace (ends_.symm.trans same)).elim

/-- The writes of a boundary that ends a period. -/
theorem move_pastBoundary {current finished : Transition.Task} {third fourth : Store}
    {created at_ : Instant} {timezone outcome : String} {state : Transition.State} {u v : Unit}
    (quiet : Quiet C store middle) (held : store.subscription = some raw)
    (free : raw.pendingChangeId = "") (bounded : bounds current.id raw)
    (form : b = { raw with
      revision := b.revision, state := b.state, periodEnd := b.periodEnd,
      entitlementSourceVersion := b.entitlementSourceVersion })
    (past : b.state = .grace ∧ grace ∧ Whole b.periodEnd ∨
      (b.state = .restricted ∨ b.state = .ended) ∧ b.periodEnd = raw.periodEnd)
    (saves : saveCurrent raw b middle = .ok u third)
    (schedules : scheduleGraceEnd C b created timezone third = .ok v fourth)
    (finishes : finishTransition C worker token current state outcome at_ fourth =
      .ok finished after) :
    Move C grace orphan (C.ledger store) (C.ledger after) := by
  obtain ⟨rfl, revised, valid⟩ := run_saveCurrent saves
  obtain ⟨⟨_, rfl⟩, watched⟩ := run_scheduleGraceEnd schedules
  obtain ⟨-, transitions', rfl, lookups⟩ := run_finishTransition finishes
  have ledger := quiet.written (some b) middle.receipts transitions'
  rw [quiet.receipt] at ledger
  -- The boundary that is finished is one of the revision before.
  have other : ∀ ends, b.periodEnd = some ends →
      boundaryKey C b (canonicalTime ends) ≠ current.id := by
    intro ends _ equal
    have version : b.revision = raw.revision := by
      rw [bounded.2.1, ← equal]
      rfl
    rw [revised] at version
    exact Nat.succ_ne_self _ version
  refine move_bound ledger quiet.1 held free form revised valid ?_
  rcases past with ⟨same, entered, whole⟩ | ended
  · refine .inl ⟨same, entered, whole, ?_⟩
    rw [lookups]
    exact (watched same).update (.inr other)
  · exact .inr ended

theorem move_subscriptionBoundary (settled : Settled (C.ledger store))
    (kind : id.kind = .subscriptionBoundary)
    (ran : completeSubscriptionBoundary C S id worker token store = .ok result after) :
    Move C (EntersGrace C store id) orphan (C.ledger store) (C.ledger after) := by
  obtain ⟨raw, _, locked, rest⟩ := run_bind.mp ran
  obtain ⟨rfl, held, mine⟩ := run_lockTenant locked
  obtain ⟨view, first, read, rest⟩ := run_bind.mp rest
  obtain ⟨⟨current, at_⟩, second, owned, rest⟩ := run_bind.mp rest
  obtain ⟨late, same, reading, -⟩ := quiet_lockOwned (C := C) owned
  have quiet := (quiet_readSnapshot read).trans late
  dsimp only at rest
  split at rest
  · rename_i other
    obtain ⟨finished, finishes, -⟩ := run_bind_pure.mp rest
    refine move_finish quiet finishes fun b held' _ whole ends ends_ equal => other ?_
    obtain rfl : raw = b := Option.some.inj (held.symm.trans held')
    -- The end is whole, so the boundary of this end would be one of the subscription.
    rw [← equal, Transition.canonicalTime_of_whole (whole ends ends_)]
    exact ⟨rfl, rfl, ends_⟩
  · rename_i bounded
    split at rest
    · rename_i pending
      obtain ⟨finished, finishes, -⟩ := run_bind_pure.mp rest
      refine move_finish quiet finishes fun b held' free _ _ _ _ => pending ?_
      obtain rfl : raw = b := Option.some.inj (held.symm.trans held')
      exact free
    · rename_i free
      obtain ⟨_, _, saves, rest⟩ := run_bind.mp rest
      obtain ⟨_, _, schedules, rest⟩ := run_bind.mp rest
      obtain ⟨_, finishes, -⟩ := run_bind_pure.mp rest
      have bounds_ := not_not.mp bounded
      obtain ⟨form, past⟩ := pastBoundary_cases C.lifecycle raw current.id.dueAt at_
      refine move_pastBoundary quiet held (not_not.mp free) bounds_ ?_ ?_ saves schedules finishes
      · rw [form]
      · rcases past with ⟨grace, renews, other, some_, early, ends⟩ | ended
        · refine .inl
            ⟨grace, ⟨kind, raw, held, same ▸ bounds_, not_not.mp free, renews, other, some_,
            ?_⟩, ?_⟩
          · rw [← same]
            obtain ⟨_, rfl, -⟩ := run_readSnapshot read
            exact reading ▸ early
          · intro t bound
            rw [ends, Option.mem_some_iff] at bound
            rw [← bound]
            exact Transition.canonicalTime_whole _
        · exact .inr ended

end Boundaries

section Scheduled

variable {id : Key} {worker : String} {token : Nat} {result : TransitionResult}
  {preview : Preview} {receipt : Receipt} {requirements : List Requirement}

/-- A reserved change passes the checks that are made again when it is due: the target
may still be sold, the quotas allow it, and there is as much to prepare as before. One
with nothing to prepare can also replace the sources. -/
def Revalidates (C : Setting) (S : Services) (store : Store) (id : Key)
    (raw : BaseSubscription) (preview : Preview) (receipt : Receipt)
    (requirements : List Requirement) : Prop :=
  ∃ m middle report, capture C S raw preview.input store = .ok m middle ∧
    S.quotas .immediate id.dueAt (quotasOf preview.input.action m) = .ok report ∧
    checkQuotaReport (quotasOf preview.input.action m) report .immediate = .ok false ∧
    preparationRequirements S preview.input.action m.target = .ok requirements ∧
    C.digests.requirements requirements =
      C.digests.requirements preview.provisioningRequirements ∧
    (requirements = [] → ∃ sources, projectSources C.digests.source m.before m.old m.target
      m.sources id.authorityId receipt.effectiveAt receipt.entitlementExpiresAt = .ok sources)

/-- What becomes of a reserved change that is due. -/
inductive Outcome (C : Setting) (S : Services) (store after : Store) (id : Key)
    (worker : String) (token : Nat) (raw : BaseSubscription) (preview : Preview)
    (receipt : Receipt) (result : TransitionResult) : Prop
  | superseded (middle : Store) (current : Transition.Task) (at_ : Instant)
      (quiet : Quiet C store middle) (same : current.id = id)
      (finishes : finishTransition C worker token current .superseded
        "SCHEDULED_CHANGE_AUTHORITY_SUPERSEDED" at_ middle = .ok result.task after)
  | failed (middle : Store) (reason : String) (quiet : Quiet C store middle)
      (rights : SameRights C store middle) (reserved : reserves id raw receipt)
      (refused : ∀ requirements, ¬Revalidates C S store id raw preview receipt requirements)
      (ran : failScheduledTransition C S id worker token receipt raw reason middle =
        .ok result after)
  | started (middle : Store) (m : Material) (report : List QuotaImpact)
      (requirements : List Requirement) (current : Transition.Task) (at_ : Instant)
      (quiet : Quiet C store middle) (same : current.id = id) (reserved : reserves id raw receipt)
      (ran : startProvisioning C id worker token preview receipt raw m report requirements current
        at_ middle = .ok result after)
  | taken (middle second third fourth : Store) (m : Material) (report : List QuotaImpact)
      (current : Transition.Task) (at_ : Instant) (b : BaseSubscription)
      (view : Entitlement.Result) (quiet : Quiet C store middle) (same : current.id = id)
      (reserved : reserves id raw receipt) (due : id.dueAt ≤ at_ ∧ at_ ≤ middle.clock.now)
      (captured : Captured C (C.ledger store) raw preview.input m)
      (passes : Revalidates C S store id raw preview receipt [])
      (applies : applySources C S m (duedSubscription C raw m) id.authorityId receipt.effectiveAt
        receipt.entitlementExpiresAt middle = .ok (b, view) second)
      (saves : saveCurrent raw b second = .ok () third)
      (updates : updateReceipt C receipt (duedReceipt C receipt .applied receipt.provisioningTaskId
        b view.sourceVersion view.entitlementVersion report) third = .ok () fourth)
      (finishes : finishTransition C worker token current .applied "SCHEDULED_CHANGE_APPLIED" at_
        fourth = .ok result.task after)

theorem outcome_of_takeScheduled {report : List QuotaImpact} {current : Transition.Task}
    {at_ : Instant} {first : Store} (quiet : Quiet C store middle)
    (rights : SameRights C store middle) (same : current.id = id)
    (reserved : reserves id raw receipt) (due : id.dueAt ≤ at_ ∧ at_ ≤ middle.clock.now)
    (captures : capture C S raw preview.input store = .ok m first) (here : At C m middle)
    (asks : S.quotas .immediate id.dueAt (quotasOf preview.input.action m) = .ok report)
    (allowed : checkQuotaReport (quotasOf preview.input.action m) report .immediate = .ok false)
    (required : preparationRequirements S preview.input.action m.target = .ok [])
    (agreed : C.digests.requirements [] = C.digests.requirements preview.provisioningRequirements)
    (owned : raw.tenantId = C.tenant)
    (ran : takeScheduled C S id worker token receipt raw m report current at_ middle =
      .ok result after) : Outcome C S store after id worker token raw preview receipt result := by
  obtain ⟨captured, -⟩ := run_capture captures
  have owner : m.before.tenantId = C.tenant := by
    rw [normalize_frame captured.normalized]
    exact owned
  obtain ⟨_, second, attempts, rest⟩ := run_bind.mp ran
  rcases run_attempt.mp attempts with ⟨⟨b, view⟩, rfl, applies⟩ | ⟨failure, rfl, fails⟩
  · obtain ⟨_, third, saves, rest⟩ := run_bind.mp rest
    obtain ⟨_, fourth, updates, rest⟩ := run_bind.mp rest
    obtain ⟨_, finishes, rfl⟩ := run_bind_pure.mp rest
    have projects : ∃ sources, projectSources C.digests.source m.before m.old m.target m.sources
        id.authorityId receipt.effectiveAt receipt.entitlementExpiresAt = .ok sources := by
      obtain ⟨sources, projected, -⟩ := run_check_bind.mp applies
      exact ⟨sources, projected⟩
    exact .taken middle second third fourth m report current at_ b view quiet same reserved due
      captured ⟨m, first, report, captures, asks, allowed, required, agreed, fun _ => projects⟩
      applies saves updates finishes
  · cases terminal : terminalTransitionError failure with
    | some reason =>
      simp only [terminal] at rest
      rcases fail_applySources here captured.mine owner fails with retried | ⟨rfl, error⟩
      · rw [Retried, terminal] at retried
        cases retried
      · refine .failed second reason quiet rights reserved ?_ rest
        rintro requirements ⟨m', _, _, captures', -, -, required', -, projects⟩
        rw [captures, EStateM.Result.ok.injEq] at captures'
        obtain ⟨rfl, -⟩ := captures'
        rw [required, Except.ok.injEq] at required'
        obtain ⟨_, projected⟩ := projects required'.symm
        rw [error] at projected
        cases projected
    | none =>
      simp only [terminal] at rest
      exact absurd (run_check.mp rest).1 (by simp)

theorem outcome_of_executeScheduled (quiet : Quiet C store middle)
    (rights : SameRights C store middle) (reserved : reserves id raw receipt)
    (captures : capture C S raw preview.input store = .ok m middle) (here : At C m middle)
    (owned : raw.tenantId = C.tenant)
    (ran : executeScheduled C S id worker token preview receipt raw m middle = .ok result after) :
    Outcome C S store after id worker token raw preview receipt result := by
  obtain ⟨report, asks, rest⟩ := run_check_bind.mp ran
  split at rest
  · rename_i denied
    refine .failed middle _ quiet rights reserved ?_ rest
    rintro requirements ⟨m', _, report', captures', asks', allowed, -⟩
    rw [captures, EStateM.Result.ok.injEq] at captures'
    obtain ⟨rfl, -⟩ := captures'
    rw [asks, Except.ok.injEq] at asks'
    exact denied (asks' ▸ allowed)
  · rename_i allowed
    obtain ⟨requirements, required, rest⟩ := run_check_bind.mp rest
    split at rest
    · rename_i changed
      refine .failed middle _ quiet rights reserved ?_ rest
      rintro requirements' ⟨m', _, report', captures', -, -, required', agreed, -⟩
      rw [captures, EStateM.Result.ok.injEq] at captures'
      obtain ⟨rfl, -⟩ := captures'
      rw [required, Except.ok.injEq] at required'
      exact changed (required' ▸ agreed)
    · rename_i agreed
      obtain ⟨⟨current, at_⟩, second, owns, rest⟩ := run_bind.mp rest
      obtain ⟨late, same, -, read⟩ := quiet_lockOwned (C := C) owns
      obtain ⟨due, acts⟩ := run_demand_bind.mp rest
      split at acts
      · exact .started second m report requirements current at_
          (quiet.trans late) same reserved acts
      · rename_i none
        obtain rfl := not_not.mp none
        obtain ⟨here', rights'⟩ : At C m second ∧ SameRights C store second := by
          obtain ⟨-, -, rfl⟩ := run_lockOwned owns
          exact ⟨here, rights⟩
        exact outcome_of_takeScheduled (quiet.trans late) rights' same reserved ⟨same ▸ due, read⟩
          captures
          here' asks (not_not.mp allowed) required (not_not.mp agreed) owned acts

/-- Every run of a reserved change that is due ends in one of the outcomes. -/
theorem outcome_of_scheduled
    (ran : completeScheduledChange C S id worker token store = .ok result after) :
    ∃ raw preview receipt, store.subscription = some raw ∧ raw.tenantId = C.tenant ∧
      getPreview C id.authorityId store = .ok (some preview) ∧
      getReceipt C id.authorityId store = .ok (some receipt) ∧
      Outcome C S store after id worker token raw preview receipt result := by
  obtain ⟨raw, _, locked, rest⟩ := run_bind.mp ran
  obtain ⟨rfl, held, mine⟩ := run_lockTenant locked
  obtain ⟨preview, shown, rest⟩ := run_read_bind.mp rest
  obtain ⟨receipt, stored, rest⟩ := run_read_bind.mp rest
  obtain ⟨preview, found, rest⟩ := run_check_bind.mp rest
  obtain ⟨receipt, found', acts⟩ := run_check_bind.mp rest
  rw [found_ok] at found found'
  subst found found'
  refine ⟨raw, preview, receipt, held, mine, shown, stored, ?_⟩
  split at acts
  · obtain ⟨⟨current, at_⟩, second, owns, rest⟩ := run_bind.mp acts
    obtain ⟨finished, finishes, rfl⟩ := run_bind_pure.mp rest
    obtain ⟨quiet, same, -⟩ := quiet_lockOwned (C := C) owns
    exact .superseded second current at_ quiet same finishes
  · rename_i reserved
    obtain ⟨_, second, attempts, acts⟩ := run_bind.mp acts
    rcases run_attempt.mp attempts with ⟨m, rfl, captures⟩ | ⟨failure, rfl, fails⟩
    · obtain ⟨-, quiet, here⟩ := run_capture captures
      have rights := (sameRights_capture C S raw preview.input).1 _ _ _ captures
      exact outcome_of_executeScheduled quiet rights (not_not.mp reserved) captures here mine acts
    · cases terminal : terminalTransitionError failure with
      | some reason =>
        simp only [terminal] at acts
        have kept := keeps_capture (keeps_lockSources C)
          (keeps_readSnapshot C S.cache) raw preview.input
        have rights := (sameRights_capture C S raw preview.input).2 _ _ _ fails
        refine .failed second _ (kept.2 _ _ _ fails) rights (not_not.mp reserved) ?_ acts
        rintro requirements ⟨m, _, _, captures, -⟩
        rw [fails] at captures
        cases captures
      | none =>
        simp only [terminal] at acts
        exact absurd (run_check.mp acts).1 (by simp)

/-- What a reserved change that fails leaves: the subscription is released. -/
theorem run_failScheduledTransition {reason : String} (quiet : Quiet C store middle)
    (stored : store.receipts.find? id.authorityId = some receipt)
    (ran : failScheduledTransition C S id worker token receipt raw reason middle =
      .ok result after) :
    ∃ next time transition, result.task.state = .reconcileRequired ∧
      (released raw).revision = raw.revision + 1 ∧ (released raw).validate = .ok () ∧
      store.clock.now ≤ time ∧ next.mode = receipt.mode ∧
      next.entitlementExpiresAt = receipt.entitlementExpiresAt ∧ next.status = .failed ∧
      SameRights C middle after ∧ C.ledger after = { C.ledger store with
        time, subscription := some (released raw),
        receipt := Function.update (C.ledger store).receipt id.authorityId (some next),
        transition } := by
  obtain ⟨⟨_, _⟩, second, owns, rest⟩ := run_bind.mp ran
  obtain ⟨_, _, saves, rest⟩ := run_bind.mp rest
  obtain ⟨view, fourth, read, rest⟩ := run_bind.mp rest
  obtain ⟨_, _, updates, rest⟩ := run_bind.mp rest
  obtain ⟨_, finishes, rfl⟩ := run_bind_pure.mp rest
  have early := quiet.trans (quiet_lockOwned (C := C) owns).1
  obtain ⟨rfl, revised, valid⟩ := run_saveCurrent saves
  have late := quiet_readSnapshot read
  have rights := sameRights_readSnapshot read
  obtain ⟨receipts, rfl, lookups⟩ := run_updateReceipt updates
  obtain ⟨state, transitions, rfl, -⟩ := run_finishTransition finishes
  have key : receipt.changeId = id.authorityId := Table.key_of_find? stored
  refine ⟨failedReceipt C receipt (released raw) view reason, fourth.clock.now, transitions.find?,
    state, revised, valid, early.1.trans late.1, rfl, rfl, rfl, ?_, ?_⟩
  · obtain ⟨-, -, rfl⟩ := run_lockOwned owns
    exact ⟨rights.1, rights.2⟩
  have saved := early.written (some (released raw)) second.receipts second.transitions
  have known : fourth.receipts.find? = (C.ledger store).receipt := late.receipt.trans early.receipt
  rw [key, known] at lookups
  refine (late.written fourth.subscription receipts transitions).trans ?_
  rw [saved, late.subscription, lookups]

/-- What the start of a provisioning leaves: the subscription is restricted. -/
theorem run_startProvisioning {report : List QuotaImpact} {current : Transition.Task}
    {at_ : Instant} (quiet : Quiet C store middle)
    (stored : store.receipts.find? id.authorityId = some receipt)
    (ran : startProvisioning C id worker token preview receipt raw m report requirements current at_
      middle = .ok result after) :
    ∃ b next transition, result.task.state = .applied ∧
      b = { raw with revision := increment64 raw.revision, state := .restricted } ∧
      b.revision = raw.revision + 1 ∧ b.validate = .ok () ∧ next.changeId = id.authorityId ∧
      next.mode = receipt.mode ∧ next.entitlementExpiresAt = receipt.entitlementExpiresAt ∧
      next.status = .provisioning ∧
      C.ledger after = { C.ledger store with
        time := middle.clock.now, subscription := some b,
        receipt := Function.update (C.ledger store).receipt id.authorityId (some next),
        transition } := by
  obtain ⟨t, -, rest⟩ := run_check_bind.mp ran
  obtain ⟨_, _, inserts, rest⟩ := run_bind.mp rest
  obtain ⟨_, _, saves, rest⟩ := run_bind.mp rest
  obtain ⟨_, _, updates, rest⟩ := run_bind.mp rest
  obtain ⟨_, finishes, rfl⟩ := run_bind_pure.mp rest
  obtain ⟨tasks, rfl⟩ := run_insertTask inserts
  obtain ⟨rfl, revised, valid⟩ := run_saveCurrent saves
  obtain ⟨receipts, rfl, lookups⟩ := run_updateReceipt updates
  obtain ⟨state, transitions, rfl, -⟩ := run_finishTransition finishes
  have key : receipt.changeId = id.authorityId := Table.key_of_find? stored
  have quiet' : Quiet C store { middle with tasks } := quiet.trans ⟨le_refl _, rfl⟩
  refine ⟨_, duedReceipt C receipt .provisioning t.id
    { raw with revision := increment64 raw.revision, state := .restricted } m.version
    m.current.entitlementVersion report, transitions.find?, state, rfl, revised, valid, ?_, rfl,
      rfl,
    rfl, (quiet'.written (some _) receipts transitions).trans ?_⟩
  · exact key
  · rw [lookups, key, quiet'.receipt]
    rfl

/-- A reserved change loses the boundary of a period: it takes effect with an end, or it
fails on a subscription that still runs and has an end. -/
def LosesBoundary (C : Setting) (S : Services) (store : Store) (id : Key) : Prop :=
  id.kind = .scheduledChange ∧ ∃ raw preview receipt, store.subscription = some raw ∧
    store.previews.find? id.authorityId = some preview ∧
    store.receipts.find? id.authorityId = some receipt ∧ reserves id raw receipt ∧
    (receipt.entitlementExpiresAt ≠ none ∧ Revalidates C S store id raw preview receipt [] ∨
      raw.periodEnd ≠ none ∧ Running raw ∧
        ∀ requirements, ¬Revalidates C S store id raw preview receipt requirements)

theorem move_scheduledChange (settled : Settled (C.ledger store))
    (kind : id.kind = .scheduledChange)
    (ran : completeScheduledChange C S id worker token store = .ok result after) :
    Move C grace (LosesBoundary C S store id) (C.ledger store) (C.ledger after) := by
  obtain ⟨raw, preview, receipt, held, mine, shown, stored, outcome⟩ := outcome_of_scheduled ran
  obtain ⟨raw', held', -, -, state⟩ := settled
  obtain rfl : raw = raw' := Option.some.inj (held.symm.trans held')
  have found := (getReceipt_ok stored).1
  have previewed := (getPreview_ok shown).1
  have key := (key_of_receipt stored).1
  have named := (named_of_preview shown key).1
  cases outcome with
  | superseded middle current at_ quiet same finishes =>
    refine move_finish quiet finishes fun b _ _ _ ends _ equal => ?_
    rw [← same, ← equal] at kind
    cases kind
  | failed middle reason quiet rights reserved refused ran =>
    obtain ⟨next, _, _, -, revised, valid, later, mode, ends, -, -, ledger⟩ :=
      run_failScheduledTransition quiet found ran
    have unused : receipt.status ≠ .applied := by rw [reserved.2.2.1]; decide
    refine move_release ledger later held rfl revised valid state
      (onward_update found mode ends unused) ?_ ?_
    · intro id r absent present
      exact absurd_of_update found absent present
    · by_cases endless : raw.periodEnd = none
      · exact .inr (.inl endless)
      · by_cases running : Running raw
        · exact .inl ⟨kind, raw, preview, receipt, held, previewed, found, reserved,
            .inr ⟨endless, running, refused⟩⟩
        · exact .inr (.inr running)
  | started middle m report requirements current at_ quiet same reserved ran =>
    obtain ⟨b, next, _, -, form, revised, valid, changeId, mode, ends, status, ledger⟩ :=
      run_startProvisioning quiet found ran
    have unused : receipt.status ≠ .applied := by rw [reserved.2.2.1]; decide
    have saves : Saves (C.ledger store) (C.ledger after) raw b := by
      refine saves_of_shape ledger quiet.1 held revised valid (by rw [form]; rintro ⟨⟩)
        (onward_update found mode ends unused) fun aligned => ⟨?_, ?_⟩
      · rw [form]
        exact aligned.1 raw held
      · intro id r absent present
        exact (absurd_of_update found absent present).elim
    have saved : b = { raw with revision := b.revision, state := .restricted } := by rw [form]
    rw [revised] at saved
    rw [ledger] at saves ⊢
    rw [← changeId] at found named saves ⊢
    exact .start raw b next receipt saves named (reserved.1.trans changeId.symm) saved found
      reserved.2.2.1 rfl status (mode.trans reserved.2.2.2.1) rfl (fun reads => reads)
  | taken middle second third fourth m report current at_ b view quiet same reserved due captured
      passes applies saves updates finishes =>
    have lists : Snapshot.Lists (C.ledger middle).source m.sources := by
      rw [show (C.ledger middle).source = (C.ledger store).source from quiet.source]
      exact captured.lists
    have owner : m.before.tenantId = C.tenant := by
      rw [normalize_frame captured.normalized]
      exact mine
    obtain ⟨form, worked, readable, sources⟩ := run_applySources lists captured.mine owner applies
    obtain ⟨rfl, revised, valid⟩ := run_saveCurrent saves
    obtain ⟨_, rfl, lookups⟩ := run_updateReceipt updates
    obtain ⟨-, transitions, rfl, -⟩ := run_finishTransition finishes
    have changeId : receipt.changeId = id.authorityId := Table.key_of_find? found
    have ledger := ledger_of_applied b transitions quiet worked sources lookups changeId
    refine move_take ledger (quiet.1.trans worked.later) held form revised valid found ?_
      ⟨changeId, rfl, rfl, rfl⟩ captured.usable named ?_ ?_ readable ?_
    · rw [reserved.2.2.1]
      decide
    · intro aligned
      exact aligned.2 _ _ found reserved.2.2.2.1
    · intro _
      rw [reserved.2.2.2.2.1]
      exact due.1.trans (due.2.trans worked.later)
    · by_cases endless : receipt.entitlementExpiresAt = none
      · refine .inr (watched_of_endless ?_)
        rw [form]
        exact endless
      · exact .inl ⟨kind, raw, preview, receipt, held, previewed, found, reserved,
          .inl ⟨endless, passes⟩⟩

theorem move_completeTransition (settled : Settled (C.ledger store))
    (ran : completeTransition C S id worker token store = .ok result after) :
    Move C (EntersGrace C store id) (LosesBoundary C S store id) (C.ledger store)
      (C.ledger after) := by
  obtain ⟨-, ran⟩ := run_demand_bind.mp ran
  obtain ⟨hint, found, ran⟩ := run_read_bind.mp ran
  have same := (getTransition_ok found).2
  cases kind : hint.id.kind with
  | entitlementExpiry =>
    simp only [kind] at ran
    exact move_entitlementExpiry (same ▸ kind) ran
  | subscriptionBoundary =>
    simp only [kind] at ran
    exact move_subscriptionBoundary settled (same ▸ kind) ran
  | scheduledChange =>
    simp only [kind] at ran
    exact move_scheduledChange settled (same ▸ kind) ran

end Scheduled

end Biz.Change
