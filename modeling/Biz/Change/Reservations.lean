import Biz.Change.History

/-!
# Changes that wait

A confirmed change that is reserved or waits for its provisioning leaves the plan, the
period and the sources' namespace of its subscription alone. As long as the change is
pending the subscription keeps the state that the confirmation has saved, but for one
step: a reserved change that is due and starts its provisioning restricts it. So does a
cancellation or a failure of the change find it, and leaves it.

The confirmation itself saves the state that the policy gives to the target, before it
decides whether the change waits.
-/

namespace Biz.Change

open Time Checks Transaction Subscription Runs
open Provisioning (Completion)

/-- While a change is pending, the subscription has the state that it had when the change
was confirmed, or the provisioning of a reserved change has restricted it. -/
def Held (changeId : String) (state : State) (status : Status) (l : Ledger) : Prop :=
  ∃ r, l.receipt changeId = some r ∧ ∀ b, l.subscription = some b → b.pendingChangeId = changeId →
    b.state = state ∧ r.status = status ∨
      b.state = .restricted ∧ r.status = .provisioning ∧ status = .scheduled

section Moves

variable {C : Setting} {grace orphan : Prop} {l l' : Ledger} {changeId : String} {state : State}
  {status : Status} {after raw : BaseSubscription}

/-- A move that leaves another change pending, or none. -/
theorem held_of_saved (held : Held changeId state status l) (saves : Saves l l' raw after)
    (other : after.pendingChangeId ≠ changeId) : Held changeId state status l' := by
  obtain ⟨r, stored, -⟩ := held
  obtain ⟨r', stored', -⟩ := saves.receipts _ r stored
  refine ⟨r', stored', fun b present pending => ?_⟩
  obtain rfl : after = b := Option.some.inj (saves.saved.symm.trans present)
  exact absurd pending other

/-- Every move keeps what a pending change has found. -/
theorem Move.held (move : Move C grace orphan l l') (named : Named changeId)
    (held : Held changeId state status l) : Held changeId state status l' := by
  have nonempty : "" ≠ changeId := (Text.key_ne_empty named.1).symm
  cases move with
  | idle _ same =>
    rw [same]
    exact held
  | elapse _ same =>
    rw [same]
    exact held
  | hold raw after r saves _ shape _ fresh =>
    apply held_of_saved held saves
    rw [shape]
    rintro rfl
    obtain ⟨known, stored, -⟩ := held
    rw [fresh] at stored
    cases stored
  | stop raw after saves free shape =>
    apply held_of_saved held saves
    rw [shape, free]
    exact nonempty
  | take raw after target r saves shape =>
    apply held_of_saved held saves
    rw [shape]
    exact nonempty
  | release raw after saves shape =>
    apply held_of_saved held saves
    rw [shape]
    exact nonempty
  | start raw after r known saves _ holds shape reserved scheduled receipts started =>
    have pending : after.pendingChangeId = r.changeId := by
      rw [shape]
      exact holds
    by_cases same : r.changeId = changeId
    · subst same
      obtain ⟨found, stored, states⟩ := held
      obtain rfl : known = found := Option.some.inj (reserved.symm.trans stored)
      refine ⟨r, by rw [receipts, Function.update_self], fun b present _ => ?_⟩
      obtain rfl : after = b := Option.some.inj (saves.saved.symm.trans present)
      -- The change was still reserved, so nothing had restricted the subscription.
      rcases states raw saves.held holds with ⟨-, kept⟩ | ⟨-, provisioning, -⟩
      · exact .inr ⟨by rw [shape], started, kept.symm.trans scheduled⟩
      · rw [scheduled] at provisioning
        cases provisioning
    · apply held_of_saved held saves
      rw [pending]
      exact same
  | bound raw after saves free shape =>
    apply held_of_saved held saves
    rw [shape, free]
    exact nonempty

end Moves

section Steps

variable {C : Setting} {S : Services} {store after : Store} {changeId worker : String}
  {state : State} {status : Status} {b : BaseSubscription} {r : Confirmation} {receipt : Receipt}
  {id : Transition.Key} {token : Nat} {result : TransitionResult}

/-- What a cancellation of the change leaves. -/
theorem state_of_cancelPrepared {taskId : String} {taskRevision : Nat} {done : Completion}
    (held : Held changeId state status (C.ledger store))
    (ran : cancelPrepared C S taskId taskRevision store = .ok done after)
    (same : done.changeId = changeId) :
    ∃ b r, after.subscription = some b ∧ store.receipts.find? changeId = some r ∧
      (b.state = state ∨ b.state = .restricted ∧ r.status = .provisioning ∧
        status = .scheduled) := by
  obtain ⟨raw, b, present, pending, form, -, -, -, ledger⟩ := run_cancelPrepared ran
  obtain ⟨r, stored, states⟩ := held
  have kept : b.state = raw.state := by rw [form]
  refine ⟨b, r, congrArg Ledger.subscription ledger, stored, ?_⟩
  rw [kept]
  rcases states raw present (pending.trans same) with ⟨found, -⟩ | restricted
  · exact .inl found
  · exact .inr restricted

/-- A transition that is left to be reconciled was a reserved change that has failed. -/
theorem failed_of_completeTransition
    (ran : completeTransition C S id worker token store = .ok result after)
    (unreconciled : result.task.state = .reconcileRequired) :
    ∃ raw receipt, store.subscription = some raw ∧
      store.receipts.find? id.authorityId = some receipt ∧ reserves id raw receipt ∧
      after.subscription = some (released raw) := by
  have other : ∀ {current finished : Transition.Task} {state : Transition.State}
      {outcome : String} {at_ : Instant} {middle last : Store},
      finishTransition C worker token current state outcome at_ middle = .ok finished last →
      finished.state = .reconcileRequired → state = .reconcileRequired := by
    intro current finished state outcome at_ middle last finishes left
    exact (run_finishTransition finishes).1.symm.trans left
  obtain ⟨-, ran⟩ := run_demand_bind.mp ran
  obtain ⟨hint, -, ran⟩ := run_read_bind.mp ran
  cases kind : hint.id.kind with
  | entitlementExpiry =>
    simp only [kind] at ran
    obtain ⟨⟨_, sources⟩, _, -, rest⟩ := run_bind.mp ran
    obtain ⟨view, second, -, rest⟩ := run_bind.mp rest
    obtain ⟨⟨current, at_⟩, third, -, rest⟩ := run_bind.mp rest
    obtain ⟨finished, finishes, rfl⟩ := run_bind_pure.mp rest
    have ends : (expiryOutcome sources current.id).1 = .reconcileRequired :=
      other finishes unreconciled
    unfold expiryOutcome at ends
    split at ends <;> cases ends
  | subscriptionBoundary =>
    simp only [kind] at ran
    obtain ⟨raw, _, -, rest⟩ := run_bind.mp ran
    obtain ⟨view, _, -, rest⟩ := run_bind.mp rest
    obtain ⟨⟨current, at_⟩, second, -, rest⟩ := run_bind.mp rest
    dsimp only at rest
    split at rest
    · obtain ⟨finished, finishes, rfl⟩ := run_bind_pure.mp rest
      cases other finishes unreconciled
    · split at rest
      · obtain ⟨_, finishes, rfl⟩ := run_bind_pure.mp rest
        cases other finishes unreconciled
      · obtain ⟨_, third, -, rest⟩ := run_bind.mp rest
        obtain ⟨_, fourth, -, rest⟩ := run_bind.mp rest
        obtain ⟨_, finishes, rfl⟩ := run_bind_pure.mp rest
        cases other finishes unreconciled
  | scheduledChange =>
    simp only [kind] at ran
    obtain ⟨raw, _, receipt, present, -, -, stored, outcome⟩ := outcome_of_scheduled ran
    have found := (getReceipt_ok stored).1
    cases outcome with
    | superseded middle current at_ quiet same finishes =>
      cases other finishes unreconciled
    | failed middle reason quiet rights reserved refused fails =>
      obtain ⟨_, _, _, -, -, -, -, -, -, -, -, ledger⟩ :=
        run_failScheduledTransition quiet found fails
      exact ⟨raw, receipt, present, found, reserved, congrArg Ledger.subscription ledger⟩
    | started middle m report requirements current at_ quiet same reserved starts =>
      obtain ⟨_, _, _, applied, -⟩ := run_startProvisioning quiet found starts
      rw [applied] at unreconciled
      cases unreconciled
    | taken middle second third fourth m report current at_ b view quiet same reserved due captured
        passes applies saves updates finishes =>
      cases other finishes unreconciled

/-- What a failure of the change leaves. -/
theorem state_of_failure (held : Held changeId state status (C.ledger store))
    (ran : completeTransition C S id worker token store = .ok result after)
    (same : id.authorityId = changeId) (unreconciled : result.task.state = .reconcileRequired) :
    ∃ b, after.subscription = some b ∧ b.state = state := by
  obtain ⟨raw, receipt, present, found, reserved, saved⟩ :=
    failed_of_completeTransition ran unreconciled
  obtain ⟨r, stored, states⟩ := held
  subst same
  obtain rfl : receipt = r := Option.some.inj (found.symm.trans stored)
  refine ⟨released raw, saved, ?_⟩
  rcases states raw present reserved.1 with ⟨kept, -⟩ | ⟨-, provisioning, -⟩
  · exact kept
  · rw [reserved.2.2.1] at provisioning
    cases provisioning

/-- What a confirmation of a change saves that waits. -/
structure Reserved (C : Setting) (store after : Store) (receipt : Receipt)
    (b : BaseSubscription) : Prop where
  before : ∃ raw old, store.subscription = some raw ∧ normalize raw old = .ok receipt.before
  saved : after.subscription = some b
  shape : b = { receipt.before with
    revision := receipt.before.revision + 1, pendingChangeId := receipt.changeId,
    entitlementSourceVersion := b.entitlementSourceVersion, state := b.state }
  state : ∃ p, store.previews.find? receipt.changeId = some p ∧
    b.state = C.lifecycle.stateFor p.input.targetPlanCode p.input.targetPlanVersion
  named : Named receipt.changeId
  stored : after.receipts.find? receipt.changeId = some receipt
  valid : b.validate = .ok ()

/-- The receipt of a confirmation names the action of its preview. -/
theorem action_of_settle {a : Admission} (ran : settle C S r a store = .ok receipt after) :
    receipt.action = a.preview.input.action := by
  obtain ⟨⟨x, b⟩, _, executes, ran⟩ := run_bind.mp ran
  obtain ⟨_, _, -, ran⟩ := run_bind.mp ran
  obtain ⟨_, -, rfl⟩ := run_bind_pure.mp ran
  rw [(confirmed_of_execute executes).1]
  rfl

theorem run_confirm_waiting (ran : confirm C S r store = .ok receipt after)
    (first : store.receipts.find? receipt.changeId = none) (change : receipt.action ≠ .initial)
    (waits : receipt.status = .scheduled ∨ receipt.status = .provisioning) :
    ∃ b, Reserved C store after receipt b := by
  rcases confirm_steps ran with ⟨-, known⟩ | ⟨key, _, _, _, a, _, locked, admits,
    settles⟩
  · rw [first] at known
    cases known
  have lasting : a.preview.input.action ≠ .initial := action_of_settle settles ▸ change
  obtain ⟨raw, x, b, held, _, -, admitted, settlement⟩ :=
    settlement_of_admission locked admits settles lasting
  obtain ⟨changeId, before, status⟩ : receipt.changeId = r.changeId ∧
      receipt.before = a.material.before ∧ receipt.status = x.status := by
    rw [settlement.sealing, settlement.confirmed]
    exact ⟨rfl, rfl, rfl⟩
  obtain ⟨_, -, executed, ledger⟩ := settlement.executed
  cases executed with
  | hold remains kind form readable sources =>
    rw [confirmedSubscription_change lasting, if_neg remains] at form
    have next := settlement.next
    refine ⟨b, ?_⟩
    constructor
    case before => exact ⟨raw, a.material.old, held, before ▸ admitted.captured.normalized⟩
    case saved => exact congrArg Ledger.subscription ledger
    case shape =>
      rw [before, changeId, ← next, form]
    case state =>
      refine ⟨a.preview, changeId ▸ (getPreview_ok admitted.preview).1, ?_⟩
      obtain ⟨-, code, number⟩ := admitted.captured.target remains
      rw [form, code, number]
    case named =>
      rw [changeId]
      exact (named_of_preview admitted.preview key).1
    case stored =>
      have stored := congrFun (congrArg Ledger.receipt ledger) r.changeId
      rw [changeId]
      exact stored.trans (Function.update_self ..)
    case valid => exact settlement.valid
  | stop _ applied =>
    rw [status, applied] at waits
    exact absurd waits (by decide)
  | take _ applied =>
    rw [status, applied] at waits
    exact absurd waits (by decide)

theorem Reserved.held (reserved : Reserved C store after receipt b) :
    Held receipt.changeId b.state receipt.status (C.ledger after) := by
  refine ⟨receipt, reserved.stored, fun b' present _ => .inl ⟨?_, rfl⟩⟩
  obtain rfl : b = b' := Option.some.inj (reserved.saved.symm.trans present)
  rfl

theorem Reserved.settled (reserved : Reserved C store after receipt b) :
    Settled (C.ledger after) := by
  refine ⟨b, reserved.saved, ?_, reserved.valid, ?_⟩
  · rw [reserved.shape]
    exact Nat.succ_ne_zero _
  · obtain ⟨p, -, state⟩ := reserved.state
    rw [state]
    exact not_provisioning _ _ _

/-- Whatever happens after a confirmation, its change finds the state that it has left. -/
theorem Reserved.run {events : List Event} {last : Store}
    (reserved : Reserved C store after receipt b) (run : Run (Step C) after events last) :
    Held receipt.changeId b.state receipt.status (C.ledger last) := by
  exact run.invariant_under (fun _ _ _ settled taken => (Step.move settled taken).settled settled)
    (fun _ _ _ settled held taken => (Step.move settled taken).held reserved.named held)
    reserved.settled reserved.held

end Steps

/-- A confirmed change that waits saves nothing but a revision, the pending change, the
version of the sources and a state, which stays the same if it is the one that the policy
gives to the target. Whatever happens then, a later cancellation of the change leaves that
state, or a restricted subscription if the reserved change has started its provisioning
since, and a later failure of the change leaves that state. -/
theorem waiting_changes_nothing {C : Setting} {S : Services} {r : Confirmation}
    {store after : Store} {receipt : Receipt}
    (confirmed : commit (confirm C S r) store = .ok (receipt, after))
    (first : store.receipts.find? receipt.changeId = none) (change : receipt.action ≠ .initial)
    (waits : receipt.status = .scheduled ∨ receipt.status = .provisioning) :
    ∃ raw old p b, store.subscription = some raw ∧ normalize raw old = .ok receipt.before ∧
      store.previews.find? receipt.changeId = some p ∧ after.subscription = some b ∧
      b = { receipt.before with
        revision := receipt.before.revision + 1, pendingChangeId := receipt.changeId,
        entitlementSourceVersion := b.entitlementSourceVersion, state := b.state } ∧
      (receipt.before.state =
          C.lifecycle.stateFor p.input.targetPlanCode p.input.targetPlanVersion →
        b.state = receipt.before.state) ∧
      ∀ events last, Run (Step C) after events last →
        (∀ S' taskId taskRevision done final,
          commit (cancelPrepared C S' taskId taskRevision) last = .ok (done, final) →
          done.changeId = receipt.changeId → ∃ b' known, final.subscription = some b' ∧
            last.receipts.find? receipt.changeId = some known ∧
            (b'.state = b.state ∨ b'.state = .restricted ∧ known.status = .provisioning ∧
              receipt.status = .scheduled)) ∧
        ∀ S' id worker token result final,
          commit (completeTransition C S' id worker token) last = .ok (result, final) →
          id.authorityId = receipt.changeId → result.task.state = .reconcileRequired →
          ∃ b', final.subscription = some b' ∧ b'.state = b.state := by
  obtain ⟨b, reserved⟩ := run_confirm_waiting (commit_ok.mp confirmed) first change waits
  obtain ⟨raw, old, held, normal⟩ := reserved.before
  obtain ⟨p, previewed, state⟩ := reserved.state
  refine ⟨raw, old, p, b, held, normal, previewed, reserved.saved, reserved.shape, ?_, ?_⟩
  · intro same
    rw [state, same]
  · intro events last run
    have kept := reserved.run run
    constructor
    · intro S' taskId taskRevision done final committed same
      exact state_of_cancelPrepared kept (commit_ok.mp committed) same
    · intro S' id worker token result final committed same unreconciled
      exact state_of_failure kept (commit_ok.mp committed) same unreconciled

namespace Sample

/-- The setting of a renewal that is reserved for the twentieth day. -/
def twentieth : Setting :=
  setting (view 1 1 10 granted ++ view 2 2 10 behind ++ view 3 2 20 behind)

/-- The tenant on the tenth day, with the preview of the renewal. -/
def asking : Store :=
  wait (begun twentieth) 10 ((view 1 1 10 granted).map (renewal .scheduled (some 20)))

def reserving : Store := run (confirm twentieth (services [requirement]) confirmation) asking

def reservation : Transition.Key := ⟨.scheduledChange, "tenant", changeId, 2, addDays begin_ 20⟩

def claiming : Store :=
  run (claimTransition twentieth reservation "worker" minute) (wait reserving 20 [])

/-- The tenant while its renewal is provisioned. -/
def starting : Store :=
  run (completeTransition twentieth (services [requirement]) reservation "worker" 1) claiming

/-- The tenant after it has given up the renewal. -/
def abandoned : Store := run (cancelPrepared twentieth (services [requirement]) taskId 1) starting

/-- What the transactions of the renewal return and leave. -/
theorem renewal_facts :
    (commit (bootstrap twentieth (services []) "request" "web") empty).isOk = true ∧
      (begun twentieth).clock.now ≤ addDays begin_ 10 ∧
      (commit (confirm twentieth (services [requirement]) confirmation) asking).isOk = true ∧
      reserving.clock.now ≤ addDays begin_ 20 ∧
      (commit (claimTransition twentieth reservation "worker" minute)
        (wait reserving 20 [])).isOk = true ∧
      (commit (completeTransition twentieth (services [requirement]) reservation "worker" 1)
        claiming).isOk = true ∧
      (commit (cancelPrepared twentieth (services [requirement]) taskId 1) starting).isOk = true ∧
      asking.subscription.map (·.state) = some .active ∧
      (reserving.receipts.find? changeId).map (fun r => (r.action, r.status)) =
        some (.renew, .scheduled) ∧
      abandoned.subscription.map (fun b => (b.state, b.pendingChangeId)) =
        some (.restricted, "") ∧
      ∀ receipt ∈ (commit (confirm twentieth (services [requirement]) confirmation)
          asking).toOption.map Prod.fst,
        asking.receipts.find? receipt.changeId = none ∧ receipt.action ≠ .initial ∧
          receipt.status = .scheduled ∧ receipt.before = base := by
  decide +kernel

end Sample

open Sample

/-- A reserved renewal of an active subscription that has started its provisioning is
cancelled: the subscription is restricted. -/
theorem cancellation_restricts :
    Run (Step twentieth) empty
      [.bootstrap (services []) "request" "web", .elapse,
        .confirm (services [requirement]) confirmation, .elapse,
        .claimTransition reservation "worker" minute,
        .completeTransition (services [requirement]) reservation "worker" 1,
        .cancelPrepared (services [requirement]) taskId 1]
      abandoned ∧
      asking.subscription.map (·.state) = some .active ∧
      (reserving.receipts.find? changeId).map (fun r => (r.action, r.status)) =
        some (.renew, .scheduled) ∧
      abandoned.subscription.map (fun b => (b.state, b.pendingChangeId)) =
        some (.restricted, "") := by
  obtain ⟨boots, tenth, confirms, twentieth, claims, completes, cancels, active, status, state,
    -⟩ :=
    renewal_facts
  refine ⟨?_, active, status, state⟩
  refine .step (commits_run boots) ?_
  refine .step (elapsed_wait 10 ((view 1 1 10 granted).map
    (renewal .scheduled (some 20))) tenth) ?_
  refine .step (commits_run confirms) ?_
  refine .step (elapsed_wait 20 [] twentieth) ?_
  refine .step (commits_run claims) ?_
  refine .step (commits_run completes) ?_
  exact .step (commits_run cancels) (.done _)

/-- The reservation of the renewal leaves the tenant active. -/
theorem waiting_changes_nothing_renewal :
    ∃ b, reserving.subscription = some b ∧ b.state = .active := by
  obtain ⟨-, -, confirms, -, -, -, -, -, -, -, reports⟩ := renewal_facts
  obtain ⟨receipt, confirmed⟩ := commits_run confirms
  obtain ⟨first, change, scheduled, before⟩ := reports receipt (by rw [confirmed]; rfl)
  obtain ⟨_, _, p, b, -, -, _, saved, -, unchanged, -⟩ :=
    waiting_changes_nothing confirmed first change (.inl scheduled)
  refine ⟨b, saved, ?_⟩
  rw [unchanged (by rw [before]; rfl), before]
  rfl

end Biz.Change
