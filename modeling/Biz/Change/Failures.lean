import Biz.Change.Quotas

/-!
# Reserved changes that fail

A reserved change that is due is tried and reported as failed in one transaction, so what
the attempt has written would stay. The errors that end a change are raised before the
sources are written: once the first source is, every error is tried again later.
-/

namespace Biz.Change

open Time Checks Transaction Subscription

variable {C : Setting} {S : Services} {store after : Store} {id : Transition.Key} {worker : String}
  {token : Nat} {result : TransitionResult}

theorem receipt_of_update {key : String} {next : Receipt}
    (ledger : (C.ledger after).receipt = Function.update (C.ledger store).receipt key (some next)) :
    after.receipts.find? key = some next :=
  (congrFun ledger key).trans (Function.update_self ..)

/-- A reserved change that fails, as its transition or its receipt says, has left the
sources and their version as they were when the failure was reported, and still does. Of the
subscription it only releases the reservation. -/
theorem failed_change_keeps_rights
    (ran : completeScheduledChange C S id worker token store = .ok result after)
    (fails : result.task.state = .reconcileRequired ∨
      ∃ r, after.receipts.find? id.authorityId = some r ∧ r.status = .failed ∧
        store.receipts.find? id.authorityId ≠ some r) :
    ∃ raw known next reason middle, store.subscription = some raw ∧
      after.subscription = some { raw with revision := raw.revision + 1, pendingChangeId := "" } ∧
      after.receipts.find? id.authorityId = some next ∧ next.status = .failed ∧
      result.task.state = .reconcileRequired ∧ SameRights C store after ∧
      SameRights C store middle ∧
      failScheduledTransition C S id worker token known raw reason middle = .ok result after := by
  obtain ⟨raw, _, receipt, held, -, -, stored, outcome⟩ := outcome_of_scheduled ran
  have found := (getReceipt_ok stored).1
  have key := (key_of_receipt stored).2
  -- Apart from a failure, the transition and the receipt say something else.
  have otherwise (state : result.task.state ≠ .reconcileRequired)
      (receipts : ∀ r, after.receipts.find? id.authorityId = some r → r.status = .failed →
        store.receipts.find? id.authorityId = some r) : False := by
    rcases fails with left | ⟨r, kept, failed, new⟩
    · exact state left
    · exact new (receipts r kept failed)
  cases outcome with
  | superseded middle current at_ quiet same finishes =>
    refine (otherwise ?_ fun r kept _ => ?_).elim
    · rw [(run_finishTransition finishes).1]
      decide
    · rwa [receipts_of_finish finishes quiet.receipt] at kept
  | failed middle reason quiet rights reserved refused failing =>
    obtain ⟨next, _, _, state, revised, -, -, -, -, status, same, ledger⟩ :=
      run_failScheduledTransition quiet found failing
    refine ⟨raw, receipt, next, reason, middle, held, ?_, ?_, status, state,
      Trans.trans rights same,
      rights, failing⟩
    · rw [← revised]
      exact congrArg Ledger.subscription ledger
    · exact receipt_of_update (congrArg Ledger.receipt ledger)
  | started middle m report requirements current at_ quiet same reserved starts =>
    obtain ⟨_, _, _, state, -, -, -, -, -, -, status, ledger⟩ :=
      run_startProvisioning quiet found starts
    refine (otherwise (by rw [state]; decide) fun r kept failed => ?_).elim
    rw [receipt_of_update (congrArg Ledger.receipt ledger), Option.some.injEq] at kept
    rw [← kept, status] at failed
    cases failed
  | taken middle second third fourth m report current at_ b view quiet same reserved due captured
      passes applies saves updates finishes =>
    obtain ⟨state, _, rfl, -⟩ := run_finishTransition finishes
    obtain ⟨_, rfl, lookups⟩ := run_updateReceipt updates
    refine (otherwise (by rw [state]; decide) fun r kept failed => ?_).elim
    rw [lookups, key, Function.update_self, Option.some.injEq] at kept
    rw [← kept] at failed
    cases failed

open Sample

/-- A renewal that needs nothing prepared any more fails, and the tenant has its sources. -/
theorem failed_change_keeps_rights_renewal :
    ∃ result after, completeScheduledChange Sample.twentieth (Sample.services []) Sample.reservation
        "worker" 1 Sample.claiming = .ok result after ∧
      SameRights Sample.twentieth Sample.claiming after := by
  have facts : (match completeScheduledChange twentieth (services []) reservation "worker" 1
      claiming with
      | .ok result _ => decide (result.task.state = .reconcileRequired)
      | .error _ _ => false) = true := by
    decide +kernel
  split at facts
  · rename_i result after ran
    obtain ⟨_, _, _, _, _, -, -, -, -, -, rights, -⟩ :=
      failed_change_keeps_rights ran (.inl (of_decide_eq_true facts))
    exact ⟨result, after, ran, rights⟩
  · cases facts

end Biz.Change
