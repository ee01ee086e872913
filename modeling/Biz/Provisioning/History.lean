import Biz.Provisioning.Invariant

/-!
# Histories of a provisioning task

A history records every call on a task with the task before and after it and the
error it returned, rejected calls included; the workers, the times and the order
are arbitrary. The representation invariant and what follows from it hold of
every history that starts with `New`.
-/

namespace Biz.Provisioning

open Time Text Runs

/-- One call of a history. -/
structure Entry where
  before : Task
  call : Call
  after : Task
  error : Option Err

/-- The calls that return, as steps between tasks. A call that panics has none. -/
def Taken (digest : Digestible → String) (t : Task) (entry : Entry) (t' : Task) : Prop :=
  entry.before = t ∧ entry.after = t' ∧ entry.call.apply digest t = .returned t' entry.error

/-- An accepted claim that leaves the task running at step `i`. -/
def Entry.claims (entry : Entry) (i : Nat) : Prop :=
  (∃ owner now lease, entry.call = .claim owner now lease) ∧ entry.error = none ∧
    entry.after.state = .running ∧ entry.after.stepIndex = i

/-- An accepted claim of step `i` in the stage `PREPARE`. -/
def Entry.prepares (entry : Entry) (i : Nat) : Prop :=
  entry.claims i ∧ entry.after.stage = .prepare

/-- An accepted observation of step `i` with outcome absent, retryable or permanent. -/
def Entry.clears (entry : Entry) (i : Nat) : Prop :=
  (∃ owner token o now, entry.call = .observe owner token o now ∧
    (o.outcome = .absent ∨ o.outcome = .retryable ∨ o.outcome = .permanent)) ∧
    entry.error = none ∧ entry.before.stepIndex = i ∧ entry.before.stage ≠ .activate

variable {digest : Digestible → String}

theorem Taken.settles {t t' : Task} {entry : Entry} (taken : Taken digest t entry t')
    (invariant : Invariant digest t) : Invariant digest t' := by
  have settled := call_settles invariant entry.call
  rw [taken.2.2] at settled
  generalize entry.error = error at settled
  cases settled with
  | rejected error => exact invariant
  | accepted after kept revision => exact kept

/-- The invariant holds of every task that a history from `New` reaches. -/
theorem invariant_of_run {tenantId : String} {a : Approval} {rs : List Requirement} {now : Instant}
    {first last : Task} {entries : List Entry}
    (created : new digest tenantId a rs now = (first, none))
    (run : Run (Taken digest) first entries last) : Invariant digest last :=
  run.invariant (fun _ _ _ invariant taken => taken.settles invariant) (new_invariant created)

/-- A terminal task refuses every call and stays as it is. -/
theorem terminal_absorbs {t : Task} (terminal : t.terminal = true) (call : Call) :
    ∃ error, call.apply digest t = .returned t (some error) := by
  simp only [Task.terminal, Bool.or_eq_true, decide_eq_true_eq] at terminal
  have idle : t.state ≠ .running := by rcases terminal with done | done <;> simp [done]
  have unowned : ∀ owner token now, t.owns owner token now = false := by
    intro owner token now
    simp [Task.owns, idle]
  cases call with
  | claim owner now lease =>
    have undue : t.due now = false := by
      rcases terminal with done | done <;> simp [Task.due, done]
    exact ⟨.conflict, by simp [Call.apply, Task.claim, undue]⟩
  | observe owner token observation now =>
    exact ⟨.lease, by simp [Call.apply, Task.observe, unowned]⟩
  | retry now =>
    rcases terminal with done | done <;> simp [Call.apply, Task.retry, done]
  | cancel now =>
    rcases terminal with done | done <;>
      simp [Call.apply, Task.cancel, Task.cancellable, Task.terminal, done]
  | complete owner token completion now =>
    exact ⟨.lease, by simp [Call.apply, Task.complete, unowned]⟩

/-- A digest of the right length, for the concrete history below. -/
def fixedDigest (_ : Digestible) : String := String.ofList (List.replicate 64 'a')

def Outcome.left (t : Task) : Outcome → Task
  | .returned after _ => after
  | .panicked => t

/-- The entry of an accepted call under the fixed digest. -/
def Entry.accepted (t : Task) (call : Call) : Entry :=
  ⟨t, call, (call.apply fixedDigest t).left t, none⟩

def sampleApproval : Approval :=
  { changeId := "chg-1", actorId := "admin", previewHash := String.ofList (List.replicate 64 'b'),
    targetHash := String.ofList (List.replicate 64 'c'), targetPlanCode := "pro",
    targetPlanVersion := 1, subscriptionRevision := 1, sourceVersion := 1,
    entitlementVersion := 1, catalogRevision := 1 }

def sampleRequirement : Requirement :=
  { code := "storage", adapter := "bucket", version := "v1", maxAttempts := 3 }

def sampleTask : Task := (new fixedDigest "tenant-1" sampleApproval [sampleRequirement] 1).1

def sampleClaim : Entry := .accepted sampleTask (.claim "worker" 1 (10 * second))

def sampleReport : Entry :=
  .accepted sampleClaim.after (.observe "worker" 1 ⟨.retryable, "ref", "TIMEOUT"⟩ 2)

def sampleAgain : Entry :=
  .accepted sampleReport.after (.claim "worker" (10 * second) (10 * second))

theorem sampleTask_created :
    new fixedDigest "tenant-1" sampleApproval [sampleRequirement] 1 = (sampleTask, none) := by
  decide +kernel

theorem sampleClaim_taken : Taken fixedDigest sampleTask sampleClaim sampleClaim.after :=
  ⟨rfl, rfl, by decide +kernel⟩

theorem sampleReport_taken : Taken fixedDigest sampleClaim.after sampleReport sampleReport.after :=
  ⟨rfl, rfl, by decide +kernel⟩

theorem sampleAgain_taken : Taken fixedDigest sampleReport.after sampleAgain sampleAgain.after :=
  ⟨rfl, rfl, by decide +kernel⟩

/-- The representation invariant of every task that a history reaches, what any
next call does, and that terminal tasks absorb. -/
theorem representation (tenantId : String) (a : Approval) (rs : List Requirement) (now : Instant)
    (first : Task) (created : new digest tenantId a rs now = (first, none))
    (entries : List Entry) (t : Task) (run : Run (Taken digest) first entries t) :
    t.integrity digest = none ∧
    (∀ call : Call, ∃ after error, call.apply digest t = .returned after error ∧
      ((error ≠ none ∧ after = t) ∨
        (error = none ∧ after.integrity digest = none ∧ after.revision = t.revision + 1))) ∧
    (t.state = .running → (t.stage = .activate ↔ t.stepIndex = t.steps.length)) ∧
    t.stepIndex ≤ t.steps.length ∧
    (∀ i s, i < t.stepIndex → t.steps[i]? = some s →
      s.state = .ready ∧ s.effect = .ready ∧ s.evidence ≠ "") ∧
    (t.state = .applied ∨ t.state = .cancelled →
      ∀ call : Call, ∃ error, call.apply digest t = .returned t (some error)) := by
  have invariant := invariant_of_run created run
  refine ⟨invariant.integrity, ?_, invariant.body.staged, invariant.body.index, ?_, ?_⟩
  · intro call
    have settled := call_settles invariant call
    generalize call.apply digest t = outcome at settled
    cases settled with
    | rejected error => exact ⟨t, some error, rfl, .inl ⟨by simp, rfl⟩⟩
    | accepted after kept revision =>
      exact ⟨after, none, rfl, .inr ⟨rfl, kept.integrity, revision⟩⟩
  · intro i s early found
    exact (invariant.body.steps i s found).done early
  · intro terminal call
    exact terminal_absorbs (by simpa [Task.terminal] using terminal) call

/-- The invariant of the task that the sample history leaves running. -/
theorem representation_sample :
    sampleClaim.after.state = .running ∧ sampleClaim.after.integrity fixedDigest = none :=
  ⟨by decide +kernel,
    (representation _ _ _ _ _ sampleTask_created [sampleClaim] _
      (.step sampleClaim_taken (.done _))).1⟩

end Biz.Provisioning
