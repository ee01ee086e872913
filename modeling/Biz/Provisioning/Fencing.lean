import Biz.Library.Checks
import Biz.Library.Fencing
import Biz.Provisioning.Safety

/-!
# Leases of stored provisioning tasks

Workers and operators read a task from its table, call a method on their copy and write
it back with `Save` of `infrastructure/persistence/provisioning.go`, which compares the
revision and the hash of the row with those of the copy. The row of the model is the task
of its payload; the other columns repeat fields of the task.
-/

namespace Biz.Provisioning

open Time Text Checks Runs Fencing

/-- `Reason`. -/
def validReason (s : String) : Bool := trimSpace s ≠ "" && s.utf8ByteSize ≤ 512

/-- The task that a confirmation inserts; one of an initial subscription cannot be
cancelled. -/
def stored (digest : Digestible → String) (t : Task) (cancellationDisabled : Bool) : Task :=
  ({ t with cancellationDisabled }).seal digest

section Functions

variable (digest : Digestible → String) (approvalDigest : Approval → String)

def saveTask (row before after : Task) (actor reason : String) : Except Err Task := do
  require .conflict (before.id = after.id ∧ before.tenantId = after.tenantId ∧
    after.revision = increment64 before.revision ∧
    approvalDigest before.approval = approvalDigest after.approval ∧ validReason reason ∧
    actor ≠ "")
  match after.integrity digest with
  | some error => .error error
  | none => do
    require .conflict (row.id = before.id ∧ row.tenantId = before.tenantId ∧
      row.revision = before.revision ∧ row.hash = before.hash)
    return after

/-- A call and what is written to the audit with it. -/
structure Request where
  call : Call
  actor : String
  reason : String

/-- The row after a call on a copy that is accepted and saved. -/
def attempt (request : Request) (copy row : Task) : Option Task :=
  match request.call.apply digest copy with
  | .returned after none =>
    (saveTask digest approvalDigest row copy after request.actor request.reason).toOption
  | _ => none

end Functions

/-- How the leases of tasks show. -/
def leaseView : View Task Request Instant where
  token t := t.leaseToken
  lease t := if t.state = .running then t.leaseUntil else none
  claims request :=
    match request.call with
    | .claim _ _ _ => true
    | _ => false
  report request :=
    match request.call with
    | .observe _ token _ now => some (token, now)
    | .complete _ token _ now => some (token, now)
    | _ => none

section Rules

variable {digest : Digestible → String} {approvalDigest : Approval → String} {request : Request}
  {copy row after t : Task}

theorem saveTask_ok {before next : Task} {actor reason : String}
    (saved : saveTask digest approvalDigest row before next actor reason = .ok after) :
    after = next ∧ before.revision = row.revision := by
  simp only [saveTask, bind_ok, require_ok] at saved
  obtain ⟨-, -, saved⟩ := saved
  split at saved
  · cases saved
  · simp only [bind_ok, require_ok, pure_ok] at saved
    obtain ⟨-, ⟨-, -, revision, -⟩, rfl⟩ := saved
    exact ⟨rfl, revision.symm⟩

/-- An accepted attempt is an accepted call on a copy of the current revision. -/
theorem attempt_some (attempted : attempt digest approvalDigest request copy row = some after) :
    request.call.apply digest copy = .returned after none ∧ copy.revision = row.revision := by
  unfold attempt at attempted
  split at attempted
  next next applied =>
    obtain ⟨rfl, revision⟩ := saveTask_ok (toOption_some.mp attempted)
    exact ⟨applied, revision⟩
  next => cases attempted

/-- The entry of an accepted attempt on the row itself. -/
theorem attempt_taken (attempted : attempt digest approvalDigest request row row = some after) :
    Taken digest row ⟨row, request.call, after, none⟩ after :=
  ⟨rfl, rfl, (attempt_some attempted).1⟩

theorem checked_attempt :
    Checked (Invariant digest) (fun t : Task => t.revision) (attempt digest approvalDigest) where
  current attempted := (attempt_some attempted).2
  raises held attempted := by
    rw [(attempt_taken attempted).revision held]
    exact Nat.lt_succ_self _
  keeps held attempted := (attempt_taken attempted).settles held

theorem lease_ne_none (leased : leaseView.lease t ≠ none) : t.state = .running := by
  by_contra idle
  exact leased (if_neg idle)

theorem claims_iff : leaseView.claims request = true ↔
    ∃ owner now lease, request.call = .claim owner now lease := by
  simp only [leaseView]
  cases request.call <;> simp

/-- What holds of an owner's report. -/
theorem owns_lease {owner : String} {token : Nat} {now : Instant}
    (owned : t.owns owner token now = true) :
    t.leaseToken = token ∧ ∃ until_, leaseView.lease t = some until_ ∧ now < until_ := by
  simp only [Task.owns, Bool.and_eq_true, decide_eq_true_eq] at owned
  obtain ⟨⟨⟨running, -⟩, same⟩, early⟩ := owned
  cases ends : t.leaseUntil with
  | none => simp [ends] at early
  | some until_ =>
    rw [ends] at early
    exact ⟨same, until_, by simp [leaseView, running, ends], by simpa using early⟩

theorem owns_of_report {token : Nat} {now : Instant}
    (reports : leaseView.report request = some (token, now))
    (applied : request.call.apply digest t = .returned after none) :
    ∃ owner, t.owns owner token now = true := by
  obtain ⟨call, _, _⟩ := request
  cases call with
  | observe owner k o at_ =>
    obtain ⟨rfl, rfl⟩ := reports
    refine ⟨owner, Bool.of_not_eq_false fun lost => ?_⟩
    rw [Call.apply, Task.observe, if_pos lost] at applied
    cases applied
  | complete owner k c at_ =>
    obtain ⟨rfl, rfl⟩ := reports
    refine ⟨owner, Bool.of_not_eq_false fun lost => ?_⟩
    rw [Call.apply, Task.complete, if_pos (.inl lost)] at applied
    cases applied
  | claim => cases reports
  | retry => cases reports
  | cancel => cases reports

theorem leases_attempt :
    Leases leaseView (Invariant digest) (attempt digest approvalDigest) where
  grant := by
    rintro ⟨request, row, after⟩ held attempted ⟨claims, leased⟩
    have token := ((attempt_taken attempted).frame held).2
    obtain ⟨owner, now, lease, call⟩ := claims_iff.mp claims
    dsimp only at call
    have granted : Entry.grants ⟨row, request.call, after, none⟩ = true := by
      simp only [Entry.grants, call]
      simpa using lease_ne_none leased
    refine token.trans ?_
    rw [if_pos granted]
    rfl
  other := by
    rintro ⟨request, row, after⟩ held attempted idle
    have taken := attempt_taken attempted
    have stopped : after.state ≠ .running := by
      intro running
      cases taken.became held with
      | same unchanged =>
        have raised := taken.revision held
        rw [unchanged] at raised
        exact absurd raised (by simp)
      | granted state claims activation =>
        have leased := (taken.settles held).body.leased running
        exact idle ⟨claims_iff.mpr claims.1, by simpa [leaseView, running] using leased.2.1⟩
      | waits state => simp [running] at state
      | cancelled state safe steps => simp [running] at state
      | applied state => simp [running] at state
    have token := (taken.frame held).2
    have ungranted : Entry.grants ⟨row, request.call, after, none⟩ = false := by
      unfold Entry.grants
      cases request.call <;> simp [stopped]
    refine ⟨token.trans ?_, if_neg stopped⟩
    rw [ungranted]
    rfl
  reported := by
    rintro ⟨request, row, after⟩ token now held attempted reports
    obtain ⟨owner, owned⟩ := owns_of_report reports (attempt_some attempted).1
    obtain ⟨same, ends⟩ := owns_lease owned
    refine ⟨same, ends, fun grants => ?_⟩
    obtain ⟨_, _, _, call⟩ := claims_iff.mp grants.1
    dsimp only at call
    simp [leaseView, call] at reports

end Rules

section Runs

variable {digest : Digestible → String} {approvalDigest : Approval → String}

/-- A stored task is one that the invariant holds of. -/
theorem stored_invariant {t : Task} (invariant : Invariant digest t) (disabled : Bool) :
    Invariant digest (stored digest t disabled) :=
  ⟨⟨invariant.body.identified, invariant.body.width, invariant.body.index, invariant.body.steps,
    invariant.body.leased, invariant.body.staged, invariant.body.unleased, invariant.body.applied,
    invariant.body.cycles, invariant.body.activations, invariant.body.tokens⟩, rfl,
    invariant.revision, invariant.revisions⟩

/-- Tokens of provisioning tasks fence, in every interleaving of calls on copies. -/
theorem provisioning_fenced {tenantId : String} {a : Approval} {rs : List Requirement}
    {now : Instant} {t : Task} (created : new digest tenantId a rs now = (t, none))
    (disabled : Bool) {events : List (Event Task Request)} {last : World Task}
    (run : Run (Access (attempt digest approvalDigest)) ⟨stored digest t disabled, []⟩ events
      last) : Fenced leaseView (saves events) := by
  have held := stored_invariant (new_invariant created) disabled
  have serial := serialises checked_attempt run held (by simp)
  refine fenced_of_run leases_attempt checked_attempt serial held ?_
  have queued : t.state = .queued := by
    unfold new at created
    split at created
    · cases created
    rw [Prod.mk.injEq] at created
    obtain ⟨rfl, -⟩ := created
    rfl
  simp [leaseView, stored, Task.seal, queued]

end Runs

end Biz.Provisioning
