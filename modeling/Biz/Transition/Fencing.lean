import Biz.Provisioning.Fencing
import Biz.Transition.Task

/-!
# Leases of stored time transitions

Workers claim the task of a transition and finish it through `Save` of
`infrastructure/persistence/timetransition.go`, which compares the revision and the hash
of the row with those of the copy they hold. `hash` is an arbitrary function of a task.
The rules of leases hold as they do of provisioning tasks, so tokens fence here too.
-/

namespace Biz.Transition

open Time Text Checks Runs Fencing

/-- What a worker does with its copy of a task. -/
inductive Call
  | claim (owner : String) (now : Instant) (lease : Duration)
  | finish (owner : String) (token : Nat) (state : State) (outcome : String) (now : Instant)

section Functions

variable (zones : String → Bool) (hash : Task → String)

def Call.apply (t : Task) : Call → Except Err Task
  | .claim owner now lease => t.claim zones owner now lease
  | .finish owner token state outcome now => t.finish zones owner token state outcome now

def save (row before after : Task) : Except Err Task := do
  require .conflict (before.id = after.id ∧ before.revision ≠ 0 ∧
    after.revision = before.revision + 1 ∧ before.businessTimezone = after.businessTimezone)
  after.integrity zones
  require .conflict (row.id = before.id ∧ row.revision = before.revision ∧ hash row = hash before)
  return after

/-- The row after a call on a copy that is accepted and saved. -/
def attempt (call : Call) (copy row : Task) : Option Task :=
  (do
    let after ← call.apply zones copy
    save zones hash row copy after : Except Err Task).toOption

end Functions

/-- How the leases of transitions show. -/
def leaseView : View Task Call Instant where
  token t := t.leaseToken
  lease t := if t.state = .running then t.leaseUntil else none
  claims
    | .claim _ _ _ => true
    | .finish _ _ _ _ _ => false
  report
    | .claim _ _ _ => none
    | .finish _ token _ _ now => some (token, now)

section Rules

variable {zones : String → Bool} {hash : Task → String} {call : Call} {copy row after t : Task}

/-- The end of a lease is a whole number of microseconds. -/
def WholeLease (t : Task) : Prop := ∀ until_ ∈ t.leaseUntil, until_ % microsecond = 0

/-- An accepted attempt is an accepted call on a copy of the current revision. -/
theorem attempt_some (attempted : attempt zones hash call copy row = some after) :
    call.apply zones copy = .ok after ∧ copy.revision = row.revision ∧
      after.revision = copy.revision + 1 := by
  rw [attempt, toOption_some, bind_ok] at attempted
  obtain ⟨_, applied, saved⟩ := attempted
  simp only [save, bind_ok, require_ok, pure_ok] at saved
  obtain ⟨-, ⟨-, -, raised, -⟩, -, -, -, ⟨-, revision, -⟩, rfl⟩ := saved
  exact ⟨applied, revision.symm, raised⟩

theorem Task.finish_owns {owner outcome : String} {token : Nat} {state : State} {now : Instant}
    (finished : t.finish zones owner token state outcome now = .ok after) :
    t.owns owner token now = true ∧ state ≠ .running := by
  simp only [finish, bind_ok, require_ok, pure_ok] at finished
  obtain ⟨-, ⟨owned, -⟩, -, ended, -⟩ := finished
  rw [Task.owns, canonicalTime_of_whole (canonicalTime_whole now)] at owned
  refine ⟨owned, ?_⟩
  rcases ended with rfl | rfl | rfl <;> decide

theorem lt_of_canonicalTime_lt {now until_ : Instant} (whole : until_ % microsecond = 0)
    (early : canonicalTime now < until_) : now < until_ := by
  have rounded : ∀ n u : Int, u % 1000 = 0 → n - n % 1000 < u → n < u := by omega
  exact rounded now until_ whole early

theorem checked_attempt :
    Checked WholeLease (fun t : Task => t.revision) (attempt zones hash) where
  current attempted := (attempt_some attempted).2.1
  raises _ attempted := by
    rw [(attempt_some attempted).2.2]
    exact Nat.lt_succ_self _
  keeps := by
    intro call row after held attempted
    have applied := (attempt_some attempted).1
    cases call with
    | claim owner now lease =>
      obtain rfl := Task.claim_ok applied
      rintro until_ ⟨⟩
      exact canonicalTime_whole _
    | finish owner token state outcome now =>
      obtain rfl := Task.finish_ok applied
      rintro until_ ⟨⟩

theorem leases_attempt : Leases leaseView WholeLease (attempt zones hash) where
  grant := by
    rintro ⟨call, row, after⟩ held attempted ⟨claims, -⟩
    have applied := (attempt_some attempted).1
    cases call with
    | claim owner now lease =>
      have same := Task.claim_ok applied
      dsimp only at same
      subst same
      rfl
    | finish => cases claims
  other := by
    rintro ⟨call, row, after⟩ held attempted idle
    have applied := (attempt_some attempted).1
    cases call with
    | claim owner now lease =>
      have same := Task.claim_ok applied
      dsimp only at same
      subst same
      exact absurd ⟨rfl, by simp [leaseView, Task.leased]⟩ idle
    | finish owner token state outcome now =>
      have same := Task.finish_ok applied
      have stopped := (Task.finish_owns applied).2
      dsimp only at same
      subst same
      exact ⟨rfl, if_neg stopped⟩
  reported := by
    rintro ⟨call, row, after⟩ token now held attempted reports
    have applied := (attempt_some attempted).1
    cases call with
    | claim => cases reports
    | finish owner k state outcome at_ =>
      obtain ⟨rfl, rfl⟩ := reports
      have owned := (Task.finish_owns applied).1
      simp only [Task.owns, Bool.and_eq_true, decide_eq_true_eq] at owned
      obtain ⟨⟨⟨running, -⟩, same⟩, early⟩ := owned
      cases ends : row.leaseUntil with
      | none => simp [ends] at early
      | some until_ =>
        rw [ends] at early
        refine ⟨same, ⟨until_, by simp [leaseView, running, ends], ?_⟩, fun grants =>
          nomatch grants.1⟩
        exact lt_of_canonicalTime_lt (held until_ ends) (by simpa using early)

end Rules

section Runs

variable {zones : String → Bool} {hash : Task → String}

/-- Tokens of time transitions fence, in every interleaving of calls on copies. -/
theorem transition_fenced {kind : Kind} {tenantId authority businessTimezone : String}
    {version : Nat} {due now : Instant} {t : Task}
    (created : newInTimezone zones kind tenantId authority version due now businessTimezone =
      .ok t) {events : List (Event Task Call)} {last : World Task}
    (run : Run (Access (attempt zones hash)) ⟨t, []⟩ events last) :
    Fenced leaseView (saves events) := by
  obtain rfl := newInTimezone_ok created
  have held : WholeLease (queued ⟨kind, tenantId, authority, version, canonicalTime due⟩
      (canonicalTime now) businessTimezone) := by
    rintro until_ ⟨⟩
  exact fenced_of_run leases_attempt checked_attempt
    (serialises checked_attempt run held (by simp)) held rfl

/-- Leases fence, for both kinds of tasks and in any interleaving of workers that hold
copies and save through the check of the revision: a granted lease has a larger token than
any before it, at most one report is accepted for each token, and none after a lease with a
larger token was saved or from the end of its own lease on. -/
theorem leases_fenced :
    (∀ (digest : Provisioning.Digestible → String)
        (approvalDigest : Provisioning.Approval → String) (tenantId : String)
        (a : Provisioning.Approval) (rs : List Provisioning.Requirement) (now : Instant)
        (t : Provisioning.Task) (disabled : Bool)
        (events : List (Event Provisioning.Task Provisioning.Request))
        (last : World Provisioning.Task),
      Provisioning.new digest tenantId a rs now = (t, none) →
      Run (Access (Provisioning.attempt digest approvalDigest))
        ⟨Provisioning.stored digest t disabled, []⟩ events last →
      Fenced Provisioning.leaseView (saves events)) ∧
    ∀ (zones : String → Bool) (hash : Task → String) (kind : Kind)
        (tenantId authority businessTimezone : String) (version : Nat) (due now : Instant)
        (t : Task) (events : List (Event Task Call)) (last : World Task),
      newInTimezone zones kind tenantId authority version due now businessTimezone = .ok t →
      Run (Access (attempt zones hash)) ⟨t, []⟩ events last →
      Fenced leaseView (saves events) :=
  ⟨fun _ _ _ _ _ _ _ disabled _ _ created run =>
      Provisioning.provisioning_fenced created disabled run,
    fun _ _ _ _ _ _ _ _ _ _ _ _ created run => transition_fenced created run⟩

end Runs

section Sample

def sampleQueued : Task :=
  queued ⟨.scheduledChange, "tenant", "chg-1", 1, hour⟩ hour "UTC"

def sampleClaim (owner : String) (now : Instant) : Call := .claim owner now (10 * second)

def sampleFirst : Task := sampleQueued.leased "first" hour (10 * second)

def sampleSecond : Task := sampleFirst.leased "second" (hour + minute) (10 * second)

/-- The first worker reports after its lease has ended and the second has claimed. -/
def sampleReport : Call := .finish "first" 1 .applied "done" (hour + 2 * minute)

def sampleEvents : List (Event Task Call) :=
  [.read, .saved (sampleClaim "first" hour) sampleQueued sampleFirst, .read,
    .saved (sampleClaim "second" (hour + minute)) sampleFirst sampleSecond,
    .refused sampleReport sampleFirst]

def sampleAttempt : Call → Task → Task → Option Task := attempt (fun _ => true) fun _ => ""

theorem sample_events :
    Run (Access sampleAttempt) ⟨sampleQueued, []⟩ sampleEvents
      ⟨sampleSecond, [sampleFirst, sampleQueued]⟩ := by
  have first : sampleAttempt (sampleClaim "first" hour) sampleQueued sampleQueued =
      some sampleFirst := by decide +kernel
  have second : sampleAttempt (sampleClaim "second" (hour + minute)) sampleFirst sampleFirst =
      some sampleSecond := by decide +kernel
  have late : sampleAttempt sampleReport sampleFirst sampleSecond = none := by decide +kernel
  exact .step (.read _) (.step (.saved (by simp) first) (.step (.read _)
    (.step (.saved (by simp) second) (.step (.refused (by simp) late) (.done _)))))

def sampleRequest : Provisioning.Request :=
  ⟨.claim "worker" 1 (10 * second), "admin", "worker lease claim"⟩

theorem leases_fenced_sample :
    Fenced Provisioning.leaseView (saves [.read,
        .saved sampleRequest Provisioning.sampleTask Provisioning.sampleClaim.after]) ∧
      Fenced leaseView (saves sampleEvents) := by
  have same : Provisioning.stored Provisioning.fixedDigest Provisioning.sampleTask false =
      Provisioning.sampleTask := by decide +kernel
  have claimed : Provisioning.attempt Provisioning.fixedDigest (fun _ => "") sampleRequest
      Provisioning.sampleTask Provisioning.sampleTask =
        some Provisioning.sampleClaim.after := by decide +kernel
  have created : newInTimezone (fun _ => true) .scheduledChange "tenant" "chg-1" 1 hour hour
      "UTC" = .ok sampleQueued := by decide +kernel
  constructor
  · refine leases_fenced.1 _ (fun _ => "") _ _ _ _ _ false _
      ⟨Provisioning.sampleClaim.after, [Provisioning.sampleTask]⟩
      Provisioning.sampleTask_created ?_
    rw [same]
    exact .step (.read _) (.step (.saved (by simp) claimed) (.done _))
  · exact leases_fenced.2 _ _ _ _ _ _ _ _ _ _ _ _ created sample_events

end Sample

end Biz.Transition
