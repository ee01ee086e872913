import Biz.Provisioning.Moves

/-!
# How long a history can be

Every accepted call raises the revision, and the representation invariant bounds the
revision by leases and retry cycles and the leases by the work of the steps. What is left
is to bound the work by the requirements: in each cycle a step is attempted at most as
often as its requirement says, and there are at most ten retries.
-/

namespace Biz.Provisioning

open Time Runs

/-- An accepted claim that leaves the task running. -/
def Entry.grants (entry : Entry) : Bool :=
  match entry.call with
  | .claim _ _ _ => entry.error.isNone && entry.after.state = .running
  | _ => false

/-- The calls of a history that returned without an error. -/
def accepted (entries : List Entry) : Nat := entries.countP (·.error.isNone)

/-- The leases that a history has granted. -/
def leases (entries : List Entry) : Nat := entries.countP (·.grants)

/-- A bound on the accepted calls for steps with these numbers of attempts. -/
def callBound (maxAttempts : List Nat) : Nat :=
  110 + 2 * (maxAttempts.map fun n => 11 * n + 32).sum

variable {digest : Digestible → String} {t t' : Task} {entry : Entry}

section Counters

/-- An accepted call adds one to the revision, another one leaves the task alone. -/
theorem Taken.revision (taken : Taken digest t entry t') (invariant : Invariant digest t) :
    t'.revision = t.revision + if entry.error.isNone then 1 else 0 := by
  have settled := call_settles invariant entry.call
  rw [taken.2.2] at settled
  generalize entry.error = error at settled ⊢
  cases settled with
  | rejected error => rfl
  | accepted after kept revision => exact revision

/-- A recorded observation keeps the approval and the lease token. -/
theorem observe_frame {owner : String} {token : Nat} {o : Observation} {now : Instant}
    {error : Option Err} (returned : t.observe digest owner token o now = .returned t' error) :
    t'.approval = t.approval ∧ t'.leaseToken = t.leaseToken := by
  have observed := observe_observed digest t owner token o now
  rw [returned] at observed
  cases observed with
  | recorded s running valid stage current =>
    obtain ⟨-, -, -, token, approval, -⟩ := record_frame (s := s)
      (t := { t with failureCode := o.failureCode, retryAllowed := false }) now
      (Observation.of_valid valid).2.2.2
    exact ⟨approval, token⟩
  | _ => exact ⟨rfl, rfl⟩

/-- No call changes the approval, and only a claim that leaves the task running takes a new
token. -/
theorem Taken.frame (taken : Taken digest t entry t') (invariant : Invariant digest t) :
    t'.approval = t.approval ∧ t'.leaseToken = t.leaseToken + if entry.grants then 1 else 0 := by
  obtain ⟨before, call, _, _⟩ := entry
  obtain ⟨rfl, rfl, returned⟩ := taken
  dsimp only at returned invariant ⊢
  cases call with
  | claim owner now lease =>
    have next := invariant.increment64_leaseToken
    have claimed := claim_claimed digest before owner now lease
    rw [show before.claim digest owner now lease = _ from returned] at claimed
    cases claimed <;> first | exact ⟨rfl, rfl⟩ | exact ⟨rfl, next⟩
  | observe owner token o now => exact observe_frame returned
  | retry now =>
    simp only [Call.apply, Task.retry] at returned
    split at returned <;> (cases returned; exact ⟨rfl, rfl⟩)
  | cancel now =>
    simp only [Call.apply, Task.cancel] at returned
    split at returned <;> (cases returned; exact ⟨rfl, rfl⟩)
  | complete owner token completion now =>
    simp only [Call.apply, Task.complete] at returned
    split at returned
    · cases returned; exact ⟨rfl, rfl⟩
    · split at returned <;> (cases returned; exact ⟨rfl, rfl⟩)

end Counters

section Attempts

/-- The steps are those of the requirements, and each has used up no more attempts than
its cycles allow. -/
structure Charged (rs : List Requirement) (t : Task) : Prop where
  requirements : t.steps.map (·.requirement) = rs
  attempts : ∀ s ∈ t.steps,
    s.attempts ≤ s.cycleAttempts + s.requirement.maxAttempts * t.retryCycles

theorem map_requirement_set {steps : List Step} {i : Nat} {s s' : Step}
    (current : steps[i]? = some s) (same : s'.requirement = s.requirement) :
    (steps.set i s').map (·.requirement) = steps.map (·.requirement) := by
  refine List.ext_getElem? fun j => ?_
  rw [List.getElem?_map, List.getElem?_map, List.getElem?_set]
  split
  · rename_i here
    subst here
    have inside := (List.getElem?_eq_some_iff.mp current).1
    rw [if_pos inside, current, Option.map_some, Option.map_some, same]
  · rfl

theorem map_requirement_modify (steps : List Step) (i : Nat) {change : Step → Step}
    (same : ∀ s, (change s).requirement = s.requirement) :
    (steps.modify i change).map (·.requirement) = steps.map (·.requirement) := by
  refine List.ext_getElem? fun j => ?_
  rw [List.getElem?_map, List.getElem?_map, List.getElem?_modify]
  cases steps[j]? with
  | none => rfl
  | some s => by_cases here : i = j <;> simp [here, same]

variable {rs : List Requirement}

/-- Step lemma: a claim pays for an attempt with one of the cycle, and a retry starts a
cycle when the attempts of the last one are within its allowance. -/
theorem Taken.charged (taken : Taken digest t entry t') (invariant : Invariant digest t)
    (charged : Charged rs t) : Charged rs t' := by
  obtain ⟨requirements, attempts⟩ := charged
  cases taken.moved invariant with
  | kept steps index cycles untouched unreported =>
    exact ⟨by rw [steps, requirements], by rw [steps, cycles]; exact attempts⟩
  | claimed s s' current steps index cycles requirement effect paid touches unreported =>
    refine ⟨by rw [steps, map_requirement_set current requirement, requirements], ?_⟩
    rw [steps, cycles]
    intro x member
    rcases List.mem_or_eq_of_mem_set member with old | rfl
    · exact attempts x old
    · have before := attempts s (List.mem_of_getElem? current)
      rw [requirement]
      omega
  | reported s s' current steps index cycles requirement effect same cycle untouched reports =>
    refine ⟨by rw [steps, map_requirement_set current requirement, requirements], ?_⟩
    rw [steps, cycles]
    intro x member
    rcases List.mem_or_eq_of_mem_set member with old | rfl
    · exact attempts x old
    · have before := attempts s (List.mem_of_getElem? current)
      rw [requirement, same, cycle]
      exact before
  | restarted steps index cycles untouched unreported =>
    refine ⟨?_, ?_⟩
    · rw [steps, ← requirements]
      exact map_requirement_modify _ _ fun _ => rfl
    rw [steps, cycles]
    intro x member
    obtain ⟨j, found⟩ := List.mem_iff_getElem?.mp member
    rw [List.getElem?_modify] at found
    cases current : t.steps[j]? with
    | none => simp [current] at found
    | some s =>
      have before := attempts s (List.mem_of_getElem? current)
      have allowed := (invariant.body.steps j s current).allowed
      simp only [current, Option.map_eq_map, Option.map_some, Option.some.injEq] at found
      subst found
      split
      · simp only [Nat.mul_add, Nat.mul_one]
        omega
      · simp only [Nat.mul_add, Nat.mul_one]
        omega

/-- The attempts of a step within its cycles. -/
theorem Charged.attempts_le (charged : Charged rs t) (invariant : Invariant digest t) {s : Step}
    (member : s ∈ t.steps) :
    s.attempts ≤ s.requirement.maxAttempts * (t.retryCycles + 1) ∧
      s.requirement.maxAttempts * (t.retryCycles + 1) ≤ 110 ∧ s.reconciliations ≤ 32 := by
  obtain ⟨i, found⟩ := List.mem_iff_getElem?.mp member
  have step := invariant.body.steps i s found
  have spent := charged.attempts s member
  have allowed := step.allowed
  have few := maxAttempts_le step.requirement
  have cycles := invariant.body.cycles
  refine ⟨?_, ?_, step.reconciliations⟩
  · rw [Nat.mul_add, Nat.mul_one]
    omega
  · exact Nat.mul_le_mul few (Nat.succ_le_succ cycles)

/-- The work of the steps within the attempts of their requirements. -/
theorem Charged.work_le (charged : Charged rs t) (invariant : Invariant digest t) :
    work t.steps ≤ ((rs.map (·.maxAttempts)).map fun n => 11 * n + 32).sum := by
  have cycles := invariant.body.cycles
  rw [← charged.requirements, List.map_map, List.map_map]
  refine List.sum_le_sum fun s member => ?_
  obtain ⟨spent, -, reconciled⟩ := charged.attempts_le invariant member
  have most : s.requirement.maxAttempts * (t.retryCycles + 1) ≤ s.requirement.maxAttempts * 11 :=
    Nat.mul_le_mul_left _ (Nat.succ_le_succ cycles)
  simp only [Function.comp_apply]
  omega

end Attempts

section Histories

variable {tenantId : String} {a : Approval} {rs : List Requirement} {now : Instant}
  {first last : Task} {entries : List Entry}

theorem newSteps_requirements (task : String) (i : Nat) (rs : List Requirement) :
    (newSteps digest task i rs).map (·.requirement) = rs := by
  induction rs generalizing i with
  | nil => rfl
  | cons r rest ih =>
    rw [newSteps, List.map_cons, ih]

theorem new_charged (created : new digest tenantId a rs now = (first, none)) :
    Charged rs first ∧ first.revision = 1 ∧ first.leaseToken = 0 := by
  unfold new at created
  split at created
  · cases created
  rw [Prod.mk.injEq] at created
  obtain ⟨rfl, -⟩ := created
  refine ⟨⟨newSteps_requirements _ 0 rs, fun s member => ?_⟩, rfl, rfl⟩
  rw [(newSteps_idle _ 0 rs s member).2.1]
  exact Nat.zero_le _

/-- Provisioning is bounded: no history from `New` has more accepted calls than a bound
on the numbers of attempts of the requirements, the counters of a step stay within its
cycles, and the revision and the lease token count calls and leases and never wrap.

Proof: the revision is one more than the accepted calls, and the invariant bounds it by
the work of the steps. -/
theorem history_bounded (created : new digest tenantId a rs now = (first, none))
    (run : Run (Taken digest) first entries last) :
    accepted entries ≤ callBound (rs.map (·.maxAttempts)) ∧
      last.steps.map (·.requirement) = rs ∧
      (∀ s ∈ last.steps, s.attempts ≤ s.requirement.maxAttempts * (last.retryCycles + 1) ∧
        s.requirement.maxAttempts * (last.retryCycles + 1) ≤ 110 ∧ s.reconciliations ≤ 32) ∧
      (last.revision = 1 + accepted entries ∧ last.revision < maxUint64) ∧
      last.leaseToken = leases entries ∧ last.leaseToken < maxUint64 := by
  obtain ⟨charged, revision, token⟩ := new_charged created
  have counted := run.history (fun past t => Invariant digest t ∧ Charged rs t ∧
      t.revision = 1 + accepted past ∧ t.leaseToken = leases past)
    (fun past before entry after held taken => by
      obtain ⟨invariant, charged, revision, token⟩ := held
      refine ⟨taken.settles invariant, taken.charged invariant charged, ?_, ?_⟩
      · rw [taken.revision invariant, revision, accepted, accepted, List.countP_append,
          List.countP_singleton, Nat.add_assoc]
      · rw [(taken.frame invariant).2, token, leases, leases, List.countP_append,
          List.countP_singleton])
    ⟨new_invariant created, charged, revision, token⟩
  obtain ⟨invariant, charged, revision, token⟩ := counted
  have small := invariant.counters
  have spent := charged.work_le invariant
  have tokens := invariant.body.tokens
  have revisions := invariant.revisions
  have cycles := invariant.body.cycles
  have activations := invariant.body.activations.1
  have ahead : allowance last.state ≤ 3 := by cases last.state <;> decide
  refine ⟨?_, charged.requirements, fun s member => charged.attempts_le invariant member,
    ⟨revision, ?_⟩, token, ?_⟩
  · unfold callBound
    omega
  · unfold maxUint64
    omega
  · unfold maxUint64
    omega

/-- Three accepted calls with two leases, of at most two hundred and forty. -/
theorem history_bounded_sample :
    accepted [sampleClaim, sampleReport, sampleAgain] ≤ 240 ∧ sampleAgain.after.revision = 4 ∧
      sampleAgain.after.leaseToken = 2 := by
  obtain ⟨calls, -, -, ⟨revision, -⟩, token, -⟩ := history_bounded sampleTask_created
    (.step sampleClaim_taken (.step sampleReport_taken (.step sampleAgain_taken (.done _))))
  exact ⟨calls.trans (by decide), revision.trans (by decide +kernel),
    token.trans (by decide +kernel)⟩

end Histories

end Biz.Provisioning
