import Biz.Library.Time
import Biz.Text

/-!
# The provisioning task

The durable task of `domain/provisioning`: one step for each requirement of an
approved change, a lease for the worker that runs the current step, and the
methods `Claim`, `Observe`, `Cancel`, `Retry` and `Complete` that mutate it.

A method takes the task it is called on and returns the task it leaves behind
with the error it returns, so a mutation before an error would be visible. An
index out of range is the separate outcome `panicked`. Counters are natural
numbers reduced modulo their width wherever the code increments them; the step
index is an `int` that only counts up from zero. `Digest` is an arbitrary
function of the value it is given.
-/

namespace Biz.Provisioning

open Time Text

inductive TaskState
  | queued | running | retryWait | ready | applied | failed | reconcileRequired | cancelled
  deriving DecidableEq

inductive StepState
  | waiting | running | ready
  deriving DecidableEq

inductive Effect
  | absent | unknown | ready
  deriving DecidableEq

inductive Stage
  | prepare | reconcile | activate
  deriving DecidableEq

/-- The outcome texts of an observation; any other text is `unrecognised`. -/
inductive Verdict
  | ready | absent | retryable | permanent | unknown | unrecognised
  deriving DecidableEq

inductive Err
  | invalid | notFound | conflict | lease | corrupt | cancellation | retry | duplicateKey
  deriving DecidableEq

/-- `Tenant`. -/
def tenant (s : String) : Bool := s.utf8ByteSize ≤ 64 && key s

structure Requirement where
  code : String
  adapter : String
  version : String
  maxAttempts : Nat
  deriving DecidableEq

def Requirement.validate (r : Requirement) : Option Err :=
  if key r.code = false ∨ key r.adapter = false ∨ key r.version = false ∨
      r.maxAttempts < 1 ∨ r.maxAttempts > 10 then
    some .invalid
  else none

/-- The loop of `ValidateRequirements` with the codes it has seen. -/
def validateEach : List String → List Requirement → Option Err
  | _, [] => none
  | seen, r :: rest =>
    if r.validate ≠ none ∨ r.code ∈ seen then some .invalid
    else validateEach (r.code :: seen) rest

def validateRequirements (rs : List Requirement) : Option Err :=
  if rs.length > 16 then some .invalid else validateEach [] rs

structure Step where
  requirement : Requirement
  idempotencyKey : String
  state : StepState
  effect : Effect
  attempts : Nat
  cycleAttempts : Nat
  reconciliations : Nat
  evidence : String
  failureCode : String
  deriving DecidableEq

structure Approval where
  changeId : String
  actorId : String
  previewHash : String
  targetHash : String
  targetPlanCode : String
  targetPlanVersion : Nat
  subscriptionRevision : Nat
  sourceVersion : Nat
  entitlementVersion : Nat
  catalogRevision : Nat
  deriving DecidableEq

structure Completion where
  changeId : String
  subscriptionRevision : Nat
  sourceVersion : Nat
  entitlementVersion : Nat
  appliedAt : Instant
  deriving DecidableEq

structure Task where
  id : String
  tenantId : String
  approval : Approval
  revision : Nat
  state : TaskState
  steps : List Step
  stepIndex : Nat
  stage : Stage
  nextAttemptAt : Instant
  createdAt : Instant
  updatedAt : Instant
  deadline : Instant
  leaseOwner : String
  leaseToken : Nat
  leaseUntil : Option Instant
  failureCode : String
  retryAllowed : Bool
  cancellationDisabled : Bool
  retryCycles : Nat
  activationAttempts : Nat
  completion : Option Completion
  hash : String
  deriving DecidableEq

/-- The values the package passes to `Digest`. -/
inductive Digestible
  | change (changeId : String)
  | step (taskId : String) (index : Nat) (requirement : Requirement)
  | task (task : Task)

/-- What a call on a task does: it returns, with or without an error, and leaves
a task behind, or it panics. -/
inductive Outcome
  | returned (task : Task) (error : Option Err)
  | panicked
  deriving DecidableEq

/-- Increment of a `uint64`. -/
def increment64 (n : Nat) : Nat := (n + 1) % 2 ^ 64

/-- Increment of a `uint32`. -/
def increment32 (n : Nat) : Nat := (n + 1) % 2 ^ 32

/-- The value `^uint64(0)`. -/
def maxUint64 : Nat := 2 ^ 64 - 1

section Methods

variable (digest : Digestible → String)

def taskId (changeId : String) : String := "job-" ++ short (digest (.change changeId))

def idempotencyKey (task : String) (index : Nat) (r : Requirement) : String :=
  "prep-" ++ short (digest (.step task index r))

variable (t : Task)

def Task.seal : Task :=
  { t with hash := digest (.task { t with hash := "" }) }

/-- The check that `Integrity` makes of the step at one index. -/
def Task.stepCorrupt (i : Nat) (s : Step) : Prop :=
  s.requirement.validate ≠ none ∨ s.idempotencyKey ≠ idempotencyKey digest t.id i s.requirement ∨
    s.cycleAttempts > s.attempts ∨ s.cycleAttempts > s.requirement.maxAttempts ∨
    s.evidence.utf8ByteSize > 1024 ∨ s.failureCode.utf8ByteSize > 128 ∨
    (i < t.stepIndex ∧ (s.state ≠ .ready ∨ s.effect ≠ .ready ∨ s.evidence = ""))

instance (t : Task) (i : Nat) (s : Step) : Decidable (t.stepCorrupt digest i s) :=
  inferInstanceAs (Decidable (_ ∨ _))

/-- `Integrity`. The two switches over state texts are the types of the fields. -/
def Task.integrity : Option Err :=
  if tenant t.tenantId = false ∨ t.id ≠ taskId digest t.approval.changeId ∨
      key t.approval.changeId = false ∨ t.revision = 0 ∨ t.approval.actorId = "" ∨
      t.approval.previewHash.utf8ByteSize ≠ 64 ∨ t.approval.targetHash.utf8ByteSize ≠ 64 ∨
      key t.approval.targetPlanCode = false ∨ t.approval.targetPlanVersion = 0 ∨
      t.approval.subscriptionRevision = 0 ∨ t.approval.sourceVersion = 0 ∨
      t.approval.entitlementVersion = 0 ∨ t.approval.catalogRevision = 0 ∨
      t.steps.length < 1 ∨ t.steps.length > 16 ∨ t.stepIndex > t.steps.length ∨
      isZero t.createdAt = true ∨ ¬ t.createdAt < t.deadline ∨ t.hash ≠ (t.seal digest).hash then
    some .corrupt
  else if ∃ entry ∈ t.steps.zipIdx, t.stepCorrupt digest entry.2 entry.1 then some .corrupt
  else if t.state = .running ∧ (t.leaseOwner = "" ∨ t.leaseUntil = none ∨ t.leaseToken = 0) then
    some .corrupt
  else if t.state ≠ .running ∧ (t.leaseOwner ≠ "" ∨ t.leaseUntil ≠ none) then some .corrupt
  else if t.state = .applied then
    match t.completion with
    | none => some .corrupt
    | some c =>
      if c.changeId ≠ t.approval.changeId ∨ c.entitlementVersion = 0 ∨ c.sourceVersion = 0 ∨
          c.subscriptionRevision ≠ increment64 t.approval.subscriptionRevision then
        some .corrupt
      else none
  else none

/-- The steps that `New` appends, from the index of the first. -/
def newSteps (task : String) : Nat → List Requirement → List Step
  | _, [] => []
  | i, r :: rest =>
    { requirement := r, idempotencyKey := idempotencyKey digest task i r, state := .waiting,
      effect := .absent, attempts := 0, cycleAttempts := 0, reconciliations := 0,
      evidence := "", failureCode := "" } :: newSteps task (i + 1) rest

/-- `New`: the task and the error, as the code returns both. -/
def new (tenantId : String) (a : Approval) (rs : List Requirement) (now : Instant) :
    Task × Option Err :=
  let t : Task :=
    { id := taskId digest a.changeId, tenantId := tenantId, approval := a, revision := 1,
      state := .queued, steps := [], stepIndex := 0, stage := .prepare, nextAttemptAt := now,
      createdAt := now, updatedAt := now, deadline := now + 24 * hour, leaseOwner := "",
      leaseToken := 0, leaseUntil := none, failureCode := "", retryAllowed := false,
      cancellationDisabled := false, retryCycles := 0, activationAttempts := 0,
      completion := none, hash := "" }
  if rs.length = 0 ∨ validateRequirements rs ≠ none then (t, some .invalid)
  else
    let t := ({ t with steps := newSteps digest t.id 0 rs }).seal digest
    (t, t.integrity digest)

def Task.terminal : Bool := t.state = .applied || t.state = .cancelled

def Task.due (now : Instant) : Bool :=
  if t.state = .running then
    match t.leaseUntil with
    | none => false
    | some leaseUntil => leaseUntil ≤ now
  else (t.state = .queued || t.state = .retryWait || t.state = .ready) && t.nextAttemptAt ≤ now

def Task.release : Task := { t with leaseOwner := "", leaseUntil := none }

def Task.finishRevision (now : Instant) : Task :=
  ({ t with revision := increment64 t.revision, updatedAt := now }).seal digest

/-- The block with which `Claim` gives up: a stopped state, its failure code and
whether a manual retry may follow. -/
def Task.stop (state : TaskState) (failureCode : String) (retryAllowed : Bool)
    (now : Instant) : Task :=
  ({ t with state := state, failureCode := failureCode,
            retryAllowed := retryAllowed }).release.finishRevision digest now

variable (owner : String)

/-- The end of `Claim`: the task runs under a new lease token. -/
def Task.grant (now : Instant) (lease : Duration) : Task :=
  ({ t with state := .running, leaseOwner := owner, leaseToken := increment64 t.leaseToken,
            leaseUntil := some (now + lease) }).finishRevision digest now

def Task.claim (now : Instant) (lease : Duration) : Outcome :=
  if key owner = false ∨ lease < 5 * second ∨ lease > 5 * minute ∨ t.due now = false ∨
      t.revision = maxUint64 ∨ t.leaseToken = maxUint64 then
    .returned t (some .conflict)
  else if ¬ now < t.deadline then
    .returned (t.stop digest .reconcileRequired "APPROVAL_DEADLINE_EXCEEDED" false now) none
  else if t.stepIndex = t.steps.length then
    let t := { t with stage := .activate, activationAttempts := increment32 t.activationAttempts }
    if t.activationAttempts > 3 then
      .returned (t.stop digest .failed "ACTIVATION_RETRIES_EXHAUSTED" true now) none
    else .returned (t.grant digest owner now lease) none
  else
    match t.steps[t.stepIndex]? with
    | none => .panicked
    | some s =>
      if t.state = .running ∨ s.effect = .unknown then
        if s.reconciliations ≥ 32 then
          .returned (t.stop digest .reconcileRequired "RECONCILIATION_LIMIT_REACHED" false now) none
        else
          let s := { s with reconciliations := increment32 s.reconciliations,
                            state := .running, effect := .unknown }
          let t := { t with stage := .reconcile, steps := t.steps.set t.stepIndex s }
          .returned (t.grant digest owner now lease) none
      else if s.cycleAttempts ≥ s.requirement.maxAttempts then
        .returned (t.stop digest .failed "PREPARATION_RETRIES_EXHAUSTED" true now) none
      else
        let s := { s with attempts := increment32 s.attempts,
                          cycleAttempts := increment32 s.cycleAttempts,
                          state := .running, effect := .unknown }
        let t := { t with stage := .prepare, steps := t.steps.set t.stepIndex s }
        .returned (t.grant digest owner now lease) none

def Task.owns (token : Nat) (now : Instant) : Bool :=
  t.state = .running && t.leaseOwner = owner && t.leaseToken = token &&
    match t.leaseUntil with
    | none => false
    | some leaseUntil => now < leaseUntil

structure Observation where
  outcome : Verdict
  evidence : String
  failureCode : String

def Observation.validate (o : Observation) : Option Err :=
  if o.evidence.utf8ByteSize > 1024 ∨ trimSpace o.evidence = "" ∨
      o.failureCode.utf8ByteSize > 128 then
    some .invalid
  else if o.outcome = .unrecognised then some .invalid
  else if o.outcome ≠ .ready ∧ o.outcome ≠ .absent ∧ key o.failureCode = false then some .invalid
  else none

/-- `Backoff`: two to the number of attempts, at most two to the sixth, in seconds. -/
def backoff (n : Nat) : Duration := 2 ^ min n 6 * second

/-- What an accepted observation does to the step `s` it is about. -/
def Task.record (s : Step) (o : Observation) (now : Instant) : Task :=
  let s := { s with evidence := o.evidence, failureCode := o.failureCode }
  match o.outcome with
  | .ready =>
    let t := { t with steps := t.steps.set t.stepIndex { s with state := .ready, effect := .ready },
                      stepIndex := t.stepIndex + 1, state := .queued, nextAttemptAt := now }
    if t.stepIndex = t.steps.length then { t with state := .ready, stage := .activate } else t
  | .absent | .retryable =>
    let s := { s with state := .waiting, effect := .absent }
    let t := { t with steps := t.steps.set t.stepIndex s, retryAllowed := true }
    if s.cycleAttempts ≥ s.requirement.maxAttempts then
      { t with state := .failed, failureCode := "PREPARATION_RETRIES_EXHAUSTED" }
    else { t with state := .retryWait, nextAttemptAt := now + backoff s.cycleAttempts }
  | .permanent =>
    { t with steps := t.steps.set t.stepIndex { s with state := .waiting, effect := .absent },
             state := .failed }
  | .unknown =>
    { t with steps := t.steps.set t.stepIndex { s with state := .waiting, effect := .unknown },
             state := .reconcileRequired, retryAllowed := true }
  | .unrecognised => { t with steps := t.steps.set t.stepIndex s }

def Task.observe (token : Nat) (o : Observation) (now : Instant) : Outcome :=
  if t.owns owner token now = false then .returned t (some .lease)
  else if o.validate ≠ none then .returned t (some .invalid)
  else
    let t := { t with failureCode := o.failureCode, retryAllowed := false }
    if t.stage = .activate then
      let t :=
        if o.outcome = .retryable then
          { t with state := .retryWait, nextAttemptAt := now + backoff t.activationAttempts,
                   retryAllowed := true }
        else { t with state := .reconcileRequired }
      .returned (t.release.finishRevision digest now) none
    else
      match t.steps[t.stepIndex]? with
      | none => .panicked
      | some s => .returned ((t.record s o now).release.finishRevision digest now) none

def Task.cancellable : Bool :=
  if t.cancellationDisabled || t.state = .running || t.terminal then false
  else t.steps.all fun s => s.effect = .absent && s.state ≠ .ready

def Task.cancel (now : Instant) : Outcome :=
  if t.cancellable = false then .returned t (some .cancellation)
  else
    .returned (({ t with state := .cancelled,
                         retryAllowed := false }).release.finishRevision digest now) none

def Task.retry (now : Instant) : Outcome :=
  if (t.state ≠ .failed ∧ t.state ≠ .reconcileRequired) ∨ t.retryAllowed = false ∨
      ¬ now < t.deadline ∨ t.retryCycles ≥ 10 then
    .returned t (some .retry)
  else
    let t := { t with retryCycles := increment32 t.retryCycles, activationAttempts := 0 }
    let t :=
      { t with steps := t.steps.modify t.stepIndex fun s =>
                 { s with cycleAttempts := 0, state := .waiting } }
    .returned (({ t with state := .queued, nextAttemptAt := now,
                         retryAllowed := false }).release.finishRevision digest now) none

def Task.complete (token : Nat) (c : Completion) (now : Instant) : Outcome :=
  if t.owns owner token now = false ∨ t.stage ≠ .activate ∨ t.stepIndex ≠ t.steps.length then
    .returned t (some .lease)
  else if c.changeId ≠ t.approval.changeId ∨
      c.subscriptionRevision ≠ increment64 t.approval.subscriptionRevision ∨
      c.sourceVersion ≤ t.approval.sourceVersion ∨
      c.entitlementVersion ≤ t.approval.entitlementVersion ∨ isZero c.appliedAt = true then
    .returned t (some .corrupt)
  else
    let t := ({ t with state := .applied, completion := some c, retryAllowed := false,
                       failureCode := "" }).release.finishRevision digest now
    .returned t (t.integrity digest)

end Methods

/-- A call that a worker or an operator makes on a task. -/
inductive Call
  | claim (owner : String) (now : Instant) (lease : Duration)
  | observe (owner : String) (token : Nat) (observation : Observation) (now : Instant)
  | retry (now : Instant)
  | cancel (now : Instant)
  | complete (owner : String) (token : Nat) (completion : Completion) (now : Instant)

def Call.apply (digest : Digestible → String) (t : Task) : Call → Outcome
  | .claim owner now lease => t.claim digest owner now lease
  | .observe owner token observation now => t.observe digest owner token observation now
  | .retry now => t.retry digest now
  | .cancel now => t.cancel digest now
  | .complete owner token completion now => t.complete digest owner token completion now

end Biz.Provisioning
