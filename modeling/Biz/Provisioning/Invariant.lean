import Biz.Library.Runs
import Biz.Provisioning.Task

/-!
# The representation invariant of a provisioning task

`Integrity` does not check everything that the methods rely on. The invariant
here adds what is missing: the stage of a running task against its step index,
that no step from the index on has an effect that is ready, and bounds on every
counter. The bounds show that no counter wraps around: the lease token is paid
for by attempts, reconciliations and activations, each bounded for each retry
cycle, and the revision by tokens and cycles.

Each method has one relation that lists what it can do, guards included, and one
theorem that the method is in it. Everything about the methods is derived from
these relations.
-/

namespace Biz.Provisioning

open Time Text

variable (digest : Digestible → String) {t : Task} {now : Instant}

section Calls

variable (t : Task) (owner : String) (token : Nat) (o : Observation) (now : Instant)
  (lease : Duration)

/-- Everything that `Claim` can do. -/
inductive Claimed : Outcome → Prop
  | refused : Claimed (.returned t (some .conflict))
  | late (due : t.due now = true) : Claimed
      (.returned (t.stop digest .reconcileRequired "APPROVAL_DEADLINE_EXCEEDED" false now) none)
  | activationExhausted (due : t.due now = true) (last : t.stepIndex = t.steps.length)
      (spent : increment32 t.activationAttempts > 3) : Claimed
      (.returned (({ t with
          stage := .activate,
          activationAttempts := increment32 t.activationAttempts }).stop digest
        .failed "ACTIVATION_RETRIES_EXHAUSTED" true now) none)
  | activating (named : key owner = true) (due : t.due now = true)
      (last : t.stepIndex = t.steps.length)
      (allowed : increment32 t.activationAttempts ≤ 3) : Claimed
      (.returned (({ t with
          stage := .activate,
          activationAttempts := increment32 t.activationAttempts }).grant digest
        owner now lease) none)
  | missing (absent : t.steps[t.stepIndex]? = none) (open_ : t.stepIndex ≠ t.steps.length) :
      Claimed .panicked
  | reconciliationExhausted (due : t.due now = true) : Claimed
      (.returned (t.stop digest .reconcileRequired "RECONCILIATION_LIMIT_REACHED" false now) none)
  | reconciling (s : Step) (named : key owner = true) (due : t.due now = true)
      (current : t.steps[t.stepIndex]? = some s) (allowed : s.reconciliations < 32) : Claimed
      (.returned (({ t with
          stage := .reconcile,
          steps := t.steps.set t.stepIndex
            { s with reconciliations := increment32 s.reconciliations, state := .running,
                     effect := .unknown } }).grant digest owner now lease) none)
  | preparationExhausted (due : t.due now = true) : Claimed
      (.returned (t.stop digest .failed "PREPARATION_RETRIES_EXHAUSTED" true now) none)
  | preparing (s : Step) (named : key owner = true) (due : t.due now = true)
      (current : t.steps[t.stepIndex]? = some s) (idle : t.state ≠ .running)
      (known : s.effect ≠ .unknown) (allowed : s.cycleAttempts < s.requirement.maxAttempts) :
      Claimed
      (.returned (({ t with
          stage := .prepare,
          steps := t.steps.set t.stepIndex
            { s with attempts := increment32 s.attempts,
                     cycleAttempts := increment32 s.cycleAttempts, state := .running,
                     effect := .unknown } }).grant digest owner now lease) none)

theorem claim_claimed : Claimed digest t owner now lease (t.claim digest owner now lease) := by
  unfold Task.claim
  split
  · exact .refused
  rename_i admitted
  simp only [not_or, Bool.not_eq_false] at admitted
  obtain ⟨named, -, -, due, -, -⟩ := admitted
  split
  · exact .late due
  split
  · rename_i last
    dsimp only
    split
    · rename_i spent
      exact .activationExhausted due last spent
    · exact .activating named due last (by omega)
  rename_i open_
  cases current : t.steps[t.stepIndex]? with
  | none => exact .missing current open_
  | some s =>
    dsimp only
    split
    · split
      · exact .reconciliationExhausted due
      · exact .reconciling s named due current (by omega)
    · rename_i prepared
      rw [not_or] at prepared
      split
      · exact .preparationExhausted due
      · exact .preparing s named due current prepared.1 prepared.2 (by omega)

/-- Everything that `Observe` can do. -/
inductive Observed : Outcome → Prop
  | unowned : Observed (.returned t (some .lease))
  | malformed : Observed (.returned t (some .invalid))
  | activation (running : t.state = .running) (stage : t.stage = .activate)
      (next : TaskState) (at_ : Instant) (again : Bool)
      (stopped : next = .retryWait ∨ next = .reconcileRequired) : Observed
      (.returned (({ t with
          failureCode := o.failureCode, state := next, nextAttemptAt := at_,
          retryAllowed := again }).release.finishRevision digest now) none)
  | missing (running : t.state = .running) (stage : t.stage ≠ .activate)
      (absent : t.steps[t.stepIndex]? = none) : Observed .panicked
  | recorded (s : Step) (running : t.state = .running) (valid : o.validate = none)
      (stage : t.stage ≠ .activate) (current : t.steps[t.stepIndex]? = some s) : Observed
      (.returned ((({ t with
          failureCode := o.failureCode, retryAllowed := false }).record s o
        now).release.finishRevision digest now) none)

variable {t owner token now} in
theorem running_of_owns (owned : t.owns owner token now = true) : t.state = .running := by
  simp only [Task.owns, Bool.and_eq_true, decide_eq_true_eq] at owned
  exact owned.1.1.1

theorem observe_observed :
    Observed digest t o now (t.observe digest owner token o now) := by
  unfold Task.observe
  split
  · exact .unowned
  rename_i owned
  have running : t.state = .running := running_of_owns (by simpa using owned)
  split
  · exact .malformed
  rename_i valid
  dsimp only
  split
  · rename_i stage
    split
    · exact .activation running stage .retryWait _ true (.inl rfl)
    · exact .activation running stage .reconcileRequired _ false (.inr rfl)
  rename_i stage
  cases current : t.steps[t.stepIndex]? with
  | none => exact .missing running stage current
  | some s => exact .recorded s running (by simpa using valid) stage current

end Calls

/-- The data of a task that no method changes, as `Integrity` checks them. -/
structure Identified (id tenantId : String) (approval : Approval)
    (createdAt deadline : Instant) : Prop where
  tenant : Provisioning.tenant tenantId = true
  named : id = taskId digest approval.changeId
  change : key approval.changeId = true
  actor : approval.actorId ≠ ""
  preview : approval.previewHash.utf8ByteSize = 64
  target : approval.targetHash.utf8ByteSize = 64
  plan : key approval.targetPlanCode = true
  planVersion : approval.targetPlanVersion ≠ 0
  subscription : approval.subscriptionRevision ≠ 0
  source : approval.sourceVersion ≠ 0
  entitlement : approval.entitlementVersion ≠ 0
  catalog : approval.catalogRevision ≠ 0
  created : isZero createdAt = false
  term : createdAt < deadline

/-- What holds of the step at index `i` while the task stands at step `index`
and has been retried `cycles` times. -/
structure StepInvariant (task : String) (index cycles i : Nat) (s : Step) : Prop where
  requirement : s.requirement.validate = none
  key : s.idempotencyKey = idempotencyKey digest task i s.requirement
  cycle : s.cycleAttempts ≤ s.attempts
  allowed : s.cycleAttempts ≤ s.requirement.maxAttempts
  evidence : s.evidence.utf8ByteSize ≤ 1024
  failure : s.failureCode.utf8ByteSize ≤ 128
  done : i < index → s.state = .ready ∧ s.effect = .ready ∧ s.evidence ≠ ""
  pending : index ≤ i → s.effect ≠ .ready
  attempts : s.attempts ≤ s.cycleAttempts + 10 * cycles
  reconciliations : s.reconciliations ≤ 32

/-- The leases that the steps account for. -/
def work (steps : List Step) : Nat := (steps.map fun s => s.attempts + s.reconciliations).sum

/-- A state that `Claim` may find due. -/
def claimable : TaskState → Bool
  | .queued | .running | .retryWait | .ready => true
  | .applied | .failed | .reconcileRequired | .cancelled => false

/-- How far the revision may be ahead of twice the tokens and retry cycles. -/
def allowance : TaskState → Nat
  | .running => 0
  | .queued | .retryWait | .ready => 1
  | .failed | .reconcileRequired => 2
  | .applied | .cancelled => 3

/-- The invariant of the fields other than the hash and the revision. -/
structure Body (t : Task) : Prop where
  identified : Identified digest t.id t.tenantId t.approval t.createdAt t.deadline
  width : 1 ≤ t.steps.length ∧ t.steps.length ≤ 16
  index : t.stepIndex ≤ t.steps.length
  steps : ∀ i s, t.steps[i]? = some s →
    StepInvariant digest t.id t.stepIndex t.retryCycles i s
  leased : t.state = .running → t.leaseOwner ≠ "" ∧ t.leaseUntil ≠ none ∧ t.leaseToken ≠ 0
  staged : t.state = .running → (t.stage = .activate ↔ t.stepIndex = t.steps.length)
  unleased : t.state ≠ .running → t.leaseOwner = "" ∧ t.leaseUntil = none
  applied : t.state = .applied → ∃ c, t.completion = some c ∧
    c.changeId = t.approval.changeId ∧ c.entitlementVersion ≠ 0 ∧ c.sourceVersion ≠ 0 ∧
    c.subscriptionRevision = increment64 t.approval.subscriptionRevision
  cycles : t.retryCycles ≤ 10
  activations : t.activationAttempts ≤ 4 ∧ (claimable t.state = true → t.activationAttempts ≤ 3)
  tokens : t.leaseToken ≤ work t.steps + t.activationAttempts + 4 * t.retryCycles

/-- The invariant of a task between two calls. -/
structure Invariant (t : Task) : Prop where
  body : Body digest t
  hash : t.hash = (t.seal digest).hash
  revision : 1 ≤ t.revision
  revisions : t.revision ≤ allowance t.state + 2 * t.leaseToken + 2 * t.retryCycles

variable {digest}

/-- Bounded counters of at most sixteen steps bound the work. -/
theorem work_le (steps : List Step) (bound : Nat)
    (each : ∀ s ∈ steps, s.attempts + s.reconciliations ≤ bound) :
    work steps ≤ steps.length * bound := by
  have bounded := List.sum_le_card_nsmul (steps.map fun s => s.attempts + s.reconciliations) bound
    (by simpa using each)
  rwa [List.length_map] at bounded

/-- Replacing one step changes the work by what that step gains. -/
theorem work_set (steps : List Step) (i : Nat) (s s' : Step) (current : steps[i]? = some s) :
    work (steps.set i s') + (s.attempts + s.reconciliations) =
      work steps + (s'.attempts + s'.reconciliations) := by
  induction steps generalizing i with
  | nil => simp at current
  | cons first rest ih =>
    cases i with
    | zero =>
      simp only [List.getElem?_cons_zero, Option.some.injEq] at current
      subst current
      simp only [work, List.set_cons_zero, List.map_cons, List.sum_cons]
      omega
    | succ i =>
      have moved := ih i (by simpa using current)
      simp only [work, List.set_cons_succ, List.map_cons, List.sum_cons] at moved ⊢
      omega

/-- Changing a step without its counted work keeps the work. -/
theorem work_modify (steps : List Step) (i : Nat) (change : Step → Step)
    (same : ∀ s, (change s).attempts + (change s).reconciliations =
      s.attempts + s.reconciliations) : work (steps.modify i change) = work steps := by
  induction steps generalizing i with
  | nil => simp
  | cons first rest ih =>
    cases i with
    | zero => simp only [work, List.modify_zero_cons, List.map_cons, List.sum_cons, same]
    | succ i =>
      have others := ih i
      simp only [work, List.modify_succ_cons, List.map_cons, List.sum_cons] at others ⊢
      rw [others]

variable {steps : List Step}

/-- A property of every indexed step survives the replacement of one. -/
theorem forall_set {holds : Nat → Step → Prop}
    (each : ∀ i s, steps[i]? = some s → holds i s) {k : Nat} {s' : Step} (new : holds k s') :
    ∀ i s, (steps.set k s')[i]? = some s → holds i s := by
  intro i s found
  rw [List.getElem?_set] at found
  split at found
  · rename_i same
    subst same
    split at found
    · cases found
      exact new
    · cases found
  · exact each i s found

theorem claimable_of_due (due : t.due now = true) : claimable t.state = true := by
  unfold Task.due at due
  cases state : t.state <;> simp_all [claimable]

theorem allowance_of_due (due : t.due now = true) : allowance t.state ≤ 1 := by
  have due := claimable_of_due due
  cases state : t.state <;> simp_all [claimable, allowance]

theorem maxAttempts_le {r : Requirement} (valid : r.validate = none) : r.maxAttempts ≤ 10 := by
  unfold Requirement.validate at valid
  split at valid
  · cases valid
  · omega

/-- The bounds keep the token and the revision far below the width of their type. -/
theorem Invariant.counters (invariant : Invariant digest t) :
    t.leaseToken ≤ 2400 ∧ t.revision ≤ 5000 := by
  have body := invariant.body
  have each : ∀ s ∈ t.steps, s.attempts + s.reconciliations ≤ 142 := by
    intro s member
    obtain ⟨i, found⟩ := List.mem_iff_getElem?.mp member
    have step := body.steps i s found
    have allowed := step.allowed
    have attempts := step.attempts
    have reconciliations := step.reconciliations
    have cycles := body.cycles
    have few := maxAttempts_le step.requirement
    omega
  have total : work t.steps ≤ t.steps.length * 142 := work_le t.steps 142 each
  have width := body.width
  have cycles := body.cycles
  have activations := body.activations.1
  have tokens := body.tokens
  have revisions := invariant.revisions
  have ahead : allowance t.state ≤ 3 := by cases t.state <;> decide
  omega

theorem increment64_of_lt {n : Nat} (small : n < maxUint64) : increment64 n = n + 1 := by
  unfold maxUint64 at small
  exact Nat.mod_eq_of_lt (by omega)

theorem increment32_of_le {n : Nat} (small : n ≤ 1000) : increment32 n = n + 1 :=
  Nat.mod_eq_of_lt (by omega)

theorem Invariant.increment64_revision (invariant : Invariant digest t) :
    increment64 t.revision = t.revision + 1 :=
  increment64_of_lt (by have := invariant.counters.2; unfold maxUint64; omega)

theorem Invariant.increment64_leaseToken (invariant : Invariant digest t) :
    increment64 t.leaseToken = t.leaseToken + 1 :=
  increment64_of_lt (by have := invariant.counters.1; unfold maxUint64; omega)

/-- The invariant is enough for `Integrity`. -/
theorem Invariant.integrity (invariant : Invariant digest t) : t.integrity digest = none := by
  have body := invariant.body
  have identified := body.identified
  have revision := invariant.revision
  have sound : ¬ ∃ entry ∈ t.steps.zipIdx, t.stepCorrupt digest entry.2 entry.1 := by
    rintro ⟨⟨s, i⟩, member, corrupt⟩
    have step := body.steps i s (List.mem_zipIdx_iff_getElem?.mp member)
    refine absurd corrupt ?_
    simp only [Task.stepCorrupt, not_or, not_and, ne_eq, Decidable.not_not, Nat.not_lt]
    exact ⟨step.requirement, step.key, step.cycle, step.allowed, step.evidence, step.failure,
      step.done⟩
  unfold Task.integrity
  rw [if_neg, if_neg sound, if_neg, if_neg]
  · split
    · rename_i done
      obtain ⟨c, completion, change, entitlement, source, subscription⟩ := body.applied done
      simp only [completion]
      rw [if_neg]
      simp only [change, entitlement, source, subscription, ne_eq, not_true_eq_false, or_self,
        not_false_eq_true]
    · rfl
  · rintro ⟨idle, held⟩
    obtain ⟨owner, until_⟩ := body.unleased idle
    simp [owner, until_] at held
  · rintro ⟨running, lost⟩
    obtain ⟨owner, until_, token⟩ := body.leased running
    simp [owner, until_, token] at lost
  · simp only [not_or, Bool.not_eq_false, ne_eq, Decidable.not_not, Nat.not_lt, Bool.not_eq_true]
    exact ⟨identified.tenant, identified.named, identified.change, by omega, identified.actor,
      identified.preview, identified.target, identified.plan, identified.planVersion,
      identified.subscription, identified.source, identified.entitlement, identified.catalog,
      body.width.1, body.width.2, body.index, identified.created, identified.term, invariant.hash⟩

/-- What a call may do to a task: return an error and leave it as it was, or leave
a task with the invariant and the next revision. -/
inductive Settles (digest : Digestible → String) (t : Task) : Outcome → Prop
  | rejected (error : Err) : Settles digest t (.returned t (some error))
  | accepted (after : Task) (invariant : Invariant digest after)
      (revision : after.revision = t.revision + 1) : Settles digest t (.returned after none)

theorem Settles.of_accepted {after : Task} (settled : Settles digest t (.returned after none)) :
    Invariant digest after := by
  cases settled with
  | accepted _ invariant => exact invariant

section

variable (invariant : Invariant digest t) {stage : Stage}

include invariant

/-- A method that ends with `finishRevision` settles, once its other changes keep
the body and the revision stays within the bound. -/
theorem Invariant.finish {u : Task} (body : Body digest u) (same : u.revision = t.revision)
    (room : t.revision + 1 ≤ allowance u.state + 2 * u.leaseToken + 2 * u.retryCycles) :
    Settles digest t (.returned (u.finishRevision digest now) none) := by
  have next : (u.finishRevision digest now).revision = t.revision + 1 := by
    simp only [Task.finishRevision, Task.seal, same, invariant.increment64_revision]
  refine .accepted _ ⟨⟨body.identified, body.width, body.index, body.steps, body.leased,
    body.staged, body.unleased, body.applied, body.cycles, body.activations, body.tokens⟩,
    rfl, by omega, ?_⟩ next
  rw [next]
  exact room

/-- Stopping a claimable task keeps the invariant. -/
theorem Invariant.stop (due : t.due now = true) {state : TaskState}
    (stopped : state = .failed ∨ state = .reconcileRequired) {failureCode : String}
    {retryAllowed : Bool} {activations : Nat} (grown : t.activationAttempts ≤ activations)
    (few : activations ≤ 4) :
    Settles digest t
      (.returned (({ t with stage := stage, activationAttempts := activations }).stop digest
        state failureCode retryAllowed now) none) := by
  have body := invariant.body
  have tokens := body.tokens
  have revisions := invariant.revisions
  have before := allowance_of_due due
  refine invariant.finish ?body rfl ?room
  case body =>
    refine { body with leased := ?_, staged := ?_, unleased := fun _ => ⟨rfl, rfl⟩,
                       applied := ?_, activations := ⟨few, ?_⟩, tokens := ?_ }
    iterate 4 rcases stopped with rfl | rfl <;> simp [Task.release, claimable]
    simp only [Task.release]
    omega
  case room =>
    rcases stopped with rfl | rfl <;> simp only [Task.release, allowance] <;> omega

/-- Granting a lease keeps the invariant when a counter pays for the token. -/
theorem Invariant.grant {owner : String} (named : key owner = true) (due : t.due now = true)
    {lease : Duration} (length : steps.length = t.steps.length)
    (each : ∀ i s, steps[i]? = some s → StepInvariant digest t.id t.stepIndex t.retryCycles i s)
    (staged : stage = .activate ↔ t.stepIndex = t.steps.length) {activations : Nat}
    (few : activations ≤ 3)
    (paid : work steps + activations = work t.steps + t.activationAttempts + 1) :
    Settles digest t
      (.returned (({ t with stage := stage, activationAttempts := activations,
                            steps := steps }).grant digest owner now lease) none) := by
  have body := invariant.body
  have tokens := body.tokens
  have revisions := invariant.revisions
  have token := invariant.increment64_leaseToken
  have before := allowance_of_due due
  refine invariant.finish ?body rfl ?room
  case body =>
    refine ⟨body.identified, ?_, ?_, each, ?_, ?_, ?_, ?_, body.cycles,
      ⟨Nat.le_succ_of_le few, fun _ => few⟩, ?_⟩
    · simpa only [length] using body.width
    · simpa only [length] using body.index
    · intro _
      exact ⟨key_ne_empty named, by simp, by simp only [token]; omega⟩
    · intro _
      simpa only [length] using staged
    · intro idle
      exact absurd rfl idle
    · intro impossible
      cases impossible
    · simp only [token]
      omega
  case room =>
    simp only [allowance, token]
    omega

/-- Every claim settles. -/
theorem claim_settles (owner : String) (now : Instant) (lease : Duration) :
    Settles digest t (t.claim digest owner now lease) := by
  have body := invariant.body
  generalize result : t.claim digest owner now lease = outcome
  have claimed : Claimed digest t owner now lease outcome :=
    result ▸ claim_claimed digest t owner now lease
  cases claimed with
  | refused => exact .rejected .conflict
  | late due | reconciliationExhausted due =>
    exact invariant.stop due (.inr rfl) (Nat.le_refl _) body.activations.1
  | activationExhausted due last spent =>
    have few := body.activations.2 (claimable_of_due due)
    have next := increment32_of_le (Nat.le_trans few (by decide))
    exact invariant.stop due (.inl rfl) (by omega) (by omega)
  | activating named due last allowed =>
    have few := body.activations.2 (claimable_of_due due)
    have next := increment32_of_le (Nat.le_trans few (by decide))
    exact invariant.grant named due rfl body.steps ⟨fun _ => last, fun _ => rfl⟩ allowed (by omega)
  | missing absent open_ =>
    have index := body.index
    rw [List.getElem?_eq_none_iff] at absent
    omega
  | reconciling s named due current allowed =>
    have inside := (List.getElem?_eq_some_iff.mp current).1
    have step := body.steps _ s current
    have next := increment32_of_le (Nat.le_trans (Nat.le_of_lt allowed) (by decide))
    refine invariant.grant named due (by simp) (forall_set body.steps ?_) (by simp; omega)
      (body.activations.2 (claimable_of_due due)) ?_
    · exact { step with done := fun early => absurd early (Nat.lt_irrefl _),
                        pending := fun _ => by simp, reconciliations := by simp only [next]; omega }
    · have gained := work_set t.steps t.stepIndex s
        { s with reconciliations := increment32 s.reconciliations, state := .running,
                 effect := .unknown } current
      simp only [next] at gained ⊢
      omega
  | preparationExhausted due =>
    exact invariant.stop due (.inl rfl) (Nat.le_refl _) body.activations.1
  | preparing s named due current idle known allowed =>
    have inside := (List.getElem?_eq_some_iff.mp current).1
    have step := body.steps _ s current
    have few := maxAttempts_le step.requirement
    have cycle := increment32_of_le (n := s.cycleAttempts) (by omega)
    have total := increment32_of_le (n := s.attempts) (by
      have := step.attempts
      have := body.cycles
      omega)
    refine invariant.grant named due (by simp) (forall_set body.steps ?_) (by simp; omega)
      (body.activations.2 (claimable_of_due due)) ?_
    · have below := step.cycle
      have bounded := step.attempts
      exact { step with cycle := by simp only [cycle, total]; omega,
                        allowed := by simp only [cycle]; omega,
                        done := fun early => absurd early (Nat.lt_irrefl _),
                        pending := fun _ => by simp,
                        attempts := by simp only [cycle, total]; omega }
    · have gained := work_set t.steps t.stepIndex s
        { s with attempts := increment32 s.attempts, cycleAttempts := increment32 s.cycleAttempts,
                 state := .running, effect := .unknown } current
      simp only [total] at gained ⊢
      omega

/-- A running task that gives its lease back keeps the invariant, when its steps
and index still fit and no work was added. -/
theorem Invariant.leave (running : t.state = .running) {state : TaskState}
    (left : state ≠ .running ∧ state ≠ .applied)
    (length : steps.length = t.steps.length) {index : Nat} (within : index ≤ t.steps.length)
    (each : ∀ i s, steps[i]? = some s → StepInvariant digest t.id index t.retryCycles i s)
    (spent : work steps = work t.steps) {nextAttemptAt : Instant} {failureCode : String}
    {retryAllowed : Bool} :
    Settles digest t
      (.returned (({ t with state := state, steps := steps, stepIndex := index, stage := stage,
                            nextAttemptAt := nextAttemptAt, failureCode := failureCode,
                            retryAllowed := retryAllowed }).release.finishRevision digest now)
        none) := by
  have body := invariant.body
  have revisions := invariant.revisions
  have few := body.activations.2 (by rw [running]; rfl)
  refine invariant.finish ?body rfl ?room
  case body =>
    refine ⟨body.identified, ?_, ?_, each, fun held => absurd held left.1,
      fun held => absurd held left.1, fun _ => ⟨rfl, rfl⟩, fun done => absurd done left.2,
      body.cycles, ⟨body.activations.1, fun _ => few⟩, ?_⟩
    · simpa only [Task.release, length] using body.width
    · simpa only [Task.release, length] using within
    · simpa only [Task.release, spent] using body.tokens
  case room =>
    have ahead : 1 ≤ allowance state := by cases state <;> simp_all [allowance]
    rw [running] at revisions
    simp only [allowance] at revisions
    simp only [Task.release]
    omega

end

/-- An accepted observation carries evidence within the bounds and a known outcome. -/
theorem Observation.of_valid {o : Observation} (valid : o.validate = none) :
    o.evidence.utf8ByteSize ≤ 1024 ∧ trimSpace o.evidence ≠ "" ∧ o.failureCode.utf8ByteSize ≤ 128 ∧
      o.outcome ≠ .unrecognised := by
  unfold Observation.validate at valid
  split at valid
  · cases valid
  rename_i bounded
  split at valid
  · cases valid
  rename_i known
  simp only [not_or, Nat.not_lt] at bounded
  exact ⟨bounded.1, bounded.2.1, bounded.2.2, known⟩

section

variable (invariant : Invariant digest t)

include invariant

/-- An accepted observation of the current step settles. Proof: the replaced step
keeps its counters, so no work is added; a step that becomes ready is passed by
the index, and in every other outcome its effect is not ready. -/
theorem record_settles (running : t.state = .running) {s : Step}
    (current : t.steps[t.stepIndex]? = some s) {o : Observation} (valid : o.validate = none) :
    Settles digest t
      (.returned ((({ t with failureCode := o.failureCode, retryAllowed := false }).record s o
        now).release.finishRevision digest now) none) := by
  have body := invariant.body
  have inside := (List.getElem?_eq_some_iff.mp current).1
  have step := body.steps _ s current
  obtain ⟨evidence, shown, failure, known⟩ := Observation.of_valid valid
  let seen := fun state effect =>
    { s with evidence := o.evidence, failureCode := o.failureCode, state := state, effect :=
      effect }
  have spent : ∀ state effect,
      work (t.steps.set t.stepIndex (seen state effect)) = work t.steps := by
    intro state effect
    have moved := work_set t.steps t.stepIndex s (seen state effect) current
    dsimp only [seen] at moved ⊢
    omega
  have kept : ∀ state effect, effect ≠ .ready → ∀ i entry,
      (t.steps.set t.stepIndex (seen state effect))[i]? = some entry →
      StepInvariant digest t.id t.stepIndex t.retryCycles i entry := by
    intro state effect other
    exact forall_set body.steps
      { step with evidence := evidence, failure := failure,
                  done := fun early => absurd early (Nat.lt_irrefl _), pending := fun _ => other }
  cases outcome : o.outcome with
  | ready =>
    have advanced : ∀ i entry, (t.steps.set t.stepIndex (seen .ready .ready))[i]? = some entry →
        StepInvariant digest t.id (t.stepIndex + 1) t.retryCycles i entry := by
      intro i entry found
      rw [List.getElem?_set] at found
      split at found
      · rename_i same
        subst same
        cases found
        exact { step with evidence := evidence, failure := failure,
                          done := fun _ => ⟨rfl, rfl, ne_empty_of_trimSpace shown⟩,
                          pending := by intro later; omega }
      · have old := body.steps i entry found
        exact { old with done := fun early => old.done (by omega),
                         pending := fun later => old.pending (by omega) }
    simp only [Task.record, outcome]
    split
    · exact invariant.leave running (by simp) (by simp) inside advanced (spent _ _)
    · exact invariant.leave running (by simp) (by simp) inside advanced (spent _ _)
  | absent | retryable =>
    simp only [Task.record, outcome]
    split
    · exact invariant.leave running (by simp) (by simp) body.index (kept _ _ (by simp)) (spent _ _)
    · exact invariant.leave running (by simp) (by simp) body.index (kept _ _ (by simp)) (spent _ _)
  | permanent | unknown =>
    simp only [Task.record, outcome]
    exact invariant.leave running (by simp) (by simp) body.index (kept _ _ (by simp)) (spent _ _)
  | unrecognised => exact absurd outcome known

/-- Every observation settles. -/
theorem observe_settles (owner : String) (token : Nat) (o : Observation) (now : Instant) :
    Settles digest t (t.observe digest owner token o now) := by
  have body := invariant.body
  generalize result : t.observe digest owner token o now = outcome
  have observed : Observed digest t o now outcome :=
    result ▸ observe_observed digest t owner token o now
  cases observed with
  | unowned => exact .rejected .lease
  | malformed => exact .rejected .invalid
  | activation running stage next at_ again stopped =>
    refine invariant.leave running ?_ rfl body.index body.steps rfl
    rcases stopped with rfl | rfl <;> simp
  | missing running stage absent =>
    have open_ : t.stepIndex ≠ t.steps.length := fun last => stage ((body.staged running).mpr last)
    have index := body.index
    rw [List.getElem?_eq_none_iff] at absent
    omega
  | recorded s running valid stage current => exact record_settles invariant running current valid

/-- Every cancellation settles. -/
theorem cancel_settles (now : Instant) : Settles digest t (t.cancel digest now) := by
  have body := invariant.body
  have revisions := invariant.revisions
  unfold Task.cancel
  split
  · exact .rejected .cancellation
  rename_i cancellable
  have live : t.state ≠ .running ∧ t.state ≠ .applied ∧ t.state ≠ .cancelled := by
    rw [Bool.not_eq_false] at cancellable
    unfold Task.cancellable Task.terminal at cancellable
    split at cancellable
    · cases cancellable
    · rename_i free
      simp only [Bool.or_eq_true, decide_eq_true_eq, not_or] at free
      exact ⟨free.1.2, free.2⟩
  have ahead : allowance t.state ≤ 2 := by
    cases state : t.state <;> simp_all [allowance]
  refine invariant.finish ?body rfl ?room
  case body =>
    exact { body with leased := by simp [Task.release], staged := by simp [Task.release],
                      unleased := fun _ => ⟨rfl, rfl⟩, applied := by simp [Task.release],
                      activations := ⟨body.activations.1, by simp [Task.release, claimable]⟩ }
  case room =>
    simp only [Task.release]
    simp only [allowance]
    omega

/-- Every manual retry settles. Proof: the step under way has its cycle attempts
reset, which the new cycle pays for; the activations given up are paid for by the
four tokens that a cycle allows. -/
theorem retry_settles (now : Instant) : Settles digest t (t.retry digest now) := by
  have body := invariant.body
  have revisions := invariant.revisions
  have tokens := body.tokens
  have activations := body.activations.1
  unfold Task.retry
  split
  · exact .rejected .retry
  rename_i admitted
  have ahead : allowance t.state ≤ 2 := by
    cases state : t.state <;> simp_all [allowance]
  have next := increment32_of_le (n := t.retryCycles) (by omega)
  have spent := work_modify t.steps t.stepIndex
    (fun s => { s with cycleAttempts := 0, state := .waiting }) fun _ => rfl
  refine invariant.finish ?body rfl ?room
  case body =>
    refine ⟨body.identified, ?_, ?_, ?_, by simp [Task.release], by simp [Task.release],
      fun _ => ⟨rfl, rfl⟩, by simp [Task.release], ?_,
        ⟨by simp [Task.release], by simp [Task.release]⟩,
      ?_⟩
    · simpa [Task.release] using body.width
    · simpa [Task.release] using body.index
    · intro i s found
      simp only [Task.release, List.getElem?_modify, Option.map_eq_map] at found ⊢
      rw [Option.map_eq_some_iff] at found
      obtain ⟨old, current, rfl⟩ := found
      have step := body.steps i old current
      split
      · have allowed := step.allowed
        have few := maxAttempts_le step.requirement
        have attempts := step.attempts
        refine { step with cycle := Nat.zero_le _, allowed := Nat.zero_le _,
                           done := ?_, attempts := ?_ }
        · intro early
          omega
        · simp only [next]
          omega
      · have attempts := step.attempts
        refine { step with attempts := ?_ }
        omega
    · simp only [Task.release, next]
      omega
    · simp only [Task.release, spent, next]
      omega
  case room =>
    simp only [Task.release, next]
    simp only [allowance]
    omega

/-- Every completion settles; in particular the check that `Complete` ends with
succeeds, so it never reports an error for a task it has changed. -/
theorem complete_settles (owner : String) (token : Nat) (c : Completion) (now : Instant) :
    Settles digest t (t.complete digest owner token c now) := by
  have body := invariant.body
  have revisions := invariant.revisions
  unfold Task.complete
  split
  · exact .rejected .lease
  rename_i owned
  split
  · exact .rejected .corrupt
  rename_i matching
  simp only [not_or, Bool.not_eq_false] at owned
  simp only [not_or, ne_eq, Decidable.not_not, Nat.not_le] at matching
  have running := running_of_owns owned.1
  have few := body.activations.2 (by rw [running]; rfl)
  have settled : Settles digest t
      (.returned (({ t with state := .applied, completion := some c, retryAllowed := false,
                            failureCode := "" }).release.finishRevision digest now) none) := by
    refine invariant.finish ?body rfl ?room
    case body =>
      refine { body with leased := by simp [Task.release], staged := by simp [Task.release],
                         unleased := fun _ => ⟨rfl, rfl⟩, applied := fun _ => ⟨c, rfl, ?_⟩,
                         activations := ⟨body.activations.1, fun _ => few⟩ }
      exact ⟨matching.1, by omega, by omega, matching.2.1⟩
    case room =>
      rw [running] at revisions
      simp only [Task.release]
      simp only [allowance] at revisions ⊢
      omega
  have kept := settled.of_accepted
  dsimp only
  rw [kept.integrity]
  exact settled

/-- Every call on a task with the invariant settles. -/
theorem call_settles (call : Call) : Settles digest t (call.apply digest t) := by
  cases call with
  | claim owner now lease => exact claim_settles invariant owner now lease
  | observe owner token observation now =>
    exact observe_settles invariant owner token observation now
  | retry now => exact retry_settles invariant now
  | cancel now => exact cancel_settles invariant now
  | complete owner token completion now =>
    exact complete_settles invariant owner token completion now

end

/-- What `Integrity` says of the data that no method changes and of the steps. -/
theorem of_integrity (intact : t.integrity digest = none) :
    Identified digest t.id t.tenantId t.approval t.createdAt t.deadline ∧
      (1 ≤ t.steps.length ∧ t.steps.length ≤ 16) ∧
      ∀ i s, t.steps[i]? = some s → ¬ t.stepCorrupt digest i s := by
  unfold Task.integrity at intact
  split at intact
  · cases intact
  rename_i identified
  split at intact
  · cases intact
  rename_i sound
  simp only [not_or, Bool.not_eq_false, ne_eq, Decidable.not_not, Nat.not_lt, Bool.not_eq_true]
    at identified
  obtain ⟨tenant, named, change, -, actor, preview, target, plan, planVersion, subscription, source,
    entitlement, catalog, wide, narrow, -, created, term, -⟩ := identified
  refine ⟨⟨tenant, named, change, actor, preview, target, plan, planVersion, subscription, source,
    entitlement, catalog, created, term⟩, ⟨wide, narrow⟩, ?_⟩
  intro i s found corrupt
  exact sound ⟨(s, i), List.mem_zipIdx_iff_getElem?.mpr found, corrupt⟩

/-- The steps of a new task have done nothing. -/
theorem newSteps_idle (task : String) (i : Nat) (rs : List Requirement) :
    ∀ s ∈ newSteps digest task i rs, s.effect = .absent ∧ s.attempts = 0 ∧
      s.reconciliations = 0 := by
  induction rs generalizing i with
  | nil => simp [newSteps]
  | cons r rest ih =>
    intro s member
    rcases List.mem_cons.mp member with rfl | later
    · exact ⟨rfl, rfl, rfl⟩
    · exact ih (i + 1) s later

/-- A task that `New` returns without an error has the invariant. -/
theorem new_invariant {tenantId : String} {a : Approval} {rs : List Requirement}
    (created : new digest tenantId a rs now = (t, none)) : Invariant digest t := by
  unfold new at created
  split at created
  · cases created
  rw [Prod.mk.injEq] at created
  obtain ⟨rfl, intact⟩ := created
  obtain ⟨identified, width, sound⟩ := of_integrity intact
  refine ⟨⟨identified, width, Nat.zero_le _, ?_, by simp [Task.seal], by simp [Task.seal],
    fun _ => ⟨rfl, rfl⟩, by simp [Task.seal], Nat.zero_le _,
      ⟨Nat.zero_le _, fun _ => Nat.zero_le _⟩,
    Nat.zero_le _⟩, rfl, Nat.le_refl _, by simp [Task.seal, allowance]⟩
  intro i s found
  have uncorrupted := sound i s found
  obtain ⟨effect, attempts, reconciliations⟩ :=
    newSteps_idle _ 0 rs s (List.mem_of_getElem? found)
  simp only [Task.stepCorrupt, not_or, ne_eq, Decidable.not_not, Nat.not_lt] at uncorrupted
  obtain ⟨requirement, key, cycle, allowed, evidence, failure, -⟩ := uncorrupted
  exact ⟨requirement, key, cycle, allowed, evidence, failure,
    fun early => absurd early (Nat.not_lt_zero _), fun _ => by simp [effect], by omega, by omega⟩

end Biz.Provisioning
