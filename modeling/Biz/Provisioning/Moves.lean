import Biz.Provisioning.History

/-!
# What a call does to the steps

A call of a history keeps the steps, claims the current one, reports on it or starts
another cycle for it. The results about whole histories, how long they are and what they
have asked of the outside world, are derived from these four cases.

The first of them is that a step whose last attempt may have taken effect is reconciled,
never prepared again. A step is touched when its effect is not absent. A prepare claim
starts from an untouched step and leaves a touched one, and only an accepted observation of
absence makes a touched step untouched.
-/

namespace Biz.Provisioning

open Time Text Runs

/-- An accepted claim of step `i` in the stage `PREPARE` or `RECONCILE`. -/
def Entry.touches (entry : Entry) (i : Nat) : Prop :=
  entry.claims i ∧ entry.after.stage ≠ .activate

/-- An accepted observation of step `i`. -/
def Entry.reports (entry : Entry) (i : Nat) : Prop :=
  (∃ owner token o now, entry.call = .observe owner token o now) ∧ entry.error = none ∧
    entry.before.stepIndex = i ∧ entry.before.stage ≠ .activate

/-- An accepted observation that step `i` is ready, with evidence that is not blank. -/
def Entry.confirms (entry : Entry) (i : Nat) : Prop :=
  (∃ owner token o now, entry.call = .observe owner token o now ∧ o.outcome = .ready ∧
    trimSpace o.evidence ≠ "") ∧
    entry.error = none ∧ entry.before.stepIndex = i ∧ entry.before.stage ≠ .activate

variable {digest : Digestible → String} {t t' : Task} {entry : Entry} {i : Nat} {o : Observation}

theorem Entry.not_touches (other : ∀ owner now lease, entry.call ≠ .claim owner now lease)
    (i : Nat) :
    ¬entry.touches i := by
  rintro ⟨⟨⟨owner, now, lease, call⟩, -⟩, -⟩
  exact other owner now lease call

theorem Entry.not_reports (other : ∀ owner token o now, entry.call ≠ .observe owner token o now)
    (i : Nat) : ¬entry.reports i := by
  rintro ⟨⟨owner, token, o, now, call⟩, -⟩
  exact other owner token o now call

/-- What a call that returns does to the steps. -/
inductive Moved (t : Task) (entry : Entry) (t' : Task) : Prop
  | kept (steps : t'.steps = t.steps) (index : t'.stepIndex = t.stepIndex)
      (cycles : t'.retryCycles = t.retryCycles)
      (untouched : ∀ i, ¬entry.touches i) (unreported : ∀ i, ¬entry.reports i)
  | claimed (s s' : Step) (current : t.steps[t.stepIndex]? = some s)
      (steps : t'.steps = t.steps.set t.stepIndex s') (index : t'.stepIndex = t.stepIndex)
      (cycles : t'.retryCycles = t.retryCycles) (requirement : s'.requirement = s.requirement)
      (effect : s'.effect = .unknown)
      (attempts : s'.attempts + s.cycleAttempts = s.attempts + s'.cycleAttempts)
      (touches : entry.touches t.stepIndex) (unreported : ∀ i, ¬entry.reports i)
  | reported (s s' : Step) (current : t.steps[t.stepIndex]? = some s)
      (steps : t'.steps = t.steps.set t.stepIndex s')
      (index : t'.stepIndex = t.stepIndex ∨
        t'.stepIndex = t.stepIndex + 1 ∧ entry.confirms t.stepIndex)
      (cycles : t'.retryCycles = t.retryCycles) (requirement : s'.requirement = s.requirement)
      (effect : s'.effect = .absent → entry.clears t.stepIndex)
      (attempts : s'.attempts = s.attempts) (cycle : s'.cycleAttempts = s.cycleAttempts)
      (untouched : ∀ i, ¬entry.touches i) (reports : entry.reports t.stepIndex)
  | restarted
      (steps : t'.steps = t.steps.modify t.stepIndex fun s =>
        { s with cycleAttempts := 0, state := .waiting })
      (index : t'.stepIndex = t.stepIndex) (cycles : t'.retryCycles = t.retryCycles + 1)
      (untouched : ∀ i, ¬entry.touches i) (unreported : ∀ i, ¬entry.reports i)

/-- A call that is neither a claim nor an observation, and keeps the steps. -/
theorem Moved.still (steps : t'.steps = t.steps) (index : t'.stepIndex = t.stepIndex)
    (cycles : t'.retryCycles = t.retryCycles)
    (claims : ∀ owner now lease, entry.call ≠ .claim owner now lease)
    (observes : ∀ owner token o now, entry.call ≠ .observe owner token o now) : Moved t entry t' :=
  .kept steps index cycles (Entry.not_touches claims) (Entry.not_reports observes)

/-- A claim that does not run touches no step. -/
theorem Entry.not_touches_of_stopped (stopped : entry.after.state ≠ .running) (i : Nat) :
    ¬entry.touches i :=
  fun touches => stopped touches.1.2.2.1

theorem claim_moved {owner : String} {now : Instant} {lease : Duration} {error : Option Err}
    (invariant : Invariant digest t)
    (returned : t.claim digest owner now lease = .returned t' error) :
    Moved t ⟨t, .claim owner now lease, t', error⟩ t' := by
  have body := invariant.body
  have unreported : ∀ i, ¬Entry.reports ⟨t, .claim owner now lease, t', error⟩ i :=
    Entry.not_reports fun _ _ _ _ => by simp
  have claimed := claim_claimed digest t owner now lease
  rw [returned] at claimed
  cases claimed with
  | refused => exact .kept rfl rfl rfl (fun i touches => nomatch touches.1.2.1) unreported
  | late | activationExhausted | reconciliationExhausted | preparationExhausted =>
    exact .kept rfl rfl rfl (Entry.not_touches_of_stopped nofun) unreported
  | activating named due last allowed =>
    exact .kept rfl rfl rfl (fun i touches => touches.2 rfl) unreported
  | reconciling s named due current allowed =>
    refine .claimed s _ current rfl rfl rfl rfl rfl rfl ?_ unreported
    exact ⟨⟨⟨owner, now, lease, rfl⟩, rfl, rfl, rfl⟩, nofun⟩
  | preparing s named due current idle known allowed =>
    have step := body.steps _ s current
    have few := maxAttempts_le step.requirement
    have cycles := body.cycles
    have attempts := step.attempts
    have cycle : increment32 s.cycleAttempts = s.cycleAttempts + 1 :=
      increment32_of_le (by omega)
    have total : increment32 s.attempts = s.attempts + 1 := increment32_of_le (by omega)
    refine .claimed s _ current rfl rfl rfl rfl rfl ?_ ?_ unreported
    · dsimp only
      omega
    · exact ⟨⟨⟨owner, now, lease, rfl⟩, rfl, rfl, rfl⟩, nofun⟩

/-- The step that a recorded observation leaves. -/
def Step.under (s : Step) (o : Observation) : Step :=
  { s with
    evidence := o.evidence
    failureCode := o.failureCode
    state := if o.outcome = .ready then .ready else .waiting
    effect := match o.outcome with
      | .ready => .ready
      | .unknown => .unknown
      | _ => .absent }

/-- What recording an observation does; the task then waits for a call. -/
theorem record_frame {s : Step} (now : Instant) (known : o.outcome ≠ .unrecognised) :
    (t.record s o now).steps = t.steps.set t.stepIndex (s.under o) ∧
      (t.record s o now).stepIndex =
        (if o.outcome = .ready then t.stepIndex + 1 else t.stepIndex) ∧
      (t.record s o now).retryCycles = t.retryCycles ∧
      (t.record s o now).leaseToken = t.leaseToken ∧
      (t.record s o now).approval = t.approval ∧
      (t.record s o now).state ∈
        [TaskState.queued, .retryWait, .ready, .failed, .reconcileRequired] := by
  cases verdict : o.outcome with
  | ready | absent | retryable =>
    simp only [Task.record, verdict, Step.under]
    split <;> exact ⟨rfl, rfl, rfl, rfl, rfl, by simp⟩
  | permanent | unknown => simp [Task.record, verdict, Step.under]
  | unrecognised => exact absurd verdict known

theorem observe_moved {owner : String} {token : Nat} {now : Instant} {error : Option Err}
    (returned : t.observe digest owner token o now = .returned t' error) :
    Moved t ⟨t, .observe owner token o now, t', error⟩ t' := by
  have untouched : ∀ i, ¬Entry.touches ⟨t, .observe owner token o now, t', error⟩ i :=
    Entry.not_touches fun _ _ _ => nofun
  have observed := observe_observed digest t owner token o now
  rw [returned] at observed
  cases observed with
  | unowned | malformed =>
    exact .kept rfl rfl rfl untouched fun i reports => nomatch reports.2.1
  | activation running stage next at_ again stopped =>
    exact .kept rfl rfl rfl untouched fun i reports => reports.2.2.2 stage
  | recorded s running valid stage current =>
    obtain ⟨-, shown, -, known⟩ := Observation.of_valid valid
    obtain ⟨steps, index, cycles, -⟩ := record_frame (s := s)
      (t := { t with failureCode := o.failureCode, retryAllowed := false }) now known
    refine .reported s (s.under o) current steps ?_ cycles rfl ?_ rfl rfl untouched
      ⟨⟨owner, token, o, now, rfl⟩, rfl, rfl, stage⟩
    · by_cases ready : o.outcome = .ready
      · refine .inr ⟨index.trans (if_pos ready), ?_⟩
        exact ⟨⟨owner, token, o, now, rfl, ready, shown⟩, rfl, rfl, stage⟩
      · exact .inl (index.trans (if_neg ready))
    · intro absent
      refine ⟨⟨owner, token, o, now, rfl, ?_⟩, rfl, rfl, stage⟩
      cases verdict : o.outcome with
      | absent => exact .inl rfl
      | retryable => exact .inr (.inl rfl)
      | permanent => exact .inr (.inr rfl)
      | ready => simp [Step.under, verdict] at absent
      | unknown => simp [Step.under, verdict] at absent
      | unrecognised => exact absurd verdict known

/-- Every call that returns does one of the four. -/
theorem Taken.moved (taken : Taken digest t entry t') (invariant : Invariant digest t) :
    Moved t entry t' := by
  obtain ⟨_, call, _, _⟩ := entry
  obtain ⟨rfl, rfl, returned⟩ := taken
  cases call with
  | claim owner now lease => exact claim_moved invariant returned
  | observe owner token o now => exact observe_moved returned
  | retry now =>
    simp only [Call.apply, Task.retry] at returned
    split at returned
    · cases returned
      exact .still rfl rfl rfl (by simp) (by simp)
    · cases returned
      refine .restarted rfl rfl ?_ (Entry.not_touches (by simp)) (Entry.not_reports (by simp))
      exact increment32_of_le (Nat.le_trans invariant.body.cycles (by decide))
  | cancel now =>
    simp only [Call.apply, Task.cancel] at returned
    split at returned <;> (cases returned; exact .still rfl rfl rfl (by simp) (by simp))
  | complete owner token completion now =>
    simp only [Call.apply, Task.complete] at returned
    split at returned
    · cases returned
      exact .still rfl rfl rfl (by simp) (by simp)
    · split at returned <;> (cases returned; exact .still rfl rfl rfl (by simp) (by simp))

/-- The step at index `i` may have an external effect. -/
def Touched (i : Nat) (steps : List Step) : Prop :=
  ∃ s, steps[i]? = some s ∧ s.effect ≠ .absent

theorem Touched.set {steps : List Step} (touched : Touched i steps) (k : Nat) {s : Step}
    (effect : k = i → s.effect ≠ .absent) : Touched i (steps.set k s) := by
  obtain ⟨old, found, changed⟩ := touched
  by_cases same : k = i
  · subst same
    have inside := (List.getElem?_eq_some_iff.mp found).1
    exact ⟨s, by simp [inside], effect rfl⟩
  · exact ⟨old, by rw [List.getElem?_set_ne same]; exact found, changed⟩

theorem Touched.modify {steps : List Step} (touched : Touched i steps) (k : Nat)
    {change : Step → Step} (same : ∀ s, (change s).effect = s.effect) :
    Touched i (steps.modify k change) := by
  obtain ⟨old, found, changed⟩ := touched
  refine ⟨if k = i then change old else old, ?_, ?_⟩
  · rw [List.getElem?_modify, found]
    split <;> rfl
  · split
    · rw [same]; exact changed
    · exact changed

/-- Step lemma: a call that does not clear a touched step keeps it touched. -/
theorem Moved.touched (moved : Moved t entry t') (touched : Touched i t.steps)
    (uncleared : ¬entry.clears i) : Touched i t'.steps := by
  cases moved with
  | kept steps => exact steps ▸ touched
  | claimed s s' current steps _ _ _ effect =>
    rw [steps]
    exact touched.set t.stepIndex fun _ => by simp [effect]
  | reported s s' current steps _ _ _ effect =>
    rw [steps]
    exact touched.set t.stepIndex fun here absent => uncleared (here ▸ effect absent)
  | restarted steps =>
    rw [steps]
    exact touched.modify t.stepIndex fun _ => rfl

/-- A prepare claim of a step starts where the step is untouched and leaves it
touched. Proof: the claimed step's effect is not unknown, and it is not ready
because the task has not passed it. -/
theorem Taken.prepares (taken : Taken digest t entry t') (invariant : Invariant digest t)
    (prepares : entry.prepares i) : ¬ Touched i t.steps ∧ Touched i t'.steps := by
  obtain ⟨before, _, _, _⟩ := entry
  obtain ⟨rfl, rfl, returned⟩ := taken
  obtain ⟨⟨⟨owner, now, lease, rfl⟩, rfl, running, index⟩, stage⟩ := prepares
  dsimp only [Call.apply] at returned running index stage ⊢
  have claimed := claim_claimed digest before owner now lease
  rw [returned] at claimed
  cases claimed with
  | late | activationExhausted | reconciliationExhausted | preparationExhausted => cases running
  | activating | reconciling => cases stage
  | preparing s named due current idle known allowed =>
    have here : before.stepIndex = i := index
    subst here
    have inside := (List.getElem?_eq_some_iff.mp current).1
    constructor
    · rintro ⟨_, same, effect⟩
      rw [current, Option.some.injEq] at same
      subst same
      have unready := (invariant.body.steps _ s current).pending (Nat.le_refl _)
      cases kind : s.effect with
      | absent => exact effect kind
      | unknown => exact known kind
      | ready => exact unready kind
    · exact ⟨_, List.getElem?_set_self inside, by simp⟩

/-- Run lemma: a history without a clearing entry keeps a touched step touched. -/
theorem touched_of_run {first last : Task} {entries : List Entry}
    (run : Run (Taken digest) first entries last)
    (start : Invariant digest first ∧ Touched i first.steps)
    (uncleared : ∀ entry ∈ entries, ¬ entry.clears i) :
    Invariant digest last ∧ Touched i last.steps := by
  induction run with
  | done state => exact start
  | step taken rest ih =>
    obtain ⟨invariant, touched⟩ := start
    have stays := (taken.moved invariant).touched touched (uncleared _ List.mem_cons_self)
    exact ih ⟨taken.settles invariant, stays⟩ fun entry member =>
      uncleared entry (List.mem_cons_of_mem _ member)

/-- The state in which the second of two chosen entries of a history starts, when
no entry between them clears the step that the first one prepared. -/
theorem touched_between {first last : Task} {early between late : List Entry} {one two : Entry}
    (start : Invariant digest first)
    (run : Run (Taken digest) first (early ++ one :: between ++ two :: late) last)
    (prepares : one.prepares i) (uncleared : ∀ entry ∈ between, ¬ entry.clears i) :
    ∃ t t', Taken digest t two t' ∧ Invariant digest t ∧ Touched i t.steps := by
  rw [List.append_assoc, List.cons_append] at run
  obtain ⟨reached, before, rest⟩ := run.split
  obtain ⟨_, taken, rest⟩ := rest.uncons
  obtain ⟨t, middle, rest⟩ := rest.split
  obtain ⟨t', again, -⟩ := rest.uncons
  have invariant : Invariant digest reached :=
    before.invariant (fun _ _ _ invariant step => step.settles invariant) start
  have touched := (taken.prepares invariant prepares).2
  exact ⟨t, t', again, touched_of_run middle ⟨taken.settles invariant, touched⟩ uncleared⟩

/-- At most one unobserved external effect. Between two prepare claims of a step
lies an accepted observation of its absence, and without one every claim of that
step reconciles. -/
theorem prepared_once (tenantId : String) (a : Approval) (rs : List Requirement) (now : Instant)
    (first last : Task) (created : new digest tenantId a rs now = (first, none))
    (early between late : List Entry) (one two : Entry)
    (run : Run (Taken digest) first (early ++ one :: between ++ two :: late) last) (i : Nat)
    (prepares : one.prepares i) :
    (two.prepares i → ∃ entry ∈ between, entry.clears i) ∧
      ((∀ entry ∈ between, ¬ entry.clears i) → two.claims i → two.after.stage = .reconcile) := by
  have unprepared : (∀ entry ∈ between, ¬ entry.clears i) → ¬ two.prepares i := by
    intro uncleared again
    obtain ⟨t, t', taken, invariant, touched⟩ :=
      touched_between (new_invariant created) run prepares uncleared
    exact (taken.prepares invariant again).1 touched
  constructor
  · intro again
    exact Classical.byContradiction fun none_ =>
      unprepared (fun entry member clears => none_ ⟨entry, member, clears⟩) again
  · intro uncleared claims
    obtain ⟨t, t', taken, invariant, touched⟩ :=
      touched_between (new_invariant created) run prepares uncleared
    have kept : Invariant digest two.after := taken.2.1 ▸ taken.settles invariant
    have claim : ¬ two.clears i := by
      rintro ⟨⟨owner, token, o, now, observe, -⟩, -⟩
      obtain ⟨owner', now', lease, call⟩ := claims.1
      rw [observe] at call
      cases call
    obtain ⟨s, found, -⟩ := taken.2.1 ▸ (taken.moved invariant).touched touched claim
    have inside := (List.getElem?_eq_some_iff.mp found).1
    cases stage : two.after.stage with
    | prepare => exact absurd ⟨claims, stage⟩ (unprepared uncleared)
    | reconcile => rfl
    | activate =>
      have last := (kept.body.staged claims.2.2.1).mp stage
      rw [claims.2.2.2] at last
      omega

/-- A step that is claimed, reported absent and claimed again. -/
theorem prepared_once_sample :
    sampleClaim.prepares 0 ∧ sampleAgain.prepares 0 ∧
      ∃ entry ∈ [sampleReport], entry.clears 0 := by
  have one : sampleClaim.prepares 0 :=
    ⟨⟨⟨_, _, _, rfl⟩, rfl, by decide +kernel, by decide +kernel⟩, by decide +kernel⟩
  have two : sampleAgain.prepares 0 :=
    ⟨⟨⟨_, _, _, rfl⟩, rfl, by decide +kernel, by decide +kernel⟩, by decide +kernel⟩
  have run : Run (Taken fixedDigest) sampleTask
      ([] ++ sampleClaim :: [sampleReport] ++ sampleAgain :: []) sampleAgain.after :=
    .step sampleClaim_taken (.step sampleReport_taken (.step sampleAgain_taken (.done _)))
  exact ⟨one, two, (prepared_once _ _ _ _ _ _ sampleTask_created [] [sampleReport] [] sampleClaim
    sampleAgain run 0 one).1 two⟩

end Biz.Provisioning
