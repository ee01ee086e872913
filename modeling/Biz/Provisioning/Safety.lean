import Biz.Provisioning.Bounds

/-!
# Cancellation and completion

A task is cancelled only when nothing that was asked of the outside world may still be
there, and applied only after every step was seen to be ready. Both are decided from
flags of the steps; the histories here tie the flags to the calls that set them.
-/

namespace Biz.Provisioning

open Time Text Runs

variable {digest : Digestible → String} {t t' : Task} {entry : Entry}

/-- The completion of an approval. -/
def Completes (a : Approval) (c : Completion) : Prop :=
  c.changeId = a.changeId ∧ c.subscriptionRevision = increment64 a.subscriptionRevision ∧
    a.sourceVersion < c.sourceVersion ∧ a.entitlementVersion < c.entitlementVersion

/-- What a call that returns does to the state of a task. -/
inductive Became (t : Task) (entry : Entry) (t' : Task) : Prop
  | same (unchanged : t' = t)
  | granted (state : t'.state = .running) (claims : entry.claims t.stepIndex)
      (activation : t'.stage = .activate → t.stepIndex = t.steps.length ∧ t'.steps = t.steps)
  | waits (state : t'.state ∈ [TaskState.queued, .retryWait, .ready, .failed, .reconcileRequired])
  | cancelled (state : t'.state = .cancelled) (safe : t.cancellable = true)
      (steps : t'.steps = t.steps)
  | applied (state : t'.state = .applied) (owner : String) (token : Nat) (c : Completion)
      (now : Instant) (call : entry.call = .complete owner token c now) (done : entry.error = none)
      (owned : t.owns owner token now = true) (stage : t.stage = .activate)
      (completion : t'.completion = some c) (completes : Completes t.approval c)
      (steps : t'.steps = t.steps)

section States

variable {owner : String} {now : Instant} {error : Option Err}

theorem claim_became {lease : Duration}
    (returned : t.claim digest owner now lease = .returned t' error) :
    Became t ⟨t, .claim owner now lease, t', error⟩ t' := by
  have claimed := claim_claimed digest t owner now lease
  rw [returned] at claimed
  cases claimed with
  | refused => exact .same rfl
  | late | reconciliationExhausted =>
    exact .waits (show TaskState.reconcileRequired ∈ _ by decide)
  | activationExhausted | preparationExhausted =>
    exact .waits (show TaskState.failed ∈ _ by decide)
  | activating named due last allowed =>
    exact .granted rfl ⟨⟨owner, now, lease, rfl⟩, rfl, rfl, rfl⟩ fun _ => ⟨last, rfl⟩
  | reconciling | preparing =>
    exact .granted rfl ⟨⟨owner, now, lease, rfl⟩, rfl, rfl, rfl⟩ nofun

theorem observe_became {token : Nat} {o : Observation}
    (returned : t.observe digest owner token o now = .returned t' error) :
    Became t ⟨t, .observe owner token o now, t', error⟩ t' := by
  have observed := observe_observed digest t owner token o now
  rw [returned] at observed
  cases observed with
  | unowned | malformed => exact .same rfl
  | activation running stage next at_ again stopped =>
    rcases stopped with rfl | rfl
    · exact .waits (show TaskState.retryWait ∈ _ by decide)
    · exact .waits (show TaskState.reconcileRequired ∈ _ by decide)
  | recorded s running valid stage current =>
    exact .waits (record_frame now (Observation.of_valid valid).2.2.2).2.2.2.2.2

theorem complete_became {token : Nat} {c : Completion} (invariant : Invariant digest t)
    (returned : t.complete digest owner token c now = .returned t' error) :
    Became t ⟨t, .complete owner token c now, t', error⟩ t' := by
  have settled := complete_settles invariant owner token c now
  rw [returned] at settled
  cases settled with
  | rejected error => exact .same rfl
  | accepted after kept revision =>
    unfold Task.complete at returned
    split at returned
    · cases returned
    rename_i held
    split at returned
    · cases returned
    rename_i matching
    simp only [not_or, Bool.not_eq_false, ne_eq, Decidable.not_not, Nat.not_le] at held matching
    rw [Outcome.returned.injEq] at returned
    obtain ⟨rfl, -⟩ := returned
    exact .applied rfl owner token c now rfl rfl held.1 held.2.1 rfl
      ⟨matching.1, matching.2.1, matching.2.2.1, matching.2.2.2.1⟩ rfl

/-- Every call that returns does one of the five. -/
theorem Taken.became (taken : Taken digest t entry t') (invariant : Invariant digest t) :
    Became t entry t' := by
  obtain ⟨before, call, after, error⟩ := entry
  obtain ⟨rfl, rfl, returned⟩ := taken
  cases call with
  | claim owner now lease => exact claim_became returned
  | observe owner token o now => exact observe_became returned
  | retry now =>
    simp only [Call.apply, Task.retry] at returned
    split at returned
    · cases returned; exact .same rfl
    · cases returned; exact .waits (show TaskState.queued ∈ _ by decide)
  | cancel now =>
    simp only [Call.apply, Task.cancel] at returned
    split at returned
    · cases returned; exact .same rfl
    · rename_i safe
      cases returned
      exact .cancelled rfl (by simpa using safe) rfl
  | complete owner token completion now => exact complete_became invariant returned

end States

section Effects

/-- What a call does to the effects of the steps: one that neither claims a step nor
reports on it keeps its effect, a claim makes it unknown, and only a report of absence
makes it absent. -/
theorem Taken.effects (taken : Taken digest t entry t') (invariant : Invariant digest t) (i : Nat) :
    (entry.touches i → ∃ s, t'.steps[i]? = some s ∧ s.effect = .unknown) ∧
      (entry.reports i → ∃ s, t'.steps[i]? = some s ∧ (s.effect = .absent → entry.clears i)) ∧
      (¬entry.touches i → ¬entry.reports i → ∀ s, t.steps[i]? = some s →
        ∃ s', t'.steps[i]? = some s' ∧ s'.effect = s.effect) := by
  have here : entry.before = t ∧ entry.after = t' := ⟨taken.1, taken.2.1⟩
  cases taken.moved invariant with
  | kept steps index cycles untouched unreported =>
    refine ⟨fun touches => absurd touches (untouched i), fun reports =>
      absurd reports (unreported i),
      fun _ _ s found => ⟨s, steps ▸ found, rfl⟩⟩
  | claimed s s' current steps index cycles requirement effect attempts touches unreported =>
    have inside := (List.getElem?_eq_some_iff.mp current).1
    refine ⟨fun again => ?_, fun reports => absurd reports (unreported i), ?_⟩
    · have same : t.stepIndex = i := by
        rw [← index, ← here.2]
        exact again.1.2.2.2
      subst same
      exact ⟨s', by rw [steps, List.getElem?_set_self inside], effect⟩
    · intro elsewhere _ old found
      have other : t.stepIndex ≠ i := fun same => elsewhere (same ▸ touches)
      exact ⟨old, by rw [steps, List.getElem?_set_ne other, found], rfl⟩
  | reported s s' current steps index cycles requirement effect attempts cycle untouched reports =>
    have inside := (List.getElem?_eq_some_iff.mp current).1
    refine ⟨fun touches => absurd touches (untouched i), fun again => ?_, ?_⟩
    · have same : t.stepIndex = i := by
        rw [← here.1]
        exact again.2.2.1
      subst same
      exact ⟨s', by rw [steps, List.getElem?_set_self inside], effect⟩
    · intro _ elsewhere old found
      have other : t.stepIndex ≠ i := fun same => elsewhere (same ▸ reports)
      exact ⟨old, by rw [steps, List.getElem?_set_ne other, found], rfl⟩
  | restarted steps index cycles untouched unreported =>
    refine ⟨fun touches => absurd touches (untouched i), fun reports =>
      absurd reports (unreported i),
      fun _ _ s found => ?_⟩
    rw [steps, List.getElem?_modify, found]
    refine ⟨_, rfl, ?_⟩
    split <;> rfl

/-- The claims of step `i` have been reported on, the last time with its absence. -/
structure Reported (entries : List Entry) (i : Nat) : Prop where
  followed : ∀ early claim late, entries = early ++ claim :: late → claim.touches i →
    ∃ report ∈ late, report.reports i
  absent : ∀ early report late, entries = early ++ report :: late → report.reports i →
    (∀ later ∈ late, ¬later.reports i) → report.clears i

/-- An item of a list with one more at the end is the last one or comes before it. -/
theorem split_concat {α : Type} {items early late : List α} {item last : α}
    (same : items ++ [last] = early ++ item :: late) :
    late = [] ∧ item = last ∨ ∃ rest, late = rest ++ [last] ∧ items = early ++ item :: rest := by
  rcases List.eq_nil_or_concat late with rfl | ⟨rest, x, rfl⟩
  · have ends := List.append_inj' same rfl
    exact .inl ⟨rfl, by simpa [eq_comm] using ends.2⟩
  · rw [List.concat_eq_append, ← List.cons_append, ← List.append_assoc] at same
    have ends := List.append_inj' same rfl
    obtain rfl : last = x := by simpa using ends.2
    exact .inr ⟨rest, List.concat_eq_append, ends.1⟩

variable {past : List Entry} {i : Nat}

theorem Reported.extend (reported : Reported past i) (untouched : ¬entry.touches i)
    (unreported : ¬entry.reports i) : Reported (past ++ [entry]) i := by
  constructor
  · intro early claim late same touches
    rcases split_concat same with ⟨-, rfl⟩ | ⟨rest, rfl, before⟩
    · exact absurd touches untouched
    · obtain ⟨report, member, reports⟩ := reported.followed early claim rest before touches
      exact ⟨report, List.mem_append_left _ member, reports⟩
  · intro early report late same reports last
    rcases split_concat same with ⟨-, rfl⟩ | ⟨rest, rfl, before⟩
    · exact absurd reports unreported
    · exact reported.absent early report rest before reports fun later member =>
        last later (List.mem_append_left _ member)

theorem Reported.of_clears (untouched : ¬entry.touches i) (reports : entry.reports i)
    (clears : entry.clears i) : Reported (past ++ [entry]) i := by
  constructor
  · intro early claim late same touches
    rcases split_concat same with ⟨-, rfl⟩ | ⟨_, rfl, -⟩
    · exact absurd touches untouched
    · exact ⟨entry, List.mem_append_right _ List.mem_cons_self, reports⟩
  · intro early report late same _ last
    rcases split_concat same with ⟨-, rfl⟩ | ⟨_, rfl, -⟩
    · exact clears
    · exact absurd reports (last entry (List.mem_append_right _ List.mem_cons_self))

/-- Step lemma: while the effect of a step is absent, everything asked of it has been
reported on. -/
theorem Taken.reported (taken : Taken digest t entry t') (invariant : Invariant digest t)
    (held : (∀ s, t.steps[i]? = some s → s.effect = .absent) → Reported past i)
    (absent : ∀ s, t'.steps[i]? = some s → s.effect = .absent) : Reported (past ++ [entry]) i := by
  obtain ⟨touched, reported, kept⟩ := taken.effects invariant i
  by_cases touches : entry.touches i
  · obtain ⟨s, found, unknown⟩ := touched touches
    rw [absent s found] at unknown
    cases unknown
  by_cases reports : entry.reports i
  · obtain ⟨s, found, cleared⟩ := reported reports
    exact .of_clears touches reports (cleared (absent s found))
  · refine (held fun s found => ?_).extend touches reports
    obtain ⟨s', after, same⟩ := kept touches reports s found
    rw [← same, absent s' after]

end Effects

section Histories

/-- Each of the first steps has been seen ready. -/
def Confirmed (entries : List Entry) (width : Nat) : Prop :=
  ∀ i < width, ∃ entry ∈ entries, entry.confirms i

/-- The activation has been claimed under a token, after all steps were confirmed. -/
def Activates (entries : List Entry) (width : Nat) (owner : String) (token : Nat) : Prop :=
  ∃ early claim between, entries = early ++ claim :: between ∧ claim.claims width ∧
    claim.after.stage = .activate ∧ claim.after.leaseOwner = owner ∧
    claim.after.leaseToken = token ∧ Confirmed early width

/-- A completion of the approval has been accepted under the token of an activation. -/
def Applies (entries : List Entry) (width : Nat) (a : Approval) : Prop :=
  ∃ early complete late owner token c now, entries = early ++ complete :: late ∧
    complete.call = .complete owner token c now ∧ complete.error = none ∧
    complete.after.completion = some c ∧ Completes a c ∧ Activates early width owner token

theorem Activates.extend {past : List Entry} {width token : Nat} {owner : String}
    (activates : Activates past width owner token) (entry : Entry) :
    Activates (past ++ [entry]) width owner token := by
  obtain ⟨early, claim, between, rfl, rest⟩ := activates
  exact ⟨early, claim, between ++ [entry], by simp, rest⟩

theorem Applies.extend {past : List Entry} {width : Nat} {a : Approval}
    (applies : Applies past width a) (entry : Entry) : Applies (past ++ [entry]) width a := by
  obtain ⟨early, complete, late, owner, token, c, now, rfl, rest⟩ := applies
  exact ⟨early, complete, late ++ [entry], owner, token, c, now, by simp, rest⟩

/-- What a history says about the task that it leaves. -/
structure Accounted (digest : Digestible → String) (a : Approval) (past : List Entry) (t : Task) :
    Prop where
  invariant : Invariant digest t
  approval : t.approval = a
  confirmed : Confirmed past t.stepIndex
  reported : ∀ i, (∀ s, t.steps[i]? = some s → s.effect = .absent) → Reported past i
  activates : t.state = .running → t.stage = .activate →
    Activates past t.steps.length t.leaseOwner t.leaseToken
  cancelled : t.state = .cancelled → ∀ s ∈ t.steps, s.effect = .absent ∧ s.state ≠ .ready
  applies : t.state = .applied → Applies past t.steps.length a

variable {a : Approval} {past entries : List Entry} {tenantId : String} {rs : List Requirement}
  {now : Instant} {first last : Task}

theorem Taken.confirmed (taken : Taken digest t entry t') (invariant : Invariant digest t)
    (confirmed : Confirmed past t.stepIndex) : Confirmed (past ++ [entry]) t'.stepIndex := by
  have before : Confirmed (past ++ [entry]) t.stepIndex := by
    intro i early
    obtain ⟨report, member, confirms⟩ := confirmed i early
    exact ⟨report, List.mem_append_left _ member, confirms⟩
  cases taken.moved invariant with
  | kept steps index => exact index ▸ before
  | claimed s s' current steps index => exact index ▸ before
  | restarted steps index => exact index ▸ before
  | reported s s' current steps index =>
    rcases index with same | ⟨next, confirms⟩
    · exact same ▸ before
    · rw [next]
      intro i early
      rcases Nat.lt_succ_iff_lt_or_eq.mp early with earlier | rfl
      · exact before i earlier
      · exact ⟨entry, List.mem_append_right _ List.mem_cons_self, confirms⟩

section Next

variable (held : Accounted digest a past t) (taken : Taken digest t entry t')

include held taken

theorem Accounted.activates_next (running : t'.state = .running) (stage : t'.stage = .activate) :
    Activates (past ++ [entry]) t'.steps.length t'.leaseOwner t'.leaseToken := by
  have after : entry.after = t' := taken.2.1
  cases taken.became held.invariant with
  | same unchanged =>
    subst unchanged
    exact (held.activates running stage).extend entry
  | granted state claims activation =>
    obtain ⟨last, steps⟩ := activation stage
    rw [steps, ← last]
    exact ⟨past, entry, [], rfl, claims, after ▸ stage, after ▸ rfl, after ▸ rfl, held.confirmed⟩
  | waits state => simp [running] at state
  | cancelled state safe steps => simp [running] at state
  | applied state => simp [running] at state

theorem Accounted.cancelled_next (cancelled : t'.state = .cancelled) :
    ∀ s ∈ t'.steps, s.effect = .absent ∧ s.state ≠ .ready := by
  cases taken.became held.invariant with
  | same unchanged =>
    subst unchanged
    exact held.cancelled cancelled
  | granted state claims activation => simp [cancelled] at state
  | waits state => simp [cancelled] at state
  | cancelled state safe steps =>
    rw [steps]
    unfold Task.cancellable at safe
    split at safe
    · cases safe
    · intro s member
      simpa using List.all_eq_true.mp safe s member
  | applied state => simp [cancelled] at state

theorem Accounted.applies_next (applied : t'.state = .applied) :
    Applies (past ++ [entry]) t'.steps.length a := by
  have after : entry.after = t' := taken.2.1
  cases taken.became held.invariant with
  | same unchanged =>
    subst unchanged
    exact (held.applies applied).extend entry
  | granted state claims activation => simp [applied] at state
  | waits state => simp [applied] at state
  | cancelled state safe steps => simp [applied] at state
  | applied state owner token c now call done owned stage completion completes steps =>
    have held' := owned
    simp only [Task.owns, Bool.and_eq_true, decide_eq_true_eq] at held'
    obtain ⟨⟨⟨running, sameOwner⟩, sameToken⟩, -⟩ := held'
    subst sameOwner sameToken
    rw [steps]
    refine ⟨past, entry, [], t.leaseOwner, t.leaseToken, c, now, rfl, call, done, ?_, ?_, ?_⟩
    · rw [after, completion]
    · rw [← held.approval]
      exact completes
    · exact held.activates running stage

/-- Step lemma: a call extends what the history says. -/
theorem Accounted.next : Accounted digest a (past ++ [entry]) t' where
  invariant := taken.settles held.invariant
  approval := (taken.frame held.invariant).1.trans held.approval
  confirmed := taken.confirmed held.invariant held.confirmed
  reported i := taken.reported held.invariant (held.reported i)
  activates := held.activates_next taken
  cancelled := held.cancelled_next taken
  applies := held.applies_next taken

end Next

theorem new_accounted (created : new digest tenantId a rs now = (first, none)) :
    Accounted digest a [] first := by
  have shape : first.approval = a ∧ first.stepIndex = 0 ∧ first.state = .queued := by
    unfold new at created
    split at created
    · cases created
    rw [Prod.mk.injEq] at created
    obtain ⟨rfl, -⟩ := created
    exact ⟨rfl, rfl, rfl⟩
  obtain ⟨approval, index, state⟩ := shape
  refine ⟨new_invariant created, approval, by simp [Confirmed, index], ?_, by simp [state],
    by simp [state], by simp [state]⟩
  exact fun i _ => ⟨fun early claim late same => by simp at same,
    fun early report late same => by simp at same⟩

/-- A cancelled task has nothing left outside: every claim of a step was followed by an
accepted observation of it, and the last one reported absence. An applied one has seen
every step ready before the claim under which it was completed, and its completion
follows the approval. -/
theorem ends_safely (created : new digest tenantId a rs now = (first, none))
    (run : Run (Taken digest) first entries last) :
    (last.state = .cancelled → (∀ i, Reported entries i) ∧
        ∀ s ∈ last.steps, s.effect = .absent ∧ s.state ≠ .ready) ∧
      (last.state = .applied → Applies entries last.steps.length a) := by
  have accounted := run.history (Accounted digest a) (fun _ _ _ _ held taken => held.next taken)
    (new_accounted created)
  refine ⟨fun cancelled => ?_, accounted.applies⟩
  have absent := accounted.cancelled cancelled
  exact ⟨fun i => accounted.reported i fun s found => (absent s (List.mem_of_getElem? found)).1,
    absent⟩

end Histories

section Sample

def sampleCancel : Entry := .accepted sampleReport.after (.cancel 3)

def sampleReady : Entry := .accepted sampleClaim.after (.observe "worker" 1 ⟨.ready, "ref", ""⟩ 2)

def sampleActivation : Entry := .accepted sampleReady.after (.claim "worker" 3 (10 * second))

def sampleCompletion : Completion :=
  { changeId := "chg-1", subscriptionRevision := 2, sourceVersion := 2, entitlementVersion := 2,
    appliedAt := 4 }

def sampleComplete : Entry :=
  .accepted sampleActivation.after (.complete "worker" 2 sampleCompletion 4)

/-- A task that is cancelled after its step was reported absent, and one that is completed. -/
theorem ends_safely_sample :
    (∀ i, Reported [sampleClaim, sampleReport, sampleCancel] i) ∧
      Applies [sampleClaim, sampleReady, sampleActivation, sampleComplete] 1 sampleApproval := by
  have cancelled : Run (Taken fixedDigest) sampleTask [sampleClaim, sampleReport, sampleCancel]
      sampleCancel.after :=
    .step sampleClaim_taken (.step sampleReport_taken
      (.step ⟨rfl, rfl, by decide +kernel⟩ (.done _)))
  have applied : Run (Taken fixedDigest) sampleTask
      [sampleClaim, sampleReady, sampleActivation, sampleComplete] sampleComplete.after :=
    .step sampleClaim_taken (.step ⟨rfl, rfl, by decide +kernel⟩
      (.step ⟨rfl, rfl, by decide +kernel⟩ (.step ⟨rfl, rfl, by decide +kernel⟩ (.done _))))
  have width : sampleComplete.after.steps.length = 1 := by decide +kernel
  refine ⟨((ends_safely sampleTask_created cancelled).1 (by decide +kernel)).1, ?_⟩
  exact width ▸ (ends_safely sampleTask_created applied).2 (by decide +kernel)

end Sample

end Biz.Provisioning
