import Biz.Change.History

/-!
# A boundary for every end

A subscription that runs and that no change holds has a boundary waiting for the end of
its period, in every state of a history in which no step loses a boundary. A boundary
is bound to one revision of its subscription; a reserved change that takes effect or
fails and a cancellation save the next revision without a new one.
-/

namespace Biz.Change

open Time Checks Transaction Subscription Runs

/-- The end of a free subscription that runs is watched. -/
def Attended (C : Setting) (l : Ledger) : Prop :=
  ∀ b, l.subscription = some b → Running b → b.pendingChangeId = "" → Watched C l.transition b

section Moves

variable {C : Setting} {grace orphan : Prop} {l l' : Ledger} {b after : BaseSubscription}

theorem attended_of_saved (saved : l'.subscription = some after)
    (watched : Running after → after.pendingChangeId = "" → Watched C l'.transition after) :
    Attended C l' := by
  intro b held
  obtain rfl : after = b := Option.some.inj (saved.symm.trans held)
  exact watched

/-- Moves keep the boundary of a running subscription, unless they lose it. -/
theorem Move.attended (move : Move C grace orphan l l') (aligned : Aligned l)
    (attended : Attended C l) (found : ¬orphan) : Attended C l' := by
  cases move with
  | idle later same watched =>
    intro b held running free
    rw [same] at held
    exact watched b held free (aligned.1 b held) (attended b held running free)
  | elapse later same previews kept =>
    intro b held running free
    rw [same] at held ⊢
    exact attended b held running free
  | hold raw after r saves _ shape named =>
    apply attended_of_saved saves.saved
    intro _ free
    rw [shape] at free
    exact absurd free (Text.key_ne_empty named.1)
  | stop raw after saves _ shape _ _ watched =>
    apply attended_of_saved saves.saved
    intro _ _
    exact watched
  | take raw after target r saves shape _ _ _ _ _ _ _ _ watched =>
    apply attended_of_saved saves.saved
    intro _ _
    exact watched.resolve_left found
  | release raw after saves shape _ _ lost =>
    apply attended_of_saved saves.saved
    intro running _
    have same : after.state = raw.state ∧ after.periodEnd = raw.periodEnd := by
      rw [shape]
      exact ⟨rfl, rfl⟩
    rcases lost.resolve_left found with endless | stopped
    · exact watched_of_endless (same.2.trans endless)
    · rw [Running, same.1] at running
      exact absurd running stopped
  | start raw after r known saves _ _ shape =>
    apply attended_of_saved saves.saved
    intro running _
    rw [Running, shape] at running
    simp at running
  | bound raw after saves _ shape state =>
    apply attended_of_saved saves.saved
    intro running _
    rcases state with ⟨-, watched⟩ | ended | ended
    · exact watched
    · rw [Running, ended] at running
      simp at running
    · rw [Running, ended] at running
      simp at running

theorem Begins.attended {version : Plan.Version} (begins : Begins C l l' b version) :
    Attended C l' := by
  apply attended_of_saved begins.saved
  intro _ _
  exact begins.watched

end Moves

/-- In every state of a history without steps that lose a boundary, a subscription that
has an end, runs and is not held by a change has a live boundary of its revision that is
due at its end. -/
theorem ends_attended {C : Setting} {store after : Store} {S : Services}
    {requestId scope : String} {events : List Event} (fresh : Fresh C store)
    (run : Run (Guarded (Step C) fun store event => ¬event.LosesBoundary C store) store
      (.bootstrap S requestId scope :: events) after) :
    ∀ b ends, after.subscription = some b → b.periodEnd = some ends → Running b →
      b.pendingChangeId = "" →
      ∃ t, after.transitions.find? ⟨.subscriptionBoundary, C.tenant, b.id, b.revision, ends⟩ =
        some t ∧ t.live := by
  obtain ⟨-, aligned, attended⟩ := history_invariant fresh
    (fun l' b version begins => begins.attended)
    (fun before event last found _ aligned _ attended move =>
      move.attended aligned attended found) run
  intro b ends held bounded running free
  obtain ⟨t, waiting, live⟩ := attended b held running free ends bounded
  have whole : ends % microsecond = 0 := aligned.1 b held ends bounded
  rw [boundaryKey, Transition.canonicalTime_of_whole whole] at waiting
  exact ⟨t, waiting, live⟩

namespace Sample

/-- The setting of a renewal on the tenth day. -/
def tenth : Setting := setting (view 1 1 10 granted)

def previews : List Preview := (view 1 1 10 granted).map (renewal .immediate none)

/-- The tenant while its renewal waits for the provisioning. -/
def renewing : Store :=
  run (confirm tenth (services [requirement]) confirmation) (wait (begun tenth) 10 previews)

/-- The tenant after it has cancelled the renewal. -/
def cancelled : Store := run (cancelPrepared tenth (services [requirement]) taskId 1) renewing

/-- What the transactions of the renewal return and leave. -/
theorem cancellation_facts :
    (commit (bootstrap tenth (services []) "request" "web") empty).isOk = true ∧
      (begun tenth).subscription = some base ∧ (begun tenth).clock.now ≤ addDays begin_ 10 ∧
      (commit (confirm tenth (services [requirement]) confirmation)
        (wait (begun tenth) 10 previews)).isOk = true ∧
      (commit (cancelPrepared tenth (services [requirement]) taskId 1) renewing).isOk = true ∧
      cancelled.subscription = some { base with revision := 3 } ∧
      cancelled.transitions.find?
        ⟨.subscriptionBoundary, "tenant", "sub-tenant", 3, addDays begin_ 30⟩ = none := by
  decide +kernel

end Sample

open Sample

/-- A cancellation leaves a running subscription without a boundary. -/
theorem cancellation_loses_boundary :
    Run (Step tenth) empty
      [.bootstrap (services []) "request" "web", .elapse,
        .confirm (services [requirement]) confirmation,
        .cancelPrepared (services [requirement]) taskId 1]
      cancelled ∧
      ∃ b ends, cancelled.subscription = some b ∧ b.periodEnd = some ends ∧ Running b ∧
        b.pendingChangeId = "" ∧
        cancelled.transitions.find?
          ⟨.subscriptionBoundary, tenth.tenant, b.id, b.revision, ends⟩ = none := by
  obtain ⟨boots, -, tenth, confirms, cancels, saved, lost⟩ := cancellation_facts
  refine ⟨?_, { base with revision := 3 }, addDays begin_ 30, saved, rfl,
    .inr (.inl rfl), rfl, lost⟩
  refine .step (commits_run boots) ?_
  refine .step (elapsed_wait 10 previews tenth) ?_
  refine .step (commits_run confirms) ?_
  exact .step (commits_run cancels) (.done _)

/-- After a change of the plan the end of the second month has a boundary of the second
revision. -/
theorem ends_attended_after_reduction :
    ∃ t, reduced.transitions.find?
        ⟨.subscriptionBoundary, "tenant", "sub-tenant", 2, addDays begin_ 61⟩ = some t ∧
      t.live := by
  obtain ⟨boots, -, -, saved, -⟩ := reduction_facts
  have run : Run (Guarded (Step monthOver) fun store event =>
      ¬event.LosesBoundary monthOver store) empty
      [.bootstrap (services []) "request" "web", .elapse, .confirm (services []) confirmation]
      reduced := by
    refine .step ⟨commits_run boots, fun other => other⟩ ?_
    refine .step ⟨lapsed_elapses, fun other => other⟩ ?_
    exact .step ⟨reduced_confirms, fun other => other⟩ (.done _)
  have attended := ends_attended (fresh _) run _ (addDays begin_ 61) saved rfl (.inr (.inl rfl)) rfl
  exact attended

end Biz.Change
