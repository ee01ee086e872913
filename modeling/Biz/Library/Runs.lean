import Mathlib

/-!
# Labelled runs

A step relation on states with labels, and its finite runs. A run records the
label of every step in order, so a property of a history is a property of the
label list and a property of a state is an invariant of the step relation.

Two rules carry every later induction over runs: a predicate kept by each step
is kept by a run, and a predicate on the history so far that each step extends
holds of the whole history.
-/

namespace Biz.Runs

universe u v
variable {State : Type u} {Label : Type v} {labels : List Label} {first last : State}
  {step : State → Label → State → Prop}

/-- The finite runs of a labelled step relation, first step outermost. -/
inductive Run (step : State → Label → State → Prop) : State → List Label → State → Prop
  | done (state : State) : Run step state [] state
  | step {first next last : State} {label : Label} {labels : List Label} :
      step first label next → Run step next labels last → Run step first (label :: labels) last

/-- The steps that also meet a condition on the state they start from. -/
def Guarded (step : State → Label → State → Prop) (condition : State → Label → Prop) :
    State → Label → State → Prop :=
  fun before label after => step before label after ∧ condition before label

/-- A predicate kept by every step is kept by every run. -/
@[elab_as_elim] theorem Run.invariant {holds : State → Prop}
    (kept : ∀ before label after, holds before → step before label after → holds after)
    {first last : State} {labels : List Label} (run : Run step first labels last)
    (start : holds first) : holds last := by
  induction run with
  | done state => exact start
  | step taken rest ih => exact ih (kept _ _ _ start taken)

/-- A predicate kept by every step where another one holds. -/
@[elab_as_elim] theorem Run.invariant_under {sound holds : State → Prop}
    (base : ∀ before label after, sound before → step before label after → sound after)
    (kept : ∀ before label after, sound before → holds before → step before label after →
      holds after)
    (run : Run step first labels last) (start : sound first) (held : holds first) : holds last := by
  induction run with
  | done state => exact held
  | step taken rest ih => exact ih (base _ _ _ start taken) (kept _ _ _ start held taken)

/-- Runs compose. -/
theorem Run.append {first middle last : State} {early late : List Label}
    (before : Run step first early middle) (after : Run step middle late last) :
    Run step first (early ++ late) last := by
  induction before with
  | done state => exact after
  | step taken rest ih => exact .step taken (ih after)

/-- A run over a concatenation passes through the state where the first part ends. -/
theorem Run.split {early late : List Label} (run : Run step first (early ++ late) last) :
    ∃ middle, Run step first early middle ∧ Run step middle late last := by
  induction early generalizing first with
  | nil => exact ⟨first, .done first, run⟩
  | cons label labels ih =>
    cases run with
    | step taken rest =>
      obtain ⟨middle, before, after⟩ := ih rest
      exact ⟨middle, .step taken before, after⟩

/-- The first step of a run with a label, and the run that follows it. -/
theorem Run.uncons {label : Label} (run : Run step first (label :: labels) last) :
    ∃ next, step first label next ∧ Run step next labels last := by
  cases run with
  | step taken rest => exact ⟨_, taken, rest⟩

/-- A fold over labels whose moves are steps is a run. -/
theorem Run.of_foldlM {move : State → Label → Option State}
    (takes : ∀ before label after, move before label = some after → step before label after)
    (folded : labels.foldlM move first = some last) : Run step first labels last := by
  induction labels generalizing first with
  | nil =>
    cases folded
    exact .done _
  | cons label rest ih =>
    rw [List.foldlM_cons, Option.bind_eq_bind, Option.bind_eq_some_iff] at folded
    obtain ⟨_, taken, after⟩ := folded
    exact .step (takes _ _ _ taken) (ih after)

/-- A predicate on the history so far that every step extends holds of the whole
history. Proof: generalise the history already behind the first state. -/
theorem Run.history (holds : List Label → State → Prop) (extended : ∀ past before label after,
      holds past before → step before label after → holds (past ++ [label]) after)
    (run : Run step first labels last) (start : holds [] first) : holds labels last := by
  suffices general : ∀ past, holds past first → holds (past ++ labels) last by
    simpa using general [] start
  clear start
  induction run with
  | done state => intro past held; simpa using held
  | step taken rest ih =>
    intro past held
    simpa using ih _ (extended past _ _ _ held taken)

end Biz.Runs
