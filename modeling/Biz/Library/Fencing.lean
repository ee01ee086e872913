import Biz.Library.Runs

/-!
# Leases behind a revision check

Parties read copies of a row whenever they like, perform an operation on a copy and try
to save the result, which succeeds only while the row has the revision of the copy. Each
save raises the revision, so a copy of the current revision is the row, and the saves of
any interleaving are a run of operations on the row.

A row may be leased. A claim that grants a lease takes a new token, a report needs the
token of the running lease and ends it, and every other operation ends the lease too.
Then tokens fence: they only grow, each is reported on at most once and in time, and
never after a later one was granted.
-/

namespace Biz.Fencing

open Runs

variable {Row Op Time : Type}

/-- A row and the copies of it that have been read. -/
structure World (Row : Type) where
  row : Row
  copies : List Row

/-- What parties do: read the row, save the result of an operation on a copy, or fail to. -/
inductive Event (Row Op : Type)
  | read
  | saved (op : Op) (before after : Row)
  | refused (op : Op) (copy : Row)

/-- The accesses to a row. The operation sees the copy, the save the row. -/
inductive Access (attempt : Op → Row → Row → Option Row) :
    World Row → Event Row Op → World Row → Prop
  | read (w : World Row) : Access attempt w .read { w with copies := w.row :: w.copies }
  | saved {w : World Row} {op : Op} {copy after : Row} (held : copy ∈ w.copies)
      (accepted : attempt op copy w.row = some after) :
      Access attempt w (.saved op copy after) { w with row := after }
  | refused {w : World Row} {op : Op} {copy : Row} (held : copy ∈ w.copies)
      (rejected : attempt op copy w.row = none) : Access attempt w (.refused op copy) w

/-- A successful save. -/
structure Save (Row Op : Type) where
  op : Op
  before : Row
  after : Row

/-- The successful saves among events. -/
def saves (events : List (Event Row Op)) : List (Save Row Op) :=
  events.filterMap fun
    | .saved op before after => some ⟨op, before, after⟩
    | _ => none

/-- A save of an operation on the row itself. -/
def Serial (attempt : Op → Row → Row → Option Row) (before : Row) (save : Save Row Op)
    (after : Row) : Prop :=
  save.before = before ∧ save.after = after ∧ attempt save.op before before = some after

/-- Saves check the revision and raise it, and keep the rows good. -/
structure Checked (good : Row → Prop) (revision : Row → Nat)
    (attempt : Op → Row → Row → Option Row) : Prop where
  current : ∀ {op copy row after}, attempt op copy row = some after → revision copy = revision row
  raises : ∀ {op row after}, good row → attempt op row row = some after →
    revision row < revision after
  keeps : ∀ {op row after}, good row → attempt op row row = some after → good after

section Serial

variable {good : Row → Prop} {revision : Row → Nat} {attempt : Op → Row → Row → Option Row}

/-- A copy is older than the row, or it is the row. -/
def Behind (revision : Row → Nat) (row copy : Row) : Prop :=
  revision copy ≤ revision row ∧ (revision copy = revision row → copy = row)

/-- Every interleaving of reads and saves is a run of operations on the row. Proof: a
copy is older than the row or is the row, and a save needs the revision of the row. -/
theorem serialises (checked : Checked good revision attempt) {first last : World Row}
    {events : List (Event Row Op)} (run : Run (Access attempt) first events last)
    (start : good first.row) (copies : ∀ copy ∈ first.copies, Behind revision first.row copy) :
    Run (Serial attempt) first.row (saves events) last.row := by
  induction run with
  | done w => exact .done w.row
  | step taken rest ih =>
    cases taken with
    | read =>
      exact ih start fun copy member => by
        rcases List.mem_cons.mp member with rfl | old
        · exact ⟨Nat.le_refl _, fun _ => rfl⟩
        · exact copies copy old
    | @saved op copy after held accepted =>
      obtain rfl := (copies copy held).2 (checked.current accepted)
      refine .step ⟨rfl, rfl, accepted⟩ (ih (checked.keeps start accepted) ?_)
      intro other member
      have older := (copies other member).1
      have raised := checked.raises start accepted
      exact ⟨by dsimp only; omega, fun same => by dsimp only at same; omega⟩
    | refused held rejected => exact ih start copies

end Serial

/-- How leases show in rows and operations: the token of a row and the end of its running
lease, the operations that claim, and the token and the instant of a report. -/
structure View (Row Op Time : Type) where
  token : Row → Nat
  lease : Row → Option Time
  claims : Op → Bool
  report : Op → Option (Nat × Time)

/-- A claim that grants a lease. -/
def View.Grants (view : View Row Op Time) (save : Save Row Op) : Prop :=
  view.claims save.op = true ∧ view.lease save.after ≠ none

/-- The rules of leases. -/
structure Leases [LT Time] (view : View Row Op Time) (good : Row → Prop)
    (attempt : Op → Row → Row → Option Row) : Prop where
  grant : ∀ {save : Save Row Op}, good save.before →
    attempt save.op save.before save.before = some save.after → view.Grants save →
    view.token save.after = view.token save.before + 1
  other : ∀ {save : Save Row Op}, good save.before →
    attempt save.op save.before save.before = some save.after → ¬view.Grants save →
    view.token save.after = view.token save.before ∧ view.lease save.after = none
  reported : ∀ {save : Save Row Op} {token : Nat} {now : Time}, good save.before →
    attempt save.op save.before save.before = some save.after →
    view.report save.op = some (token, now) → view.token save.before = token ∧
      (∃ until_, view.lease save.before = some until_ ∧ now < until_) ∧ ¬view.Grants save

/-- Tokens fence: of two saves in order, a second lease has a larger token, a second
report has another token, and a report has no smaller token than a lease before it. Every
report is under a lease that was granted before and had not ended yet. -/
structure Fenced [LT Time] (view : View Row Op Time) (saves : List (Save Row Op)) : Prop where
  fresh : ∀ save ∈ saves, view.Grants save → view.token save.before < view.token save.after
  increasing : ∀ early one between two late, saves = early ++ one :: (between ++ two :: late) →
    view.Grants one → view.Grants two → view.token one.after < view.token two.after
  once : ∀ early one between two late k t l u,
    saves = early ++ one :: (between ++ two :: late) → view.report one.op = some (k, t) →
    view.report two.op = some (l, u) → k ≠ l
  superseded : ∀ early one between two late k t,
    saves = early ++ one :: (between ++ two :: late) → view.Grants one →
    view.report two.op = some (k, t) → view.token one.after ≤ k
  timely : ∀ early save late k t, saves = early ++ save :: late →
    view.report save.op = some (k, t) → ∃ grant ∈ early, view.Grants grant ∧
      view.token grant.after = k ∧ ∃ until_, view.lease grant.after = some until_ ∧ t < until_

section Tokens

variable [LT Time] {view : View Row Op Time} {good : Row → Prop} {revision : Row → Nat}
  {attempt : Op → Row → Row → Option Row} {first last : Row} {saves : List (Save Row Op)}

theorem good_of_run (checked : Checked good revision attempt)
    (run : Run (Serial attempt) first saves last) (start : good first) : good last := by
  exact run.invariant (fun _ _ _ held taken => checked.keeps held taken.2.2) start

section

variable (leases : Leases view good attempt)

include leases

/-- Step lemma: a token stays behind the row, strictly while the row is leased. -/
theorem Leases.below {row after : Row} {save : Save Row Op} (taken : Serial attempt row save after)
    (held : good row) {k : Nat}
    (below : k ≤ view.token row ∧ (view.lease row ≠ none → k < view.token row)) :
    k ≤ view.token after ∧ (view.lease after ≠ none → k < view.token after) := by
  obtain ⟨rfl, rfl, accepted⟩ := taken
  by_cases grants : view.Grants save
  · have next := leases.grant held accepted grants
    exact ⟨by omega, fun _ => by omega⟩
  · obtain ⟨same, free⟩ := leases.other held accepted grants
    exact ⟨by omega, fun leased => absurd free leased⟩

variable (checked : Checked good revision attempt)

include checked

variable (run : Run (Serial attempt) first saves last)

include run

/-- Run lemma: the tokens of a row only grow, and strictly to the next lease once the row
is free. -/
theorem Leases.below_of_run (start : good first) {k : Nat}
    (below : k ≤ view.token first ∧ (view.lease first ≠ none → k < view.token first)) :
    k ≤ view.token last ∧ (view.lease last ≠ none → k < view.token last) := by
  exact run.invariant_under (fun _ _ _ held taken => checked.keeps held taken.2.2)
    (fun _ _ _ held below taken => leases.below taken held below) start below

theorem Leases.token_le_of_run (start : good first) : view.token first ≤ view.token last := by
  refine run.invariant_under (fun _ _ _ held taken => checked.keeps held taken.2.2) ?_ start
    (Nat.le_refl _)
  rintro row save after held grown ⟨rfl, rfl, accepted⟩
  refine Nat.le_trans grown ?_
  by_cases grants : view.Grants save
  · rw [leases.grant held accepted grants]
    exact Nat.le_succ _
  · exact Nat.le_of_eq (leases.other held accepted grants).1.symm

/-- A running lease was granted under the token of the row. -/
theorem Leases.granted_of_run (start : good first) (free : view.lease first = none) {until_ : Time}
    (leased : view.lease last = some until_) :
    ∃ grant ∈ saves, view.Grants grant ∧ view.token grant.after = view.token last ∧
      view.lease grant.after = some until_ := by
  have held := run.history (fun past row => good row ∧ ∀ until_, view.lease row = some until_ →
      ∃ grant ∈ past, view.Grants grant ∧ view.token grant.after = view.token row ∧
        view.lease grant.after = some until_)
    (fun past before save after held taken => ?_) ⟨start, fun _ leased => by simp [free] at leased⟩
  · exact held.2 until_ leased
  · obtain ⟨rfl, rfl, accepted⟩ := taken
    refine ⟨checked.keeps held.1 accepted, fun until_ leased => ?_⟩
    by_cases grants : view.Grants save
    · exact ⟨save, List.mem_append_right _ List.mem_cons_self, grants, rfl, leased⟩
    · have free := (leases.other held.1 accepted grants).2
      rw [leased] at free
      cases free

end

/-- The states around two saves of a run. -/
theorem around_two {early between late : List (Save Row Op)} {one two : Save Row Op}
    (checked : Checked good revision attempt) (start : good first)
    (run : Run (Serial attempt) first (early ++ one :: (between ++ two :: late)) last) :
    good one.before ∧ good two.before ∧
      attempt one.op one.before one.before = some one.after ∧
      attempt two.op two.before two.before = some two.after ∧
      Run (Serial attempt) one.after between two.before := by
  obtain ⟨_, before, rest⟩ := run.split
  obtain ⟨_, ⟨rfl, rfl, accepted⟩, rest⟩ := rest.uncons
  obtain ⟨_, middle, rest⟩ := rest.split
  obtain ⟨_, ⟨rfl, rfl, accepted'⟩, -⟩ := rest.uncons
  have held := good_of_run checked before start
  exact ⟨held, good_of_run checked middle (checked.keeps held accepted), accepted, accepted',
    middle⟩

/-- The rules of leases make tokens fence. -/
theorem fenced_of_run (leases : Leases view good attempt)
    (checked : Checked good revision attempt) (run : Run (Serial attempt) first saves last)
    (start : good first) (free : view.lease first = none) : Fenced view saves where
  fresh save member grants := by
    obtain ⟨early, late, rfl⟩ := List.append_of_mem member
    obtain ⟨reached, before, rest⟩ := run.split
    obtain ⟨next, ⟨rfl, rfl, accepted⟩, -⟩ := rest.uncons
    rw [leases.grant (good_of_run checked before start) accepted grants]
    exact Nat.lt_succ_self _
  increasing := by
    rintro early one between two late rfl first second
    obtain ⟨held, held', accepted, accepted', middle⟩ := around_two checked start run
    have grown := leases.token_le_of_run checked middle (checked.keeps held accepted)
    rw [leases.grant held' accepted' second]
    omega
  once := by
    rintro early one between two late k t l u rfl first second
    obtain ⟨held, held', accepted, accepted', middle⟩ := around_two checked start run
    obtain ⟨same, -, other⟩ := leases.reported held accepted first
    obtain ⟨same', ⟨until_, leased, -⟩, -⟩ := leases.reported held' accepted' second
    obtain ⟨kept, free⟩ := leases.other held accepted other
    -- The first report leaves a free row, so the next lease has a larger token.
    have below := leases.below_of_run checked middle (checked.keeps held accepted)
      (k := k) ⟨by omega, fun leased => absurd free leased⟩
    have larger := below.2 (by simp [leased])
    omega
  superseded := by
    rintro early one between two late k t rfl first second
    obtain ⟨held, held', accepted, accepted', middle⟩ := around_two checked start run
    have grown := leases.token_le_of_run checked middle (checked.keeps held accepted)
    rw [← (leases.reported held' accepted' second).1]
    exact grown
  timely := by
    rintro early save late k t rfl reports
    obtain ⟨_, before, rest⟩ := run.split
    obtain ⟨_, ⟨rfl, rfl, accepted⟩, -⟩ := rest.uncons
    have held := good_of_run checked before start
    obtain ⟨rfl, ⟨until_, leased, early⟩, -⟩ := leases.reported held accepted reports
    obtain ⟨grant, member, grants, same, ends⟩ :=
      leases.granted_of_run checked before start free leased
    exact ⟨grant, member, grants, same, until_, ends, early⟩

end Tokens

end Biz.Fencing
