import Biz.Library.Checks

/-!
# Transactions

A computation on a state that may fail. A failure keeps what was written before it:
a caller that handles the failure continues from there, and only a transaction that
ends in a failure is rolled back as a whole.

The lemmas take the result of a transaction apart, a successful one by `run_` and a
failed one by `fail_`, so that proofs never unfold the monad. `Keeps` says what a
computation leaves alone however it ends.
-/

namespace Biz.Transaction

open Checks

variable {State Failure α β : Type}

/-- Computations on a state that may fail. -/
abbrev Tx (State Failure α : Type) := EStateM Failure State α

/-- A computation that does not touch the state. -/
def check (x : Except Failure α) : Tx State Failure α := fun state =>
  match x with
  | .ok value => .ok value state
  | .error failure => .error failure state

/-- Fail unless the condition holds. -/
def demand (failure : Failure) (condition : Prop) [Decidable condition] : Tx State Failure Unit :=
  check (require failure condition)

/-- A computation that reads the state. -/
def read (f : State → Except Failure α) : Tx State Failure α := fun state => check (f state) state

/-- A computation that writes the state, or fails and leaves it as it is. -/
def write (f : State → Except Failure (α × State)) : Tx State Failure α := fun state =>
  match f state with
  | .ok (value, after) => .ok value after
  | .error failure => .error failure state

/-- The outcome of a computation as a value; a failure keeps its state. -/
def attempt (x : Tx State Failure α) : Tx State Failure (Except Failure α) := fun state =>
  match x state with
  | .ok value after => .ok (.ok value) after
  | .error failure after => .ok (.error failure) after

/-- The end of a transaction: its value and state, or the failure. -/
def commit (x : Tx State Failure α) (state : State) : Except Failure (α × State) :=
  match x state with
  | .ok value after => .ok (value, after)
  | .error failure _ => .error failure

section Lemmas

variable {state after : State} {failure error : Failure} {value : α} {result : β}
  {x : Tx State Failure α} {f : α → Tx State Failure β} {g : State → Except Failure α}
  {condition : Prop} {e : Except Failure α}

/-- A sequence succeeds if both parts do. -/
theorem run_bind : (x >>= f) state = .ok result after ↔
    ∃ value middle, x state = .ok value middle ∧ f value middle = .ok result after := by
  change EStateM.bind x f state = _ ↔ _
  unfold EStateM.bind
  cases x state with
  | ok value middle =>
    exact ⟨fun ran => ⟨value, middle, rfl, ran⟩, by rintro ⟨_, _, ⟨⟩, ran⟩; exact ran⟩
  | error failure middle => simp

/-- A sequence fails in one of its parts. -/
theorem fail_bind : (x >>= f) state = .error failure after ↔
    x state = .error failure after ∨
      ∃ value middle, x state = .ok value middle ∧ f value middle = .error failure after := by
  change EStateM.bind x f state = _ ↔ _
  unfold EStateM.bind
  cases x state with
  | ok value middle =>
    refine ⟨fun failed => .inr ⟨value, middle, rfl, failed⟩, ?_⟩
    rintro (⟨⟨⟩⟩ | ⟨_, _, ⟨⟩, failed⟩)
    exact failed
  | error failure middle => simp

/-- A value leaves the state alone. -/
theorem run_pure {other : α} : (pure value : Tx State Failure α) state = .ok other after ↔
    value = other ∧ state = after := by
  change EStateM.Result.ok value state = _ ↔ _
  simp

/-- A value does not fail. -/
theorem fail_pure : (pure value : Tx State Failure α) state = .error failure after ↔ False := by
  change EStateM.Result.ok value state = _ ↔ _
  simp

/-- A part whose value is only passed on. -/
theorem run_bind_pure {g : α → β} : (x >>= fun value => pure (g value)) state = .ok result after ↔
    ∃ value, x state = .ok value after ∧ g value = result := by
  simp only [run_bind, run_pure]
  constructor
  · rintro ⟨value, _, ran, same, rfl⟩
    exact ⟨value, ran, same⟩
  · rintro ⟨value, ran, same⟩
    exact ⟨value, after, ran, same, rfl⟩

/-- A check passes in any state. -/
theorem run_check : check e state = .ok value after ↔ e = .ok value ∧ state = after := by
  cases e <;> simp [check]

/-- A failed check keeps the state. -/
theorem fail_check : check e state = .error failure after ↔ e = .error failure ∧ state = after := by
  cases e <;> simp [check]

/-- A demand passes if its condition holds. -/
theorem run_demand [Decidable condition] {u : Unit} :
    demand error condition state = .ok u after ↔ condition ∧ state = after := by
  rw [demand, run_check, require_ok]

/-- A demand fails with its own failure. -/
theorem fail_demand [Decidable condition] :
    demand error condition state = .error failure after ↔
      ¬condition ∧ error = failure ∧ state = after := by
  rw [demand, fail_check, require]
  split <;> simp_all

/-- A read leaves the state alone. -/
theorem run_read : read g state = .ok value after ↔ g state = .ok value ∧ state = after := run_check

/-- A failed read leaves the state alone. -/
theorem fail_read :
    read g state = .error failure after ↔ g state = .error failure ∧ state = after := fail_check

/-- Steps that leave the state alone pass it on. -/
theorem run_check_bind : (check e >>= f) state = .ok result after ↔
    ∃ value, e = .ok value ∧ f value state = .ok result after := by
  rw [run_bind]
  constructor
  · rintro ⟨value, _, checked, ran⟩
    obtain ⟨passed, rfl⟩ := run_check.mp checked
    exact ⟨value, passed, ran⟩
  · rintro ⟨value, passed, ran⟩
    exact ⟨value, state, run_check.mpr ⟨passed, rfl⟩, ran⟩

/-- A read passes its state on. -/
theorem run_read_bind : (read g >>= f) state = .ok result after ↔
    ∃ value, g state = .ok value ∧ f value state = .ok result after := run_check_bind

/-- What follows a demand runs under its condition. -/
theorem run_demand_bind [Decidable condition] {f : Unit → Tx State Failure β} :
    (demand error condition >>= f) state = .ok result after ↔
      condition ∧ f () state = .ok result after := by
  rw [demand, run_check_bind]
  simp only [require_ok]
  constructor
  · rintro ⟨_, holds, ran⟩
    exact ⟨holds, ran⟩
  · rintro ⟨holds, ran⟩
    exact ⟨(), holds, ran⟩

variable {g : State → Except Failure (α × State)}

/-- A write leaves the state it computes. -/
theorem run_write : write g state = .ok value after ↔ g state = .ok (value, after) := by
  unfold write
  cases g state <;> simp [Prod.ext_iff]

/-- A failed write leaves the state alone. -/
theorem fail_write :
    write g state = .error failure after ↔ g state = .error failure ∧ state = after := by
  unfold write
  cases g state <;> simp

/-- An attempt always succeeds, with the state that its computation has left. -/
theorem run_attempt {outcome : Except Failure α} : attempt x state = .ok outcome after ↔
    (∃ value, outcome = .ok value ∧ x state = .ok value after) ∨
      ∃ failure, outcome = .error failure ∧ x state = .error failure after := by
  unfold attempt
  cases ran : x state with
  | ok value middle =>
    constructor
    · rintro ⟨⟩
      exact .inl ⟨value, rfl, rfl⟩
    · rintro (⟨_, rfl, ⟨⟩⟩ | ⟨_, _, ⟨⟩⟩)
      rfl
  | error failure middle =>
    constructor
    · rintro ⟨⟩
      exact .inr ⟨failure, rfl, rfl⟩
    · rintro (⟨_, _, ⟨⟩⟩ | ⟨_, rfl, ⟨⟩⟩)
      rfl

/-- A transaction commits what it has computed. -/
theorem commit_ok : commit x state = .ok (value, after) ↔ x state = .ok value after := by
  unfold commit
  cases x state <;> simp

end Lemmas

section Loops

variable {Item : Type} {body : Item → Tx State Failure Unit} {state after : State}

/-- A loop over nothing does nothing. -/
theorem run_forM_nil {u : Unit} :
    ([] : List Item).forM body state = .ok u after ↔ state = after := by
  simp [run_pure]

/-- A loop does the first item, then the others. -/
theorem run_forM_cons {item : Item} {rest : List Item} {u : Unit} :
    (item :: rest).forM body state = .ok u after ↔
      ∃ middle, body item state = .ok () middle ∧ rest.forM body middle = .ok u after := by
  change (body item >>= fun _ => rest.forM body) state = _ ↔ _
  rw [run_bind]
  exact ⟨fun ⟨_, middle, first, later⟩ => ⟨middle, first, later⟩,
    fun ⟨middle, first, later⟩ => ⟨(), middle, first, later⟩⟩

/-- A loop fails in one of its steps. -/
theorem exists_of_forM_fail {items : List Item} {failure : Failure}
    (failed : items.forM body state = .error failure after) :
    ∃ item ∈ items, ∃ middle, body item middle = .error failure after := by
  induction items generalizing state with
  | nil => exact (fail_pure.mp failed).elim
  | cons item rest ih =>
    rcases fail_bind.mp failed with here | ⟨_, _, -, later⟩
    · exact ⟨item, List.mem_cons_self, state, here⟩
    · obtain ⟨other, member, found⟩ := ih later
      exact ⟨other, List.mem_cons_of_mem _ member, found⟩

end Loops

section Frames

/-- Every run of a computation, successful or not, ends in a state related to its
first. -/
def Keeps (related : State → State → Prop) (x : Tx State Failure α) : Prop :=
  (∀ state value after, x state = .ok value after → related state after) ∧
    ∀ state failure after, x state = .error failure after → related state after

variable {related : State → State → Prop} {Item : Type}

section

variable [Std.Refl related]

/-- A value keeps every reflexive relation. -/
theorem Keeps.pure (value : α) : Keeps related (pure value : Tx State Failure α) :=
  ⟨fun state _ _ ran => (run_pure.mp ran).2 ▸ Std.Refl.refl state,
    fun _ _ _ failed => (fail_pure.mp failed).elim⟩

/-- So does a check. -/
theorem Keeps.check (x : Except Failure α) : Keeps related (check x : Tx State Failure α) :=
  ⟨fun state _ _ ran => (run_check.mp ran).2 ▸ Std.Refl.refl state,
    fun state _ _ failed => (fail_check.mp failed).2 ▸ Std.Refl.refl state⟩

/-- So does a demand. -/
theorem Keeps.demand (failure : Failure) (condition : Prop) [Decidable condition] :
    Keeps related (demand failure condition : Tx State Failure Unit) :=
  Keeps.check _

/-- So does a read. -/
theorem Keeps.read (f : State → Except Failure α) : Keeps related (read f) :=
  ⟨fun state _ _ ran => (run_read.mp ran).2 ▸ Std.Refl.refl state,
    fun state _ _ failed => (fail_read.mp failed).2 ▸ Std.Refl.refl state⟩

/-- A write keeps what its function keeps. -/
theorem Keeps.write {f : State → Except Failure (α × State)}
    (writes : ∀ state value after, f state = .ok (value, after) → related state after) :
    Keeps related (write f) :=
  ⟨fun state value after ran => writes state value after (run_write.mp ran),
    fun state _ _ failed => (fail_write.mp failed).2 ▸ Std.Refl.refl state⟩

end

variable [Trans related related related]

/-- A sequence keeps what its parts keep. -/
theorem Keeps.bind {x : Tx State Failure α} {f : α → Tx State Failure β}
    (first : Keeps related x) (rest : ∀ value, Keeps related (f value)) :
    Keeps related (x >>= f) := by
  constructor
  · intro state result after ran
    obtain ⟨value, _, early, later⟩ := run_bind.mp ran
    exact Trans.trans (first.1 _ _ _ early) ((rest value).1 _ _ _ later)
  · intro state failure after failed
    rcases fail_bind.mp failed with early | ⟨value, _, early, later⟩
    · exact first.2 _ _ _ early
    · exact Trans.trans (first.1 _ _ _ early) ((rest value).2 _ _ _ later)

/-- A loop keeps what its body keeps. -/
theorem Keeps.forM [Std.Refl related] {body : Item → Tx State Failure Unit}
    (each : ∀ item, Keeps related (body item)) (items : List Item) :
    Keeps related (items.forM body) := by
  induction items with
  | nil => exact Keeps.pure _
  | cons item rest ih =>
    exact Keeps.bind (each item) fun _ => ih

end Frames

end Biz.Transaction
