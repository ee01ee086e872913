import Mathlib

/-!
# Early returns

A function that returns at its first failing check is written in `Except` with
`require`. The lemmas take a successful result apart again: a bind succeeds when
both parts do, and a check succeeds when its condition holds.
-/

namespace Biz.Checks

universe u v w
variable {ε : Type u} {α β : Type v} {check : α → Except ε PUnit} {items : List α} {x : Except ε α}
  {condition : Prop} {error : ε}

/-- Return the error unless the condition holds. -/
def require (error : ε) (condition : Prop) [Decidable condition] : Except ε Unit :=
  if condition then .ok () else .error error

/-- The value of an optional, or the error when there is none. -/
def found (error : ε) : Option α → Except ε α
  | some value => .ok value
  | none => .error error

@[simp] theorem require_ok [Decidable condition] {u : Unit} :
    require error condition = .ok u ↔ condition := by
  unfold require
  split <;> simp_all

@[simp] theorem found_ok {o : Option α} {value : α} :
    found error o = .ok value ↔ o = some value := by
  cases o <;> simp [found]

variable {f : α → Except ε β}

@[simp] theorem bind_ok {result : β} :
    (x >>= f) = .ok result ↔ ∃ value, x = .ok value ∧ f value = .ok result := by
  cases x <;> simp [bind, Except.bind]

@[simp] theorem pure_ok {value result : α} :
    (pure value : Except ε α) = .ok result ↔ value = result := by
  simp [pure, Except.pure]

theorem require_pos [Decidable condition] (holds : condition) : require error condition = .ok () :=
  if_pos holds

theorem require_neg [Decidable condition] (fails : ¬condition) :
    require error condition = .error error := if_neg fails

theorem require_error {error failure : ε} [Decidable condition] :
    require error condition = .error failure ↔ ¬condition ∧ error = failure := by
  unfold require
  split <;> simp_all

theorem bind_error {failure : ε} : (x >>= f) = .error failure ↔
      x = .error failure ∨ ∃ value, x = .ok value ∧ f value = .error failure := by
  cases x <;> simp [bind, Except.bind]

theorem ok_bind (value : α) (f : α → Except ε β) : (Except.ok value >>= f) = f value := rfl

theorem error_bind (error : ε) (f : α → Except ε β) :
    ((.error error : Except ε α) >>= f) = .error error := rfl

/-- Passing an error on under another name does not change what succeeds. -/
@[simp] theorem mapError_ok {ε' : Type w} {wrap : ε → ε'} {result : α} :
    x.mapError wrap = .ok result ↔ x = .ok result := by
  cases x <;> simp [Except.mapError]

theorem toOption_some {value : α} : x.toOption = some value ↔ x = .ok value := by
  cases x <;> simp [Except.toOption]

/-- A computed test of a result shows that there is one. -/
theorem ok_of_any {test : α → Bool} (passed : x.toOption.any test = true) :
    ∃ value, x = .ok value ∧ test value = true := by
  cases x with
  | error _ => cases passed
  | ok value => exact ⟨value, rfl, passed⟩

/-- Two continuations that agree on the value of a computation. -/
theorem bind_congr_ok {f g : α → Except ε β} (agree : ∀ value, x = .ok value → f value = g value) :
    (x >>= f) = x >>= g := by
  cases x with
  | error _ => rfl
  | ok value => exact agree value rfl

theorem exists_bind_ok (first : ∃ value, x = .ok value)
    (later : ∀ value, ∃ result, f value = .ok result) : ∃ result, (x >>= f) = .ok result := by
  obtain ⟨value, rfl⟩ := first
  exact later value

/-- A loop in which every round succeeds. -/
theorem exists_foldlM_ok {f : β → α → Except ε β}
    (each : ∀ item ∈ items, ∀ state, ∃ next, f state item = .ok next) (state : β) :
    ∃ result, items.foldlM f state = .ok result := by
  induction items generalizing state with
  | nil => exact ⟨state, rfl⟩
  | cons item rest ih =>
    obtain ⟨first, others⟩ := List.forall_mem_cons.mp each
    exact exists_bind_ok (first state) (ih others)

section

variable {f : α → Except ε β} {out : List β}

/-- A loop in which every step succeeds. -/
theorem mapM_ok {g : α → β} (each : ∀ item ∈ items, f item = .ok (g item)) :
    items.mapM f = .ok (items.map g) := by
  induction items with
  | nil => rfl
  | cons item rest ih =>
    have later := ih fun other member => each other (List.mem_cons_of_mem _ member)
    rw [List.mapM_cons, each item List.mem_cons_self, later]
    rfl

/-- What a loop has done whose steps, where they succeed, compute a function. -/
theorem mapM_inv {g : α → β} (computes : ∀ item result, f item = .ok result → result = g item)
    (done : items.mapM f = .ok out) :
    (∀ item ∈ items, f item = .ok (g item)) ∧ out = items.map g := by
  induction items generalizing out with
  | nil =>
    cases done
    simp
  | cons item rest ih =>
    simp only [List.mapM_cons, bind_ok, pure_ok] at done
    obtain ⟨first, here, _, loop, rfl⟩ := done
    obtain ⟨each, rfl⟩ := ih loop
    have value := computes item first here
    exact ⟨List.forall_mem_cons.mpr ⟨value ▸ here, each⟩, by rw [value, List.map_cons]⟩

/-- What a loop has collected: what its steps return. -/
theorem mem_of_mapM (done : items.mapM f = .ok out) (result : β) :
    result ∈ out ↔ ∃ item ∈ items, f item = .ok result := by
  induction items generalizing out with
  | nil =>
    cases done
    simp
  | cons item rest ih =>
    simp only [List.mapM_cons, bind_ok, pure_ok] at done
    obtain ⟨_, here, _, loop, rfl⟩ := done
    simp [ih loop, here, eq_comm]

/-- A loop fails exactly when one of its steps does. -/
theorem exists_mapM_ok :
    (∃ out, items.mapM f = .ok out) ↔ ∀ item ∈ items, ∃ result, f item = .ok result := by
  induction items with
  | nil => exact iff_of_true ⟨[], rfl⟩ (by simp)
  | cons item rest ih =>
    simp only [List.mapM_cons, bind_ok, pure_ok, List.forall_mem_cons, ← ih]
    constructor
    · rintro ⟨_, first, here, later, loop, rfl⟩
      exact ⟨⟨first, here⟩, later, loop⟩
    · rintro ⟨⟨first, here⟩, later, loop⟩
      exact ⟨_, first, here, later, loop, rfl⟩

/-- A field that a loop copies. -/
theorem map_eq_of_mapM {γ : Type w} {old : α → γ} {new : β → γ}
    (copies : ∀ item result, f item = .ok result → new result = old item)
    (done : items.mapM f = .ok out) : out.map new = items.map old := by
  induction items generalizing out with
  | nil =>
    cases done
    rfl
  | cons item rest ih =>
    simp only [List.mapM_cons, bind_ok, pure_ok] at done
    obtain ⟨first, here, _, loop, rfl⟩ := done
    rw [List.map_cons, List.map_cons, copies item first here, ih loop]

end

/-- A loop of checks succeeds exactly when each of them does. -/
theorem forM_ok : items.forM check = .ok ⟨⟩ ↔ ∀ item ∈ items, check item = .ok ⟨⟩ := by
  induction items with
  | nil => exact iff_of_true rfl (by simp)
  | cons item rest ih =>
    simp only [List.forM, bind_ok, List.forall_mem_cons, ← ih]
    exact ⟨fun ⟨_, here, later⟩ => ⟨here, later⟩, fun ⟨here, later⟩ => ⟨_, here, later⟩⟩

/-- The error of a loop of checks is that of one of them. -/
theorem exists_of_forM_error {failure : ε} (failed : items.forM check = .error failure) :
    ∃ item ∈ items, check item = .error failure := by
  induction items with
  | nil => cases failed
  | cons item rest ih =>
    rw [List.forM, bind_error] at failed
    rcases failed with here | ⟨_, -, later⟩
    · exact ⟨item, List.mem_cons_self, here⟩
    · obtain ⟨other, member, found⟩ := ih later
      exact ⟨other, List.mem_cons_of_mem _ member, found⟩

end Biz.Checks
