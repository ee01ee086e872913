import Mathlib

/-!
# Half-open windows

A window of a linear order has a first element and possibly an end, which is no longer
inside. A window that ends at or before its start is empty. Two windows share an element
exactly when neither is empty and each starts before the other ends, so a comparison of
starts and ends decides about every element at once.
-/

namespace Biz

universe u

structure Window (Time : Type u) where
  start : Time
  stop : Option Time

namespace Window

variable {Time : Type u} [LinearOrder Time]

def Has (window : Window Time) (t : Time) : Prop :=
  window.start ≤ t ∧ ∀ stop ∈ window.stop, t < stop

def Inhabited (window : Window Time) : Prop := ∀ stop ∈ window.stop, window.start < stop

/-- A window starts before another one ends. -/
def Meets (window other : Window Time) : Prop := ∀ stop ∈ other.stop, window.start < stop

theorem Has.inhabited {window : Window Time} {t : Time} (inside : window.Has t) :
    window.Inhabited :=
  fun stop ends => inside.1.trans_lt (inside.2 stop ends)

theorem Has.meets {window other : Window Time} {t : Time} (inside : window.Has t)
    (also : other.Has t) : window.Meets other :=
  fun stop ends => inside.1.trans_lt (also.2 stop ends)

/-- Two windows share an element exactly when neither is empty and each starts before
the other ends. Proof: the later of the two starts is inside both. -/
theorem exists_common_iff {window other : Window Time} :
    (∃ t, window.Has t ∧ other.Has t) ↔
      window.Inhabited ∧ other.Inhabited ∧ window.Meets other ∧ other.Meets window := by
  constructor
  · rintro ⟨t, inside, also⟩
    exact ⟨inside.inhabited, also.inhabited, inside.meets also, also.meets inside⟩
  · rintro ⟨own, others, before, after⟩
    refine ⟨max window.start other.start, ⟨le_max_left _ _, ?_⟩, le_max_right _ _, ?_⟩
    · exact fun stop ends => max_lt (own stop ends) (after stop ends)
    · exact fun stop ends => max_lt (before stop ends) (others stop ends)

end Window

end Biz
