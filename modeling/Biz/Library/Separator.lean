import Mathlib

/-!
# Texts joined by a separator

A text that joins parts with a character can be taken apart again at the parts that do
not contain it: at the first separator if the part before it is free of the character,
at the last one if the part after it is.
-/

namespace Biz.Separator

section Lists

variable {α : Type} {c : α} {a b x y : List α}

theorem split_first_list (left : c ∉ a) (right : c ∉ b) (same : a ++ c :: x = b ++ c :: y) :
    a = b ∧ x = y := by
  induction a generalizing b with
  | nil =>
    cases b with
    | nil => exact ⟨rfl, by simpa using same⟩
    | cons d rest =>
      have equal : c = d := by simpa using congrArg List.head? same
      exact absurd (equal ▸ List.mem_cons_self) right
  | cons d rest ih =>
    cases b with
    | nil =>
      have equal : d = c := by simpa using congrArg List.head? same
      exact absurd (equal ▸ List.mem_cons_self) left
    | cons e others =>
      obtain ⟨rfl, tails⟩ := List.cons.inj same
      obtain ⟨rfl, ends⟩ := ih (fun member => left (List.mem_cons_of_mem _ member))
        (fun member => right (List.mem_cons_of_mem _ member)) tails
      exact ⟨rfl, ends⟩

theorem split_last_list (left : c ∉ x) (right : c ∉ y) (same : a ++ c :: x = b ++ c :: y) :
    a = b ∧ x = y := by
  have mirrored : x.reverse ++ c :: a.reverse = y.reverse ++ c :: b.reverse := by
    simpa using congrArg List.reverse same
  obtain ⟨ends, starts⟩ := split_first_list (by simpa using left) (by simpa using right) mirrored
  exact ⟨List.reverse_injective starts, List.reverse_injective ends⟩

end Lists

/-- A text without a character. -/
def Free (c : Char) (s : String) : Prop := c ∉ s.toList

instance (c : Char) (s : String) : Decidable (Free c s) :=
  inferInstanceAs (Decidable (c ∉ s.toList))

variable {c : Char} {a b x y : String}

theorem split_first (left : Free c a) (right : Free c b)
    (same : a ++ (String.singleton c ++ x) = b ++ (String.singleton c ++ y)) : a = b ∧ x = y := by
  have lists := congrArg String.toList same
  simp only [String.toList_append, String.toList_singleton, List.singleton_append] at lists
  obtain ⟨starts, ends⟩ := split_first_list left right lists
  exact ⟨String.toList_inj.mp starts, String.toList_inj.mp ends⟩

theorem split_last (left : Free c x) (right : Free c y)
    (same : a ++ (String.singleton c ++ x) = b ++ (String.singleton c ++ y)) : a = b ∧ x = y := by
  have lists := congrArg String.toList same
  simp only [String.toList_append, String.toList_singleton, List.singleton_append] at lists
  obtain ⟨starts, ends⟩ := split_last_list left right lists
  exact ⟨String.toList_inj.mp starts, String.toList_inj.mp ends⟩

end Biz.Separator
