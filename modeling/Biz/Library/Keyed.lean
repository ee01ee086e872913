import Mathlib

/-!
# Lists with distinct keys

A list whose items have distinct keys is a map: a key finds the item that has it, and no
two items share one. The order of the items is no part of it, and sorting by the key forgets
that order.
-/

namespace Biz.Keyed

variable {Item Key : Type} {items : List Item} {key : Item → Key}

theorem find?_some [DecidableEq Key] {k : Key} {item : Item}
    (found : (items.find? fun other => key other = k) = some item) :
    item ∈ items ∧ key item = k :=
  ⟨List.mem_of_find?_eq_some found, by simpa using List.find?_some found⟩

theorem find?_none [DecidableEq Key] {k : Key} :
    (items.find? fun other => key other = k) = none ↔ ∀ item ∈ items, key item ≠ k := by
  simp

/-- Keys that are new to the items and one more: new to the items, and not its key. -/
theorem find?_concat_none [DecidableEq Key] (item : Item) {Other : Type}
    {others : List Other} {named : Other → Key} :
    (∀ other ∈ others, ((items ++ [item]).find? fun earlier => key earlier = named other) = none) ↔
      (∀ other ∈ others, (items.find? fun earlier => key earlier = named other) = none) ∧
        key item ∉ others.map named := by
  simp only [find?_none, List.forall_mem_append, List.forall_mem_singleton, forall₂_and,
    List.mem_map,
    not_exists, not_and, ne_comm, ne_eq]

section Seen

variable {seen : List Key}

/-- One more key is seen: the items do not have it either. -/
theorem unseen_cons {k : Key} : (∀ item ∈ items, key item ∉ k :: seen) ↔
    k ∉ items.map key ∧ ∀ item ∈ items, key item ∉ seen := by
  simp only [List.mem_cons, not_or, forall₂_and, List.mem_map, not_exists, not_and]

/-- What a loop that remembers the keys it has seen accepts: new and distinct ones. -/
theorem fresh_cons {accepted : Item → Prop} {item : Item} :
    (((item :: items).map key).Nodup ∧
        ∀ other ∈ item :: items, key other ∉ seen ∧ accepted other) ↔
      (key item ∉ seen ∧ accepted item) ∧ (items.map key).Nodup ∧
        ∀ other ∈ items, key other ∉ key item :: seen ∧ accepted other := by
  simp only [List.map_cons, List.nodup_cons, List.forall_mem_cons, forall₂_and, unseen_cons]
  tauto

end Seen

variable (distinct : (items.map key).Nodup)

include distinct

/-- A key finds the item that has it. -/
theorem find?_of_mem [DecidableEq Key] {item : Item} (member : item ∈ items) :
    (items.find? fun other => key other = key item) = some item := by
  cases found : items.find? fun other => key other = key item with
  | none => exact absurd rfl (find?_none.mp found item member)
  | some other =>
    obtain ⟨listed, same⟩ := find?_some found
    rw [List.inj_on_of_nodup_map distinct listed member same]

/-- At most one item has a key. -/
theorem eq_nil_or_singleton {k : Key} (same : ∀ item ∈ items, key item = k) :
    items = [] ∨ ∃ item, items = [item] := by
  match items with
  | [] => exact .inl rfl
  | [item] => exact .inr ⟨item, rfl⟩
  | first :: second :: rest =>
    have equal : key first = key second :=
      (same first (by simp)).trans (same second (by simp)).symm
    simp [equal] at distinct

/-- The order of the items does not matter to a lookup. -/
theorem find?_eq_of_perm [DecidableEq Key] {others : List Item} (perm : items.Perm others)
    (k : Key) :
    (items.find? fun item => key item = k) = others.find? fun item => key item = k := by
  cases found : items.find? fun item => key item = k with
  | none =>
    symm
    exact find?_none.mpr fun item member => find?_none.mp found item (perm.mem_iff.mpr member)
  | some item =>
    obtain ⟨member, rfl⟩ := find?_some found
    exact (find?_of_mem ((perm.map key).nodup_iff.mp distinct) (perm.mem_iff.mp member)).symm

/-- Nor to the items in the order of their keys. -/
theorem insertionSort_eq_of_perm [LinearOrder Key] {others : List Item} (perm : items.Perm others) :
    (items.insertionSort fun a b => key a ≤ key b) =
      others.insertionSort fun a b => key a ≤ key b := by
  refine List.Perm.eq_of_pairwise (fun a b left right ab ba => ?_)
    (List.pairwise_insertionSort _ items) (List.pairwise_insertionSort _ others) ?_
  · have member : a ∈ items := (List.mem_insertionSort _).mp left
    have member' : b ∈ items := perm.mem_iff.mpr ((List.mem_insertionSort _).mp right)
    exact List.inj_on_of_nodup_map distinct member member' (le_antisymm ab ba)
  · exact (List.perm_insertionSort _ items).trans
      (perm.trans (List.perm_insertionSort _ others).symm)

end Biz.Keyed
