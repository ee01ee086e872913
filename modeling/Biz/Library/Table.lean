import Mathlib

/-!
# Tables with a primary key

The rows of a table in insertion order, with a proof that no two rows have the
same key, so that a table with a duplicated key cannot be built. Insertion fails
on a key that is present, an update by key keeps the keys, and a lookup by key
determines the table up to the order of its rows.
-/

namespace Biz

universe u v

/-- Rows whose keys are distinct. -/
structure Table {Key : Type u} {Row : Type v} (key : Row → Key) where
  rows : List Row
  unique : (rows.map key).Nodup

namespace Table

variable {Key : Type u} {Row : Type v} {key : Row → Key} {row : Row} {table : Table key}

def empty : Table key := ⟨[], List.nodup_nil⟩

/-- Deletion of the rows that do not meet a condition. -/
def keep (table : Table key) (condition : Row → Bool) : Table key :=
  ⟨table.rows.filter condition, table.unique.sublist (List.filter_sublist.map key)⟩

variable [DecidableEq Key]

/-- The row with a key. -/
def find? (table : Table key) (k : Key) : Option Row :=
  table.rows.find? fun row => key row = k

/-- Insertion; it fails when the key is taken. -/
def insert? (table : Table key) (row : Row) : Option (Table key) :=
  if absent : key row ∉ table.rows.map key then
    some ⟨table.rows ++ [row], by
      rw [List.map_append]
      exact List.nodup_append'.mpr ⟨table.unique, List.nodup_singleton _, by simpa using absent⟩⟩
  else none

/-- A change of the row with a key, other than of the key itself. -/
def update (table : Table key) (k : Key) (change : Row → Row)
    (keeps : ∀ row, key (change row) = key row) : Table key :=
  ⟨table.rows.map fun row => if key row = k then change row else row, by
    have same : (table.rows.map fun row => if key row = k then change row else row).map key =
        table.rows.map key := by
      rw [List.map_map]
      refine List.map_congr_left fun row _ => ?_
      simp only [Function.comp]
      split
      · exact keeps row
      · rfl
    rw [same]
    exact table.unique⟩

theorem find?_eq_none {k : Key} : table.find? k = none ↔ ∀ row ∈ table.rows, key row ≠ k := by
  simp [find?, List.find?_eq_none]

theorem find?_eq_some {k : Key} : table.find? k = some row ↔ row ∈ table.rows ∧ key row = k := by
  have listed : ∀ other, table.find? k = some other → other ∈ table.rows ∧ key other = k :=
    fun other found => ⟨List.mem_of_find?_eq_some found, by simpa using List.find?_some found⟩
  refine ⟨listed row, fun ⟨member, same⟩ => ?_⟩
  cases found : table.find? k with
  | none => exact absurd same (find?_eq_none.mp found row member)
  | some other =>
    obtain ⟨stored, equal⟩ := listed other found
    exact congrArg some
      (List.inj_on_of_nodup_map table.unique stored member (equal.trans same.symm))

theorem key_of_find? {k : Key} (found : table.find? k = some row) : key row = k :=
  (find?_eq_some.mp found).2

@[simp] theorem find?_empty (k : Key) : (empty : Table key).find? k = none := rfl

/-- Insertion succeeds exactly when the key is free. -/
theorem insert?_eq_some {after : Table key} (inserted : table.insert? row = some after) :
    table.find? (key row) = none ∧ after.rows = table.rows ++ [row] := by
  unfold insert? at inserted
  split at inserted
  · rename_i absent
    cases inserted
    refine ⟨find?_eq_none.mpr fun other member same => absent ?_, rfl⟩
    exact List.mem_map.mpr ⟨other, member, same⟩
  · cases inserted

theorem insert?_eq_none (refused : table.insert? row = none) :
    ∃ other, table.find? (key row) = some other := by
  unfold insert? at refused
  split at refused
  · cases refused
  · rename_i taken
    obtain ⟨other, member, same⟩ := List.mem_map.mp (Decidable.not_not.mp taken)
    exact ⟨other, find?_eq_some.mpr ⟨member, same⟩⟩

/-- What a lookup finds after an insertion. -/
theorem find?_of_insert? {after : Table key} (inserted : table.insert? row = some after)
    (k : Key) : after.find? k = if k = key row then some row else table.find? k := by
  obtain ⟨absent, rows⟩ := insert?_eq_some inserted
  have appended : after.find? k = (table.find? k).or ([row].find? fun row => key row = k) := by
    simp only [find?, rows, List.find?_append]
  rw [appended]
  by_cases same : k = key row
  · subst same
    simp [absent]
  · have other : ¬ key row = k := fun equal => same equal.symm
    cases table.find? k <;> simp [same, other]

/-- What a lookup finds after an update. -/
theorem find?_update (table : Table key) (k j : Key) (change : Row → Row)
    (keeps : ∀ row, key (change row) = key row) :
    (table.update k change keeps).find? j =
      if j = k then (table.find? k).map change else table.find? j := by
  cases found : table.find? j with
  | none =>
    have missing : (table.update k change keeps).find? j = none := by
      rw [find?_eq_none] at found ⊢
      intro row member
      obtain ⟨old, stored, rfl⟩ := List.mem_map.mp member
      split
      · rw [keeps]; exact found old stored
      · exact found old stored
    rw [missing]
    by_cases same : j = k
    · subst same; simp [found]
    · simp [same]
  | some row =>
    obtain ⟨member, rfl⟩ := find?_eq_some.mp found
    by_cases same : key row = k
    · subst same
      rw [if_pos rfl, found, Option.map_some, find?_eq_some]
      exact ⟨List.mem_map.mpr ⟨row, member, if_pos rfl⟩, keeps row⟩
    · rw [if_neg same, find?_eq_some]
      exact ⟨List.mem_map.mpr ⟨row, member, if_neg same⟩, rfl⟩

/-- What a lookup finds after a deletion. -/
theorem find?_keep (table : Table key) (condition : Row → Bool) (k : Key) :
    (table.keep condition).find? k = (table.find? k).filter condition := by
  refine Option.ext fun row => ?_
  rw [Option.filter_eq_some_iff, find?_eq_some, find?_eq_some, keep, List.mem_filter]
  tauto

/-- An update that leaves its row as it is changes no lookup. -/
theorem find?_update_of_fixed {k : Key} {change : Row → Row}
    (keeps : ∀ row, key (change row) = key row) (found : table.find? k = some row)
    (fixed : change row = row) (j : Key) :
    (table.update k change keeps).find? j = table.find? j := by
  rw [find?_update, found, Option.map_some, fixed]
  split
  · rename_i same
    rw [same, found]
  · rfl

end Table

end Biz
