import Biz.CapabilityMap.Closure
import Biz.CapabilityMap.Inventory

/-!
# Compiled documents

What an accepted compilation emits, in terms of the document alone: its operations are the
planned ones in the order of their ids, no operation calls itself through others, and the
capabilities of an operation are those of the operations that it always reaches.
-/

namespace Biz.CapabilityMap

open Checks

/-- An operation may call another. -/
def Document.Calls (d : Document) (a b : String) : Prop :=
  ∃ o ∈ d.operations, o.operationId = a ∧ ∃ child ∈ o.children, child.operationId = b

/-- An operation calls another on every path. -/
def Document.AlwaysCalls (d : Document) (a b : String) : Prop :=
  ∃ o ∈ d.operations, o.operationId = a ∧
    ∃ child ∈ o.children, child.mode = .always ∧ child.operationId = b

/-- A document that was emitted from entries. -/
structure Built (entries : Entries) (ids : List String) (d : Document) : Prop where
  all : ∀ id, entries id ≠ none → id ∈ ids
  known : ∀ id ∈ ids, ∃ entry, entries id = some entry ∧ entry.operationId = id
  ordered : ids.Pairwise (· < ·)
  graph : validateGraph entries ids = .ok ()
  operations : d.operations = ids.map (emitted entries)
  closures : ∀ id ∈ ids, Exact entries id (closure entries id)

section Operations

variable {entries : Entries} {ids : List String} {d : Document}

variable (built : Built entries ids d)

include built

theorem Built.emitted_eq {id : String} (listed : id ∈ ids) :
    ∃ entry, entries id = some entry ∧ (emitted entries id).operationId = id ∧
      emitted entries id = { entry with alwaysRequiredCapabilityCodes := closure entries id } := by
  obtain ⟨entry, known, here⟩ := built.known id listed
  exact ⟨entry, known, by simp [emitted, known, here], by simp [emitted, known]⟩

theorem Built.ids_eq : d.operations.map (·.operationId) = ids := by
  rw [built.operations, List.map_map]
  refine (List.map_congr_left fun id listed => ?_).trans (List.map_id ids)
  obtain ⟨_, -, here, -⟩ := built.emitted_eq listed
  exact here

/-- An operation of the document: its entry, with an exact closure. -/
theorem Built.of_mem {o : CompiledOperation} (member : o ∈ d.operations) :
    ∃ entry, entries o.operationId = some entry ∧
      Exact entries o.operationId o.alwaysRequiredCapabilityCodes ∧
      o = { entry with alwaysRequiredCapabilityCodes := o.alwaysRequiredCapabilityCodes } := by
  rw [built.operations, List.mem_map] at member
  obtain ⟨id, listed, rfl⟩ := member
  obtain ⟨entry, known, here, same⟩ := built.emitted_eq listed
  have codes : (emitted entries id).alwaysRequiredCapabilityCodes = closure entries id := rfl
  rw [here, codes]
  exact ⟨entry, known, built.closures id listed, same⟩

/-- Every entry is an operation of the document. -/
theorem Built.exists_mem {id : String} {entry : CompiledOperation}
    (known : entries id = some entry) :
    ∃ o ∈ d.operations, o.operationId = id ∧
      o = { entry with alwaysRequiredCapabilityCodes := o.alwaysRequiredCapabilityCodes } := by
  have listed : id ∈ ids := built.all id (by simp [known])
  obtain ⟨_, known', here, same⟩ := built.emitted_eq listed
  rw [known, Option.some.injEq] at known'
  subst known'
  exact ⟨emitted entries id, built.operations ▸ List.mem_map_of_mem listed, here, same⟩

theorem Built.calls_iff {a b : String} :
    d.Calls a b ↔ ∃ others, successors entries a = some others ∧ b ∈ others := by
  constructor
  · rintro ⟨o, member, rfl, child, listed, rfl⟩
    obtain ⟨_, known, -, same⟩ := built.of_mem member
    rw [same] at listed
    exact ⟨_, by simp [successors, known], List.mem_map_of_mem listed⟩
  · rintro ⟨_, listed, member⟩
    obtain ⟨_, known, rfl⟩ := Option.map_eq_some_iff.mp listed
    obtain ⟨child, inside, rfl⟩ := List.mem_map.mp member
    obtain ⟨o, present, here, same⟩ := built.exists_mem known
    exact ⟨o, present, here, child, by rw [same]; exact inside, rfl⟩

theorem Built.alwaysCalls_iff {a b : String} : d.AlwaysCalls a b ↔ b ∈ alwaysOf entries a := by
  constructor
  · rintro ⟨o, member, rfl, child, listed, always, rfl⟩
    obtain ⟨entry, known, -, same⟩ := built.of_mem member
    rw [same] at listed
    simp only [alwaysOf, known, Option.getD_some, List.mem_map, List.mem_filter]
    exact ⟨child, ⟨listed, by simpa using always⟩, rfl⟩
  · intro called
    cases known : entries a with
    | none => simp [alwaysOf, known, CompiledOperation.zero] at called
    | some entry =>
      simp only [alwaysOf, known, Option.getD_some, List.mem_map, List.mem_filter] at called
      obtain ⟨child, ⟨listed, always⟩, rfl⟩ := called
      obtain ⟨o, present, here, same⟩ := built.exists_mem known
      exact ⟨o, present, here, child, by rw [same]; exact listed, by simpa using always, rfl⟩

/-- No operation calls itself, directly or through others. -/
theorem Built.acyclic (id : String) : ¬Relation.TransGen d.Calls id id := by
  obtain ⟨_, topological, -, covers⟩ := order_of_validateGraph built.all built.graph
  have wellFounded := topological.wellFounded covers
  intro cycle
  have back : Relation.TransGen
      (fun s node => ∃ others, successors entries node = some others ∧ s ∈ others) id id := by
    refine Relation.transGen_swap.mp (Relation.TransGen.mono (fun a b called => ?_) id id cycle)
    exact built.calls_iff.mp called
  exact wellFounded.transGen.asymmetric id id back back

/-- What an operation needs, in terms of the document. -/
theorem Built.needs_iff {id code : String} :
    Needs entries id code ↔ ∃ o ∈ d.operations,
      Relation.ReflTransGen d.AlwaysCalls id o.operationId ∧ code ∈ o.requiredCapabilityCodes := by
  have edges : d.AlwaysCalls = fun a b => b ∈ alwaysOf entries a := by
    funext a b
    exact propext built.alwaysCalls_iff
  rw [edges]
  constructor
  · rintro ⟨reached, path, required⟩
    cases known : entries reached with
    | none => simp [requiredOf, known, CompiledOperation.zero] at required
    | some entry =>
      obtain ⟨o, present, here, same⟩ := built.exists_mem known
      rw [requiredOf, known, Option.getD_some] at required
      exact ⟨o, present, here ▸ path, by rw [same]; exact required⟩
  · rintro ⟨o, member, path, required⟩
    obtain ⟨_, known, -, same⟩ := built.of_mem member
    rw [same] at required
    exact ⟨o.operationId, path, by rw [requiredOf, known]; exact required⟩

end Operations

section Compilation

variable {plans : Plans} {manifest : Manifest} {declaration : Declaration}
  {lookup : Option LookupModule} {d : Document}

/-- The entries of an inventory: those of valid mappings for planned operations. -/
theorem entry_of_inventory {look : LookupModule} {ops : List Operation}
    {entries : List CompiledOperation} {owners : List Capability}
    (listed : inventory plans manifest declaration look = .ok (ops, entries, owners)) :
    ops = plans.operations ∧ (plans.operations.map (·.id)).Nodup ∧
      (∀ id, entryOf entries id ≠ none → id ∈ sorted (plans.operations.map (·.id))) ∧
      ∀ id entry, entryOf entries id = some entry → entry.operationId = id := by
  obtain ⟨plan, -, -, declared⟩ := inventory_ok.mp listed
  obtain ⟨-, distinct, rfl⟩ := addOperations_ok.mp plan
  obtain ⟨-, -, rfl, -⟩ := declare_ok.mp declared
  refine ⟨rfl, distinct, fun id known => ?_, fun id entry known => (entryOf_some known).2⟩
  obtain ⟨_, found⟩ := Option.ne_none_iff_exists'.mp known
  obtain ⟨member, rfl⟩ := entryOf_some found
  obtain ⟨m, -, made⟩ := List.mem_filterMap.mp member
  obtain ⟨op, plan, rfl⟩ := Option.map_eq_some_iff.mp made
  obtain ⟨member, same⟩ := planned_some plan
  exact mem_sorted.mpr (same ▸ List.mem_map_of_mem member)

/-- An accepted compilation emits a document that is built from valid mappings. -/
theorem built_of_compile (accepted : compile plans manifest declaration lookup = .ok d) :
    ∃ entries, Built entries (sorted (plans.operations.map (·.id))) d := by
  obtain ⟨-, -, -, _, _, entries, _, operations, memo, -, listed, classified, -, graph,
    emitted, rfl⟩ := compile_ok.mp accepted
  obtain ⟨rfl, distinct, all, made⟩ := entry_of_inventory listed
  refine ⟨entryOf entries, ?_⟩
  obtain ⟨operations, closures⟩ := emit_exact _ [] operations [] memo
    (fun _ _ known => by cases known)
    emitted
  refine ⟨all, fun id member => ?_, sorted_pairwise distinct, graph, operations, closures⟩
  obtain ⟨entry, found⟩ := Option.ne_none_iff_exists'.mp (classified id member)
  exact ⟨entry, found, made id entry found⟩

section Fuel

variable {α β : Type}

theorem bind_ne_exhausted {x : Except CompileErr α} {f : α → Except CompileErr β}
    (first : x ≠ .error .exhausted) (later : ∀ value, x = .ok value → f value ≠ .error .exhausted) :
    (x >>= f) ≠ .error .exhausted := by
  intro spent
  rcases bind_error.mp spent with here | ⟨value, done, there⟩
  · exact first here
  · exact later value done there

theorem problem_ne_exhausted {x : Except Problem α} :
    x.mapError CompileErr.problem ≠ .error .exhausted := by
  cases x <;> simp [Except.mapError]

theorem require_ne_exhausted {p : Problem} {condition : Prop} [Decidable condition] :
    require (CompileErr.problem p) condition ≠ .error .exhausted := by
  simp [require_error]

end Fuel

/-- A compilation does not run out of fuel: it fails with a problem. -/
theorem compile_ne_exhausted : compile plans manifest declaration lookup ≠ .error .exhausted := by
  refine bind_ne_exhausted require_ne_exhausted fun _ _ => ?_
  refine bind_ne_exhausted problem_ne_exhausted fun _ _ => ?_
  refine bind_ne_exhausted (by cases lookup <;> simp [found]) fun look _ => ?_
  refine bind_ne_exhausted require_ne_exhausted fun _ _ => ?_
  refine bind_ne_exhausted problem_ne_exhausted fun inventory listed => ?_
  obtain ⟨_, _, _⟩ := inventory
  obtain ⟨rfl, -, all, -⟩ := entry_of_inventory (mapError_ok.mp listed)
  refine bind_ne_exhausted problem_ne_exhausted fun _ _ => ?_
  refine bind_ne_exhausted problem_ne_exhausted fun _ _ => ?_
  refine bind_ne_exhausted (validateGraph_ne_exhausted all) fun _ graph => ?_
  obtain ⟨_, topological, short, covers⟩ := order_of_validateGraph all graph
  obtain ⟨_, emitted⟩ := emit_total topological covers (Nat.lt_succ_of_le short)
    (sorted (plans.operations.map (·.id))) ([], [])
  rw [emitted]
  exact bind_ne_exhausted (by simp) fun _ _ => by simp [pure, Except.pure]

end Compilation

end Biz.CapabilityMap
