import Biz.CapabilityMap.Compile
import Biz.Library.Search

/-!
# The graph of operations

The search of `validateGraph` is a depth-first search that also refuses children without an
entry. Where it succeeds, so does the search of the library, and the graph is ordered. The
order bounds the recursion of `alwaysClosure`, and what that returns is exact: the
capabilities of the operations that are reached through edges that are always taken. The
memo is no part of the answer, since everything it remembers is exact as well.
-/

namespace Biz.CapabilityMap

open Checks

variable {entries : Entries}

/-- The children of an operation, for the searches of the library. -/
def successors (entries : Entries) (id : String) : Option (List String) :=
  (entries id).map fun entry => entry.children.map (·.operationId)

section Search

variable {State Item : Type} {ids : List String}

/-- A search of the compiler next to one of the library: they succeed with the same result
and run out of fuel together. -/
structure Follows (ours : Except CompileErr State) (theirs : Except Search.Failure State) :
    Prop where
  ok : ∀ state, ours = .ok state → theirs = .ok state
  exhausted : ours = .error .exhausted → theirs = .error .exhausted

theorem Follows.success (state : State) : Follows (.ok state) (.ok state) := by
  refine ⟨fun last done => ?_, fun done => ?_⟩
  · cases done
    rfl
  · cases done

/-- A problem of the compiler says nothing about the library. -/
theorem Follows.failure (problem : Problem) (theirs : Except Search.Failure State) :
    Follows (.error (.problem problem)) theirs := by
  refine ⟨fun last done => ?_, fun done => ?_⟩
  · cases done
  · cases done

theorem Follows.spent :
    Follows (.error .exhausted : Except CompileErr State) (.error .exhausted) := by
  refine ⟨fun last done => ?_, fun _ => rfl⟩
  cases done

/-- A fold of searches, and what is done with its result. -/
theorem Follows.bind {Result : Type} {ours : Except CompileErr State}
    {theirs : Except Search.Failure State} (both : Follows ours theirs)
    {next : State → Except CompileErr Result} {next' : State → Except Search.Failure Result}
    (later : ∀ state, Follows (next state) (next' state)) :
    Follows (ours >>= next) (theirs >>= next') := by
  cases first : ours with
  | ok state =>
    rw [both.ok state first]
    exact later state
  | error failure =>
    cases failure with
    | problem problem => exact .failure problem _
    | exhausted =>
      rw [both.exhausted first]
      exact .spent

theorem Follows.foldlM {ours : State → Item → Except CompileErr State}
    {theirs : State → Item → Except Search.Failure State}
    (each : ∀ state item, Follows (ours state item) (theirs state item)) (items : List Item)
    (state : State) : Follows (items.foldlM ours state) (items.foldlM theirs state) := by
  induction items generalizing state with
  | nil => exact .success state
  | cons item rest ih =>
    exact (each state item).bind ih

theorem visit_follows (fuel : Nat) (path done : List String) (id : String) :
    Follows (visit entries fuel path done id)
      (Search.visit (successors entries) fuel path done id) := by
  induction fuel generalizing path done id with
  | zero => exact .spent
  | succ fuel ih =>
    unfold visit Search.visit
    cases known : entries id with
    | none => exact .failure _ _
    | some entry =>
      have listed : successors entries id = some (entry.children.map (·.operationId)) := by
        simp [successors, known]
      simp only [listed]
      by_cases onPath : id ∈ path
      · rw [if_pos onPath]
        exact .failure _ _
      rw [if_neg onPath, if_neg onPath]
      by_cases finished : id ∈ done
      · rw [if_pos finished, if_pos finished]
        exact .success done
      rw [if_neg finished, if_neg finished]
      have inner := Follows.foldlM (ih (id :: path))
        (entry.children.map (·.operationId)) done
      have whole := inner.bind fun last => .success (last ++ [id])
      cases folded : (entry.children.map (·.operationId)).foldlM
          (Search.visit (successors entries) fuel (id :: path)) done with
      | ok last => rwa [folded] at whole
      | error failure => rwa [folded] at whole

theorem graph_follows (entries : Entries) (ids : List String) :
    Follows (ids.foldlM (visit entries (ids.length + 1) []) [])
      (Search.search (successors entries) ids) :=
  .foldlM (visit_follows (ids.length + 1) []) ids []

/-- The search for cycles does not run out of fuel. -/
theorem validateGraph_ne_exhausted (all : ∀ id, entries id ≠ none → id ∈ ids) :
    validateGraph entries ids ≠ .error .exhausted := by
  intro exhausted
  have follows := graph_follows entries ids
  rcases bind_error.mp exhausted with ran | ⟨_, -, done⟩
  · refine Search.search_not_exhausted (fun id known => all id ?_) (follows.exhausted ran)
    simpa [successors] using known
  · cases done

/-- An accepted graph is ordered. -/
theorem order_of_validateGraph (all : ∀ id, entries id ≠ none → id ∈ ids)
    (valid : validateGraph entries ids = .ok ()) :
    ∃ order, Search.Topological (successors entries) order ∧ order.length ≤ ids.length ∧
      ∀ id, successors entries id = none ∨ id ∈ order := by
  simp only [validateGraph, bind_ok] at valid
  obtain ⟨order, visited, -⟩ := valid
  have follows := graph_follows entries ids
  refine ⟨order, Search.search_ok (fun id known => all id ?_) (follows.ok order visited)⟩
  simpa [successors] using known

end Search

section Always

/-- The operations that an operation always calls. -/
def alwaysOf (entries : Entries) (id : String) : List String :=
  (((entries id).getD .zero).children.filter fun child => child.mode = .always).map (·.operationId)

def requiredOf (entries : Entries) (id : String) : List String :=
  ((entries id).getD .zero).requiredCapabilityCodes

/-- A capability that some operation needs which is always reached. -/
def Needs (entries : Entries) (id code : String) : Prop :=
  ∃ reached, Relation.ReflTransGen (fun a b => b ∈ alwaysOf entries a) id reached ∧
    code ∈ requiredOf entries reached

/-- The capabilities that an operation needs, in order. -/
structure Exact (entries : Entries) (id : String) (codes : List String) : Prop where
  ordered : codes.Pairwise (· < ·)
  needed : ∀ code, code ∈ codes ↔ Needs entries id code

theorem needs_iff {id code : String} :
    Needs entries id code ↔ code ∈ requiredOf entries id ∨
      ∃ child ∈ alwaysOf entries id, Needs entries child code := by
  constructor
  · rintro ⟨reached, path, required⟩
    cases path using Relation.ReflTransGen.head_induction_on with
    | refl => exact .inl required
    | head edge rest => exact .inr ⟨_, edge, reached, rest, required⟩
  · rintro (required | ⟨_, edge, reached, rest, required⟩)
    · exact ⟨id, .refl, required⟩
    · exact ⟨reached, .head edge rest, required⟩

@[simp] theorem mem_addCodes {set codes : List String} {code : String} :
    code ∈ addCodes set codes ↔ code ∈ set ∨ code ∈ codes := by
  induction codes generalizing set with
  | nil => simp [addCodes]
  | cons first rest ih =>
    have unfolded : addCodes set (first :: rest) = addCodes (set.insert first) rest := rfl
    rw [unfolded, ih, List.mem_insert_iff, List.mem_cons, or_comm (a := code = first),
      or_assoc]

theorem addCodes_nodup {set codes : List String} (distinct : set.Nodup) :
    (addCodes set codes).Nodup := by
  induction codes generalizing set with
  | nil => exact distinct
  | cons first rest ih => exact ih distinct.insert

/-- Distinct texts, in order. -/
theorem sorted_pairwise {values : List String} (distinct : values.Nodup) :
    (sorted values).Pairwise (· < ·) := by
  have ordered := List.pairwise_insertionSort (· ≤ ·) values
  have different : (sorted values).Nodup :=
    (List.perm_insertionSort _ values).nodup_iff.mpr distinct
  exact (ordered.and different).imp fun ⟨le, ne⟩ => lt_of_le_of_ne le ne

/-- Everything that a memo remembers is exact. -/
def Remembers (entries : Entries) (memo : Memo) : Prop :=
  ∀ id codes, memo.lookup id = some codes → Exact entries id codes

/-- The loop over the operations that are always called, for a closure that is exact. -/
theorem gather_exact {closure : String → Memo → Except CompileErr (List String × Memo)}
    (each : ∀ id memo codes memo', Remembers entries memo → closure id memo = .ok (codes, memo') →
      Exact entries id codes ∧ Remembers entries memo')
    (children set set' : List String) (memo memo' : Memo) (distinct : set.Nodup)
    (remembers : Remembers entries memo)
    (finished : (children.foldlM (fun (set, memo) child => do
      let (codes, memo) ← closure child memo
      return (addCodes set codes, memo)) (set, memo)) = .ok (set', memo')) :
    set'.Nodup ∧ Remembers entries memo' ∧
      ∀ code, code ∈ set' ↔ code ∈ set ∨ ∃ child ∈ children, Needs entries child code := by
  induction children generalizing set memo with
  | nil =>
    cases finished
    exact ⟨distinct, remembers, by simp⟩
  | cons child rest ih =>
    simp only [List.foldlM_cons, bind_ok, pure_ok] at finished
    obtain ⟨_, ⟨⟨codes, middle⟩, closed, rfl⟩, finished⟩ := finished
    obtain ⟨exact', remembers'⟩ := each child memo codes middle remembers closed
    obtain ⟨distinct', last, members⟩ :=
      ih (addCodes set codes) middle (addCodes_nodup distinct) remembers' finished
    refine ⟨distinct', last, fun code => ?_⟩
    rw [members, mem_addCodes, exact'.needed, or_assoc, List.exists_mem_cons_iff]

/-- A closure is exact, whatever exact answers are remembered before it. Proof: by induction
on the fuel; a new answer joins the exact answers of the children. -/
theorem alwaysClosure_exact (fuel : Nat) (id : String) (memo memo' : Memo) (codes : List String)
    (remembers : Remembers entries memo)
    (closed : alwaysClosure entries fuel id memo = .ok (codes, memo')) :
    Exact entries id codes ∧ Remembers entries memo' := by
  induction fuel generalizing id memo memo' codes with
  | zero => cases closed
  | succ fuel ih =>
    unfold alwaysClosure at closed
    split at closed
    · rename_i previous known
      cases closed
      exact ⟨remembers id codes known, remembers⟩
    · simp only [bind_ok, pure_ok] at closed
      obtain ⟨⟨set, middle⟩, gathered, same⟩ := closed
      cases same
      obtain ⟨distinct, remembers', members⟩ := gather_exact (fun id memo codes memo' =>
        ih id memo memo' codes) _ _ _ _ _ (addCodes_nodup List.nodup_nil)
        remembers gathered
      have exact' : Exact entries id (sorted set) := by
        refine ⟨sorted_pairwise distinct, fun code => ?_⟩
        rw [mem_sorted, members, needs_iff, mem_addCodes]
        simp [requiredOf, alwaysOf]
      refine ⟨exact', fun other codes known => ?_⟩
      rw [List.lookup_cons] at known
      split at known
      · rename_i same
        cases known
        rw [eq_of_beq same]
        exact exact'
      · exact remembers' other codes known

/-- The children that are always called are children. -/
theorem mem_successors_of_alwaysOf {id child : String} (called : child ∈ alwaysOf entries id) :
    ∃ others, successors entries id = some others ∧ child ∈ others := by
  cases known : entries id with
  | none => simp [alwaysOf, known, CompiledOperation.zero] at called
  | some entry =>
    refine ⟨_, by simp [successors, known]; rfl, ?_⟩
    simp only [alwaysOf, known, Option.getD_some, List.mem_map, List.mem_filter] at called
    obtain ⟨_, ⟨listed, -⟩, rfl⟩ := called
    exact List.mem_map_of_mem listed

/-- On an ordered graph a closure is computed with fuel beyond the length of the order. -/
theorem alwaysClosure_total {order : List String}
    (topological : Search.Topological (successors entries) order) (id : String)
    (known : successors entries id = none ∨ id ∈ order) (fuel : Nat) (enough : order.length < fuel)
    (memo : Memo) : ∃ result, alwaysClosure entries fuel id memo = .ok result := by
  -- One call, when the calls for its children are computed.
  have step : ∀ fuel id memo, (∀ child ∈ alwaysOf entries id, ∀ memo,
      ∃ result, alwaysClosure entries fuel child memo = .ok result) →
      ∃ result, alwaysClosure entries (fuel + 1) id memo = .ok result := by
    intro fuel id memo each
    unfold alwaysClosure
    split
    · exact ⟨_, rfl⟩
    · refine exists_bind_ok (exists_foldlM_ok (fun child called state => ?_) _) fun _ => ⟨_, rfl⟩
      exact exists_bind_ok (each child called state.2) fun _ => ⟨_, rfl⟩
  induction topological generalizing id fuel memo with
  | nil =>
    obtain ⟨fuel, rfl⟩ : ∃ n, fuel = n + 1 := ⟨fuel - 1, by omega⟩
    refine step fuel id memo fun child called => ?_
    obtain ⟨others, listed, -⟩ := mem_successors_of_alwaysOf called
    rcases known with absent | impossible
    · rw [absent] at listed
      cases listed
    · exact absurd impossible List.not_mem_nil
  | @snoc done last earlier closed ih =>
    rw [List.length_append, List.length_singleton] at enough
    obtain ⟨fuel, rfl⟩ : ∃ n, fuel = n + 1 := ⟨fuel - 1, by omega⟩
    by_cases before : successors entries id = none ∨ id ∈ done
    · exact ih id before (fuel + 1) (by omega) memo
    · have here : id = last := by
        simp only [not_or] at before
        rcases known with absent | member
        · exact absurd absent before.1
        · simpa [before.2] using member
      subst here
      refine step fuel id memo fun child called memo => ?_
      obtain ⟨others, listed, member⟩ := mem_successors_of_alwaysOf called
      exact ih child (closed others listed child member) fuel (by omega) memo

theorem Exact.eq {id : String} {codes others : List String} (left : Exact entries id codes)
    (right : Exact entries id others) : codes = others := by
  refine List.Perm.eq_of_pairwise (fun a b _ _ ab ba => absurd ba (lt_asymm ab)) left.ordered
    right.ordered ?_
  refine (List.perm_ext_iff_of_nodup ?_ ?_).mpr fun code => ?_
  · exact left.ordered.imp ne_of_lt
  · exact right.ordered.imp ne_of_lt
  · rw [left.needed, right.needed]

open Classical in
/-- The capabilities that an operation needs, as a value. -/
noncomputable def closure (entries : Entries) (id : String) : List String :=
  if exists' : ∃ codes, Exact entries id codes then exists'.choose else []

theorem Exact.closure_eq {id : String} {codes : List String} (exact' : Exact entries id codes) :
    closure entries id = codes := by
  have exists' : ∃ codes, Exact entries id codes := ⟨codes, exact'⟩
  rw [closure, dif_pos exists']
  exact exists'.choose_spec.eq exact'

/-- An emitted operation: the entry with its closure. -/
noncomputable def emitted (entries : Entries) (id : String) : CompiledOperation :=
  { (entries id).getD .zero with alwaysRequiredCapabilityCodes := closure entries id }

theorem emit_exact {fuel : Nat} (ids : List String) (out operations : List CompiledOperation)
    (memo memo' : Memo) (remembers : Remembers entries memo)
    (finished : ids.foldlM (emit entries fuel) (out, memo) = .ok (operations, memo')) :
    operations = out ++ ids.map (emitted entries) ∧
      ∀ id ∈ ids, Exact entries id (closure entries id) := by
  induction ids generalizing out memo with
  | nil =>
    cases finished
    exact ⟨by simp, by simp⟩
  | cons id rest ih =>
    simp only [List.foldlM_cons, emit, bind_ok, pure_ok] at finished
    obtain ⟨_, ⟨⟨codes, middle⟩, closed, rfl⟩, finished⟩ := finished
    obtain ⟨exact', remembers'⟩ := alwaysClosure_exact fuel id memo middle codes remembers closed
    obtain ⟨rfl, each⟩ := ih _ middle remembers' finished
    have same := exact'.closure_eq
    refine ⟨?_, List.forall_mem_cons.mpr ⟨same ▸ exact', each⟩⟩
    rw [List.append_assoc, List.map_cons, emitted, same]
    rfl

theorem emit_total {order : List String}
    (topological : Search.Topological (successors entries) order)
    (covers : ∀ id, successors entries id = none ∨ id ∈ order) {fuel : Nat}
    (enough : order.length < fuel) (ids : List String)
    (state : List CompiledOperation × Memo) :
    ∃ result, ids.foldlM (emit entries fuel) state = .ok result := by
  refine exists_foldlM_ok (fun id _ state => ?_) state
  exact exists_bind_ok (alwaysClosure_total topological id (covers id) fuel enough state.2)
    fun _ => ⟨_, rfl⟩

end Always

end Biz.CapabilityMap
