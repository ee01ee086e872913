import Mathlib

/-!
# Depth-first search

A graph is a partial successor function: a node without a value is not part of
the graph, though it may be named as a successor. The three-colour search keeps
the nodes on the current path and the finished ones, fails on a node that is on
the path, and lists the finished nodes in the order in which they finish.

Recursion is bounded by fuel. Running out of it is a failure of its own, and it
never happens when the fuel exceeds the number of nodes that are not on the path.
A finished search gives a topological order, and with it induction over a graph
whose search has finished.
-/

namespace Biz.Search

universe u v
variable {Node : Type u} {step : List Node → Node → Except Failure (List Node)}
  {next : Node → Option (List Node)}

inductive Failure
  | cycle | exhausted

section Definitions

variable (next : Node → Option (List Node))

/-- Visit a node with a path of open nodes and the finished nodes. -/
def visit [DecidableEq Node] : Nat → List Node → List Node → Node → Except Failure (List Node)
  | 0, _, _, _ => .error .exhausted
  | fuel + 1, path, done, node =>
    if node ∈ path then .error .cycle
    else if node ∈ done then .ok done
    else
      match next node with
      | none => .ok done
      | some successors =>
        match successors.foldlM (visit fuel (node :: path)) done with
        | .ok done => .ok (done ++ [node])
        | .error failure => .error failure

/-- A list in which every node comes after its successors in the graph. -/
inductive Topological : List Node → Prop
  | nil : Topological []
  | snoc {done : List Node} {node : Node} (earlier : Topological done)
      (closed : ∀ successors, next node = some successors →
        ∀ s ∈ successors, next s = none ∨ s ∈ done) : Topological (done ++ [node])

/-- A successor of a node. -/
def Below (s node : Node) : Prop := ∃ successors, next node = some successors ∧ s ∈ successors

/-- What a search that has finished adds to the finished nodes. -/
structure Extends (path done after : List Node) : Prop where
  topological : Topological next after
  grows : ∀ x ∈ done, x ∈ after
  distinct : after.Nodup
  nodes : ∀ x ∈ after, x ∈ done ∨ next x ≠ none
  closedPath : ∀ x ∈ path, x ∈ after → x ∈ done

end Definitions

theorem Extends.refl {path done : List Node} (topological : Topological next done)
    (distinct : done.Nodup) : Extends next path done done :=
  ⟨topological, fun _ member => member, distinct, fun _ member => .inl member,
    fun _ _ member => member⟩

theorem Extends.trans {path done middle after : List Node} (first : Extends next path done middle)
    (second : Extends next path middle after) : Extends next path done after := by
  refine ⟨second.topological, fun x member => second.grows x (first.grows x member),
    second.distinct, fun x member => ?_, fun x onPath member => ?_⟩
  · rcases second.nodes x member with earlier | node
    · exact first.nodes x earlier
    · exact .inr node
  · exact first.closedPath x onPath (second.closedPath x onPath member)

/-- A fold of visits that each extend the finished nodes extends them, and finishes
every node it visits. -/
theorem foldlM_extends {path : List Node}
    (each : ∀ done node after, Topological next done → done.Nodup → step done node = .ok after →
      Extends next path done after ∧ (next node = none ∨ node ∈ after))
    (nodes done after : List Node) (topological : Topological next done) (distinct : done.Nodup)
    (finished : nodes.foldlM step done = .ok after) :
    Extends next path done after ∧ ∀ node ∈ nodes, next node = none ∨ node ∈ after := by
  induction nodes generalizing done with
  | nil =>
    cases finished
    exact ⟨.refl topological distinct, fun _ member => absurd member List.not_mem_nil⟩
  | cons node rest ih =>
    rw [List.foldlM_cons] at finished
    cases stepped : step done node with
    | error failure =>
      rw [stepped] at finished
      cases finished
    | ok middle =>
      rw [stepped] at finished
      obtain ⟨first, here⟩ := each done node middle topological distinct stepped
      obtain ⟨second, later⟩ := ih middle first.topological first.distinct finished
      refine ⟨first.trans second, fun other member => ?_⟩
      rcases List.mem_cons.mp member with rfl | member
      · exact here.imp_right (second.grows _)
      · exact later other member

/-- A fold fails with the failure of one of its visits. -/
theorem foldlM_error {failure : Failure} (nodes done : List Node)
    (failed : nodes.foldlM step done = .error failure) :
    ∃ middle, ∃ node ∈ nodes, step middle node = .error failure := by
  induction nodes generalizing done with
  | nil => cases failed
  | cons node rest ih =>
    rw [List.foldlM_cons] at failed
    cases stepped : step done node with
    | error other =>
      rw [stepped] at failed
      exact ⟨done, node, List.mem_cons_self, stepped.trans failed⟩
    | ok middle =>
      rw [stepped] at failed
      obtain ⟨last, other, member, refused⟩ := ih middle failed
      exact ⟨last, other, List.mem_cons_of_mem _ member, refused⟩

/-- A fold of visits that never exhaust their fuel does not exhaust it. -/
theorem foldlM_not_exhausted (each : ∀ done node, step done node ≠ .error .exhausted)
    (nodes done : List Node) : nodes.foldlM step done ≠ .error .exhausted := by
  intro exhausted
  obtain ⟨middle, node, -, failed⟩ := foldlM_error nodes done exhausted
  exact each middle node failed

variable [DecidableEq Node]

/-- A visit that succeeds extends the finished nodes and finishes its node. Proof:
by induction on the fuel; the node is on the path of the visits inside, so none of
them finishes it, and it is appended once. -/
theorem visit_extends (fuel : Nat) (path done : List Node) (node : Node) (after : List Node)
    (topological : Topological next done) (distinct : done.Nodup)
    (finished : visit next fuel path done node = .ok after) :
    Extends next path done after ∧ (next node = none ∨ node ∈ after) := by
  induction fuel generalizing path done node after with
  | zero => cases finished
  | succ fuel ih =>
    unfold visit at finished
    split at finished
    · cases finished
    rename_i unopened
    split at finished
    · rename_i member
      cases finished
      exact ⟨.refl topological distinct, .inr member⟩
    rename_i unfinished
    cases successors : next node with
    | none =>
      simp only [successors] at finished
      cases finished
      exact ⟨.refl topological distinct, .inl rfl⟩
    | some nodes =>
      simp only [successors] at finished
      split at finished
      · rename_i middle folded
        cases finished
        obtain ⟨inner, all⟩ := foldlM_extends (ih (node :: path)) nodes done middle
          topological distinct folded
        have fresh : node ∉ middle :=
          fun member => unfinished (inner.closedPath node List.mem_cons_self member)
        refine ⟨⟨inner.topological.snoc ?_, ?_, ?_, ?_, ?_⟩, .inr (by simp)⟩
        · intro others same
          rw [successors, Option.some.injEq] at same
          exact same ▸ all
        · exact fun x member => List.mem_append_left _ (inner.grows x member)
        · exact List.nodup_append'.mpr
            ⟨inner.distinct, List.nodup_singleton _, by simpa using fresh⟩
        · intro x member
          rcases List.mem_append.mp member with earlier | last
          · exact inner.nodes x earlier
          · rw [List.mem_singleton] at last
            exact .inr (by simp [last, successors])
        · intro x onPath member
          rcases List.mem_append.mp member with earlier | last
          · exact inner.closedPath x (List.mem_cons_of_mem _ onPath) earlier
          · rw [List.mem_singleton] at last
            exact absurd (last ▸ onPath) unopened
      · cases finished

/-- A visit that fails has found a cycle. Proof: by induction on the fuel; the open nodes
lead to the one visited, so that one among them leads to itself. -/
theorem visit_cycle (fuel : Nat) (path done : List Node) (node : Node)
    (leads : ∀ other ∈ path, Relation.TransGen (Below next) node other)
    (failed : visit next fuel path done node = .error .cycle) :
    ∃ node, Relation.TransGen (Below next) node node := by
  induction fuel generalizing path done node with
  | zero => cases failed
  | succ fuel ih =>
    unfold visit at failed
    split at failed
    · rename_i opened
      exact ⟨node, leads node opened⟩
    split at failed
    · cases failed
    cases successors : next node with
    | none =>
      simp only [successors] at failed
      cases failed
    | some nodes =>
      simp only [successors] at failed
      split at failed
      · cases failed
      · rename_i folded
        cases failed
        obtain ⟨middle, s, listed, inner⟩ := foldlM_error nodes done folded
        have below : Below next s node := ⟨nodes, successors, listed⟩
        refine ih (node :: path) middle s ?_ inner
        intro other member
        rcases List.mem_cons.mp member with rfl | opened
        · exact .single below
        · exact .head below (leads other opened)

/-- More fuel than nodes off the path is enough: each visit puts a node on it. -/
theorem visit_not_exhausted (nodes : List Node) (all : ∀ node, next node ≠ none → node ∈ nodes)
    (fuel : Nat) (path done : List Node) (node : Node)
    (enough : (nodes.filter (· ∉ path)).length < fuel) :
    visit next fuel path done node ≠ .error .exhausted := by
  induction fuel generalizing path done node with
  | zero => omega
  | succ fuel ih =>
    unfold visit
    split
    · simp
    rename_i unopened
    split
    · simp
    cases successors : next node with
    | none => simp
    | some others =>
      have here : node ∈ nodes := all node (by simp [successors])
      have fewer : (nodes.filter (· ∉ node :: path)).length < (nodes.filter (· ∉ path)).length := by
        have restricted : nodes.filter (· ∉ node :: path) =
            (nodes.filter (· ∉ path)).filter (· ≠ node) := by
          rw [List.filter_filter]
          congr 1
          funext x
          simp
        rw [restricted]
        refine List.length_filter_lt_length_iff_exists.mpr ⟨node, ?_, by simp⟩
        simp [List.mem_filter, here, unopened]
      have inner := foldlM_not_exhausted
        (fun done other => ih (node :: path) done other (by omega)) others done
      dsimp only
      split
      · simp
      · rename_i failure folded
        intro exhausted
        cases exhausted
        exact inner folded

/-- The search from every node of a list. -/
def search (next : Node → Option (List Node)) (nodes : List Node) :
    Except Failure (List Node) :=
  nodes.foldlM (visit next (nodes.length + 1) []) []

/-- A search from all nodes of a graph never runs out of fuel. -/
theorem search_not_exhausted {nodes : List Node} (all : ∀ node, next node ≠ none → node ∈ nodes) :
    search next nodes ≠ .error .exhausted := by
  refine foldlM_not_exhausted (fun done node => visit_not_exhausted nodes all _ [] done node ?_) _ _
  exact Nat.lt_succ_of_le (List.length_filter_le _ _)

/-- A finished search orders the whole graph. -/
theorem search_ok {nodes order : List Node} (all : ∀ node, next node ≠ none → node ∈ nodes)
    (finished : search next nodes = .ok order) :
    Topological next order ∧ order.length ≤ nodes.length ∧
      ∀ node, next node = none ∨ node ∈ order := by
  obtain ⟨extended, visited⟩ := foldlM_extends (visit_extends (nodes.length + 1) []) nodes [] order
    .nil List.nodup_nil finished
  refine ⟨extended.topological, ?_, fun node => ?_⟩
  · refine (List.subperm_of_subset extended.distinct fun x member => ?_).length_le
    rcases extended.nodes x member with impossible | node
    · exact absurd impossible List.not_mem_nil
    · exact all x node
  · by_cases present : next node = none
    · exact .inl present
    · exact visited node (all node present)

variable {order : List Node}

omit [DecidableEq Node] in
/-- Induction over an ordered graph: a node has a property when its successors do. -/
theorem Topological.induction (holds : Node → Prop) (topological : Topological next order)
    (step : ∀ node successors, next node = some successors →
      (∀ s ∈ successors, next s ≠ none → holds s) → holds node) :
    ∀ node ∈ order, next node ≠ none → holds node := by
  induction topological with
  | nil => exact fun _ member => absurd member List.not_mem_nil
  | @snoc done last earlier closed ih =>
    intro node member present
    rcases List.mem_append.mp member with before | here
    · exact ih node before present
    · rw [List.mem_singleton] at here
      subst here
      obtain ⟨successors, found⟩ := Option.ne_none_iff_exists'.mp present
      refine step node successors found fun s listed inside => ?_
      exact ih s ((closed successors found s listed).resolve_left inside) inside

omit [DecidableEq Node] in
/-- An ordered graph has no cycle: its edges, followed forwards, are well founded. -/
theorem Topological.wellFounded (topological : Topological next order)
    (covers : ∀ node, next node = none ∨ node ∈ order) :
    WellFounded (Below next) := by
  have leaf : ∀ node, next node = none → Acc (Below next) node := by
    intro node absent
    refine ⟨node, fun s ⟨successors, found, _⟩ => ?_⟩
    rw [absent] at found
    cases found
  refine ⟨fun node => ?_⟩
  by_cases absent : next node = none
  · exact leaf node absent
  refine topological.induction _ ?_ node ((covers node).resolve_left absent) absent
  intro node successors found earlier
  refine ⟨node, fun s ⟨others, same, listed⟩ => ?_⟩
  rw [found, Option.some.injEq] at same
  subst same
  by_cases inside : next s = none
  · exact leaf s inside
  · exact earlier s listed inside

/-- A search of a whole graph succeeds exactly when the graph has no cycle. -/
theorem search_ok_iff {nodes : List Node} (all : ∀ node, next node ≠ none → node ∈ nodes) :
    (∃ order, search next nodes = .ok order) ↔
      ∀ node, ¬Relation.TransGen (Below next) node node := by
  constructor
  · rintro ⟨order, finished⟩ node cycle
    obtain ⟨topological, -, covers⟩ := search_ok all finished
    exact (topological.wellFounded covers).transGen.irrefl.irrefl node cycle
  · intro acyclic
    cases searched : search next nodes with
    | ok order => exact ⟨order, rfl⟩
    | error failure =>
      cases failure with
      | exhausted => exact absurd searched (search_not_exhausted all)
      | cycle =>
        obtain ⟨middle, start, -, failed⟩ := foldlM_error nodes [] searched
        obtain ⟨node, cycle⟩ := visit_cycle _ [] middle start (by simp) failed
        exact absurd cycle (acyclic node)

/-- A recursion over successors gives the same value with any fuel beyond the
length of the order. -/
theorem Topological.stable {Value : Type v}
    (topological : Topological next order) (value : Nat → Node → Value)
    (step : ∀ n m node, (∀ successors, next node = some successors →
      ∀ s ∈ successors, value n s = value m s) → value (n + 1) node = value (m + 1) node)
    (node : Node) (known : next node = none ∨ node ∈ order) (n m : Nat) (left : order.length < n)
    (right : order.length < m) : value n node = value m node := by
  induction topological generalizing node n m with
  | nil =>
    obtain ⟨n, rfl⟩ := Nat.exists_eq_add_of_lt left
    obtain ⟨m, rfl⟩ := Nat.exists_eq_add_of_lt right
    refine step _ _ node fun successors found => ?_
    rcases known with absent | impossible
    · simp [absent] at found
    · exact absurd impossible List.not_mem_nil
  | @snoc done last earlier closed ih =>
    rw [List.length_append, List.length_singleton] at left right
    obtain ⟨n, rfl⟩ : ∃ k, n = k + 1 := ⟨n - 1, by omega⟩
    obtain ⟨m, rfl⟩ : ∃ k, m = k + 1 := ⟨m - 1, by omega⟩
    by_cases before : next node = none ∨ node ∈ done
    · exact ih node before (n + 1) (m + 1) (by omega) (by omega)
    · have here : node = last := by
        simp only [not_or] at before
        rcases known with absent | member
        · exact absurd absent before.1
        · simpa [before.2] using member
      subst here
      refine step n m node fun successors found s listed => ?_
      exact ih s (closed successors found s listed) n m (by omega) (by omega)

end Biz.Search
