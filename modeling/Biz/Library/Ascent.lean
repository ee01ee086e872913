import Mathlib

/-!
# Links to a parent

A partial function gives each node of a graph its parent, or says that the node is a
root. The links form a forest when the way up from every node ends at a root. A way up
that ends cannot pass a node twice, since every node has one parent only.
-/

namespace Biz.Ascent

variable {Node : Type} {path : List Node} {node : Node}

/-- The parent of each node: `none` where there is no node, `some none` at a root. -/
abbrev Links (Node : Type) := Node → Option (Option Node)

/-- The nodes from a node up to its root. -/
inductive Rises (links : Links Node) : Node → List Node → Prop
  | root {node : Node} (found : links node = some none) : Rises links node [node]
  | up {node above : Node} {path : List Node} (found : links node = some (some above))
      (rest : Rises links above path) : Rises links node (node :: path)

/-- The way up from every node ends. -/
def Forest (links : Links Node) : Prop :=
  ∀ node, (links node).isSome = true → ∃ path, Rises links node path

variable {links : Links Node}

theorem Rises.unique {first second : List Node} (one : Rises links node first)
    (other : Rises links node second) : first = second := by
  induction one generalizing second with
  | root found =>
    cases other with
    | root _ => rfl
    | up again _ => cases found.symm.trans again
  | up found _ ih =>
    cases other with
    | root again => cases found.symm.trans again
    | up again rest =>
      cases found.symm.trans again
      rw [ih rest]

section

variable (rises : Rises links node path)

include rises

theorem Rises.head : node ∈ path := by
  cases rises with
  | root _ => exact List.mem_cons_self
  | up _ _ => exact List.mem_cons_self

/-- A node that is passed on the way up has a way up that is no longer. -/
theorem Rises.passed {other : Node} (passed : other ∈ path) :
    ∃ rest, Rises links other rest ∧ rest.length ≤ path.length := by
  induction rises with
  | root found =>
    cases List.mem_singleton.mp passed
    exact ⟨_, .root found, Nat.le_refl _⟩
  | @up node above path found rest ih =>
    rcases List.mem_cons.mp passed with rfl | later
    · exact ⟨_, .up found rest, Nat.le_refl _⟩
    · obtain ⟨shorter, rises, bound⟩ := ih later
      exact ⟨shorter, rises, Nat.le_succ_of_le bound⟩

/-- No two nodes on the way up have the same link. -/
theorem Rises.nodup_links : (path.map links).Nodup := by
  induction rises with
  | root _ => simp
  | up found rest ih =>
    rw [List.map_cons, List.nodup_cons, List.mem_map]
    refine ⟨?_, ih⟩
    rintro ⟨_, passed, same⟩
    obtain ⟨_, again, bound⟩ := rest.passed passed
    rw [← (Rises.up (same.trans found) rest).unique again, List.length_cons] at bound
    exact absurd bound (Nat.not_succ_le_self _)

/-- The way up passes no node twice. -/
theorem Rises.nodup : path.Nodup := rises.nodup_links.of_map

/-- Every node on the way up is one of the graph. -/
theorem Rises.linked : ∀ other ∈ path, (links other).isSome = true := by
  induction rises with
  | root found =>
    intro other passed
    cases List.mem_singleton.mp passed
    exact Option.isSome_of_eq_some found
  | up found _ ih =>
    intro other passed
    rcases List.mem_cons.mp passed with rfl | later
    · exact Option.isSome_of_eq_some found
    · exact ih other later

end

variable {after : Links Node}

theorem Rises.congr (rises : Rises links node path)
    (same : ∀ other ∈ path, after other = links other) : Rises after node path := by
  induction rises with
  | root found => exact .root ((same _ List.mem_cons_self).trans found)
  | up found _ ih =>
    exact .up ((same _ List.mem_cons_self).trans found)
      (ih fun other passed => same other (.tail _ passed))

theorem Forest.congr (forest : Forest links) (same : ∀ node, after node = links node) :
    Forest after := by
  intro node present
  rw [same] at present
  obtain ⟨path, rises⟩ := forest node present
  exact ⟨path, rises.congr fun other _ => same other⟩

/-- A forest stays one when one node, old or new, gets a way up that does not pass it. -/
theorem Forest.relink (forest : Forest links)
    (others : ∀ other, other ≠ node → after other = links other) (rises : Rises after node path) :
    Forest after := by
  classical
  intro start present
  by_cases itself : start = node
  · subst itself
    exact ⟨path, rises⟩
  · rw [others start itself] at present
    obtain ⟨_, way⟩ := forest start present
    clear present itself
    induction way with
    | @root start found =>
      by_cases itself : start = node
      · subst itself
        exact ⟨path, rises⟩
      · exact ⟨_, .root ((others start itself).trans found)⟩
    | @up start above _ found _ ih =>
      by_cases itself : start = node
      · subst itself
        exact ⟨path, rises⟩
      · obtain ⟨_, way⟩ := ih
        exact ⟨_, .up ((others start itself).trans found) way⟩

end Biz.Ascent
