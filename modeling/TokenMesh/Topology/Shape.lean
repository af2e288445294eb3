import TokenMesh.Text.Word
import TokenMesh.Topology

namespace TokenMesh

/-!
# Topologies of a given shape

Lines, rings, grids and full meshes of any size.  A shape is given by the nodes above each node
that it is linked to; a topology of that shape lists those links in order.

* `Shape.above`: the higher nodes that a node is linked to;
* `Topology.build`: the topology of a shape.
-/

/-- The shape of a generated topology. -/
inductive Shape
  | line
  | ring
  | grid
  | full
deriving DecidableEq, Repr

namespace Shape

/-- All shapes. -/
def all : List Shape := [line, ring, grid, full]

/-- The name of a shape. -/
def name : Shape → String
  | line => "line"
  | ring => "ring"
  | grid => "grid"
  | full => "full"

/-- The shape that a word names, in either case. -/
def ofText? (s : String) : Option Shape := all.find? fun k => Text.isWord k.name s

/-- The shape with the given name. -/
def ofName? (s : String) : Option Shape := all.find? fun k => k.name == s

@[simp] theorem ofName?_name (k : Shape) : ofName? k.name = some k := by
  cases k <;> decide

/-- The side of the smallest square that holds `n` nodes, at least one. -/
def side (n : Nat) : Nat := ((List.range (n + 1)).find? fun w => 0 < w ∧ n ≤ w * w).getD 1

/-- The nodes above `i` that it is linked to in a shape of `n` nodes.

    * In a line every node hears the next one.
    * A ring of more than two nodes joins the ends of a line.
    * A grid lays the nodes out row by row on the smallest square that holds them; a node hears
      the next one in its row and the one below it.
    * In a full mesh all nodes hear each other. -/
def above (k : Shape) (n i : Nat) : List Nat :=
  match k with
  | line => if i + 1 < n then [i + 1] else []
  | ring => (if i + 1 < n then [i + 1] else []) ++ (if i = 0 ∧ 2 < n then [n - 1] else [])
  | grid =>
    (if (i + 1) % side n ≠ 0 ∧ i + 1 < n then [i + 1] else []) ++
      (if i + side n < n then [i + side n] else [])
  | full => List.range' (i + 1) (n - (i + 1))

/-- No square has side zero. -/
theorem side_pos (n : Nat) : 0 < side n := by
  unfold side
  cases hf : (List.range (n + 1)).find? fun w => 0 < w ∧ n ≤ w * w with
  | none => exact Nat.one_pos
  | some w =>
    have := List.find?_some hf
    simp only [decide_eq_true_eq] at this
    exact this.1

/-- The side of a square of more than one node is more than one. -/
theorem one_lt_side {n : Nat} (h : 1 < n) : 1 < side n := by
  unfold side
  cases hf : (List.range (n + 1)).find? fun w => 0 < w ∧ n ≤ w * w with
  | none =>
    have := List.find?_eq_none.1 hf n (List.mem_range.2 (by omega))
    simp only [decide_eq_true_eq] at this
    have : n ≤ n * n := Nat.le_mul_of_pos_right n (by omega)
    omega
  | some w =>
    have := List.find?_some hf
    simp only [decide_eq_true_eq] at this
    simp only [Option.getD_some]
    rcases Nat.lt_or_ge 1 w with hw | hw
    · exact hw
    · have : w = 1 := by omega
      subst this; omega

/-- The nodes above a node come in ascending order, and above it. -/
theorem pairwise_above (k : Shape) (n i : Nat) : (i :: k.above n i).Pairwise (· < ·) := by
  cases k with
  | line => simp only [above]; split <;> simp
  | ring =>
    simp only [above]
    by_cases h₂ : i = 0 ∧ 2 < n
    · rw [if_pos h₂, if_pos (by omega)]
      refine List.pairwise_cons.2 ⟨?_, ?_⟩ <;> simp <;> omega
    · rw [if_neg h₂]
      by_cases h₁ : i + 1 < n <;> simp [h₁]
  | grid =>
    simp only [above]
    by_cases h₂ : i + side n < n
    -- the next node in the row comes before the one below since a row is longer than one
    · have := one_lt_side (n := n) (by have := side_pos n; omega)
      rw [if_pos h₂]
      by_cases h₁ : (i + 1) % side n ≠ 0 ∧ i + 1 < n
      · rw [if_pos h₁]
        refine List.pairwise_cons.2 ⟨?_, ?_⟩ <;> simp <;> omega
      · rw [if_neg h₁]
        simp only [List.nil_append, List.pairwise_pair]
        omega
    · by_cases h₁ : (i + 1) % side n ≠ 0 ∧ i + 1 < n <;> simp [h₁, h₂]
  | full =>
    simp only [above]
    refine List.pairwise_cons.2 ⟨fun j hj => ?_, List.pairwise_lt_range'⟩
    have := List.mem_range'_1.1 hj
    omega

end Shape

namespace Topology

/-- The links from a node to some nodes; those that are not above it are left out. -/
def linksTo (i : Nat) (js : List Nat) : List Link :=
  js.filterMap fun j => if h : i < j then some (.perfect i j h) else none

theorem mem_linksTo {i : Nat} {js : List Nat} {l : Link} (h : l ∈ linksTo i js) :
    l.low = i ∧ l.high ∈ js := by
  obtain ⟨j, hj, hl⟩ := List.mem_filterMap.1 h
  split at hl
  · obtain rfl := Option.some.inj hl
    exact ⟨rfl, hj⟩
  · cases hl

/-- Links to nodes in ascending order are in order. -/
theorem pairwise_linksTo (i : Nat) {js : List Nat} (h : js.Pairwise (· < ·)) :
    (linksTo i js).Pairwise Link.Before := by
  refine List.Pairwise.filterMap _ ?_ h
  intro a b hab k hk l hl
  split at hk <;> cases hk
  split at hl <;> cases hl
  exact .inr ⟨rfl, hab⟩

/-- The topology of a shape, without losses. -/
def build (k : Shape) (n : Nat) : Topology where
  nodeCount := n
  links := (List.range n).flatMap fun i => linksTo i (k.above n i)
  delay := defaultDelay
  ordered := by
    refine List.pairwise_flatMap.2 ⟨fun i _ => ?_, ?_⟩
    -- the links from one node, and the links from two
    · exact pairwise_linksTo i (List.pairwise_cons.1 (k.pairwise_above n i)).2
    · refine List.Pairwise.imp ?_ List.pairwise_lt_range
      intro i j hij l hl m hm
      have := (mem_linksTo hl).1
      have := (mem_linksTo hm).1
      exact .inl (by omega)

end Topology

end TokenMesh
