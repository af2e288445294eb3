import TokenMesh.Topology.Shape

namespace TokenMesh

/-!
# Shapes are closed

However many nodes a line, a ring, a grid or a full mesh has, no link leads out of them.

* `Shape.lt_of_mem_above`: a node is linked to nodes of the shape only;
* `Topology.closed_build`: all topologies of a shape are closed.
-/

/-- The nodes above a node of a shape are nodes of the shape. -/
theorem Shape.lt_of_mem_above {k : Shape} {n i j : Nat} (h : j ∈ k.above n i) : j < n := by
  cases k with
  | line =>
    simp only [above] at h
    split at h
    · next hi => rwa [List.mem_singleton.1 h]
    · cases h
  | ring =>
    rcases List.mem_append.1 h with h | h
    · split at h
      · next hi => rwa [List.mem_singleton.1 h]
      · cases h
    -- the last node closes the ring
    · split at h
      · next hi =>
        rw [List.mem_singleton.1 h]
        omega
      · cases h
  | grid =>
    rcases List.mem_append.1 h with h | h
    · split at h
      · next hi =>
        rw [List.mem_singleton.1 h]
        exact hi.2
      · cases h
    · split at h
      · next hi => rwa [List.mem_singleton.1 h]
      · cases h
  | full =>
    have hj := List.mem_range'_1.1 h
    omega

/-- No link of a shape leads out of its nodes. -/
theorem Topology.closed_build (k : Shape) (n : Nat) : (build k n).Closed := by
  intro l hl
  obtain ⟨i, _, hl⟩ := List.mem_flatMap.1 hl
  exact Shape.lt_of_mem_above (mem_linksTo hl).2

end TokenMesh
