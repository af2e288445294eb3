import Mathlib.Order.Bounds.Basic
import TokenMesh.Proofs.Topology.Neighbors
import TokenMesh.Proofs.Topology.Shape

namespace TokenMesh

/-!
# The links of a shape

Which nodes of a line, a ring, a grid and a full mesh hear each other, for any number of nodes.

* `Shape.isLeast_side`: a row of a grid is as long as the side of the least square that holds all
  nodes;
* `Topology.isLinked_build`: two nodes of a shape are linked just if one of them is above the other;
* `Topology.isLinked_line`, `Topology.isLinked_ring`, `Topology.isLinked_grid`,
  `Topology.isLinked_full`: the links of each shape;
* `Topology.build_eq_foldl`: a shape comes of adding its links one after the other.
-/

namespace Shape

/-- A row of a grid is as long as the side of the least square that holds all nodes. -/
theorem isLeast_side (n : Nat) : IsLeast {w | 0 < w ∧ n ≤ w * w} (side n) := by
  unfold side
  cases hf : (List.range (n + 1)).find? fun w => 0 < w ∧ n ≤ w * w with
  | none =>
    -- a square of side `n` would do, so there are no nodes at all
    have hn := List.find?_eq_none.1 hf n (List.mem_range.2 (Nat.lt_succ_self n))
    simp only [decide_eq_true_eq, not_and, not_le] at hn
    obtain rfl : n = 0 := by
      by_contra hne
      have hlt := hn (Nat.pos_of_ne_zero hne)
      have hle := Nat.le_mul_self n
      omega
    exact ⟨⟨Nat.one_pos, Nat.zero_le _⟩, fun w hw => hw.1⟩
  | some w =>
    refine ⟨?_, fun v hv => ?_⟩
    · have hw := List.find?_some hf
      exact of_decide_eq_true hw
    · rw [Option.getD_some]
      by_contra hlt
      -- sides below the one that was found were tried before it
      obtain ⟨_, i, hi, hget, hbefore⟩ := List.find?_eq_some_iff_getElem.1 hf
      rw [List.getElem_range] at hget
      have hv' := hbefore v (by omega)
      simp only [List.getElem_range, Bool.not_eq_true', decide_eq_false_iff_not] at hv'
      exact hv' hv

/-- The next node is in the same row of a grid unless it begins a row. -/
theorem mod_succ_ne_zero_iff {w i : Nat} : (i + 1) % w ≠ 0 ↔ i / w = (i + 1) / w := by
  rw [Nat.succ_div, ne_eq, ← Nat.dvd_iff_mod_eq_zero]
  split
  · next h => simp [h]
  · next h => simp [h]

variable {n i j : Nat}

/-- The nodes above a node are above it. -/
theorem lt_of_above {k : Shape} (h : j ∈ k.above n i) : i < j :=
  (List.pairwise_cons.1 (k.pairwise_above n i)).1 j h

theorem mem_above_line : j ∈ above .line n i ↔ i + 1 = j ∧ j < n := by
  simp only [above, List.mem_ite_nil_right, List.mem_singleton]
  omega

theorem mem_above_ring :
    j ∈ above .ring n i ↔ i + 1 = j ∧ j < n ∨ i = 0 ∧ 2 < n ∧ j + 1 = n := by
  simp only [above, List.mem_append, List.mem_ite_nil_right, List.mem_singleton]
  omega

theorem mem_above_grid :
    j ∈ above .grid n i ↔ j < n ∧ (j % side n ≠ 0 ∧ i + 1 = j ∨ i + side n = j) := by
  simp only [above, List.mem_append, List.mem_ite_nil_right, List.mem_singleton]
  constructor
  · rintro (⟨⟨hrow, hlt⟩, rfl⟩ | ⟨hlt, rfl⟩)
    · exact ⟨hlt, .inl ⟨hrow, rfl⟩⟩
    · exact ⟨hlt, .inr rfl⟩
  · rintro ⟨hlt, ⟨hrow, rfl⟩ | rfl⟩
    · exact .inl ⟨⟨hrow, hlt⟩, rfl⟩
    · exact .inr ⟨hlt, rfl⟩

theorem mem_above_full : j ∈ above .full n i ↔ i < j ∧ j < n := by
  rw [above, List.mem_range'_1]
  omega

/-- The pairs of nodes that are linked along a line, one after the other. -/
def steps (n : Nat) : List (Nat × Nat) := (List.range' 1 (n - 1)).map fun i => (i - 1, i)

/-- The pairs of nodes that a shape links, one after the other.  A ring is a line whose ends are
    linked at last; the nodes of a grid are linked first to the right and then downwards, one by
    one; and those of a full mesh are each linked to all later ones. -/
def pairs (k : Shape) (n : Nat) : List (Nat × Nat) :=
  match k with
  | line => steps n
  | ring => steps n ++ if 2 < n then [(n - 1, 0)] else []
  | grid => (List.range n).flatMap fun i =>
    (if (i + 1) % side n ≠ 0 ∧ i + 1 < n then [(i, i + 1)] else []) ++
      if i + side n < n then [(i, i + side n)] else []
  | full => (List.range n).flatMap fun i => (List.range' (i + 1) (n - (i + 1))).map (i, ·)

theorem mem_steps : (i, j) ∈ steps n ↔ i + 1 = j ∧ j < n := by
  simp only [steps, List.mem_map, List.mem_range'_1, Prod.mk.injEq]
  constructor
  · rintro ⟨k, hk, rfl, rfl⟩
    omega
  · rintro ⟨rfl, hlt⟩
    exact ⟨i + 1, by omega, rfl, rfl⟩

/-- What a shape links is what is above each other in it. -/
theorem mem_pairs_or {k : Shape} :
    (i, j) ∈ k.pairs n ∨ (j, i) ∈ k.pairs n ↔ j ∈ k.above n i ∨ i ∈ k.above n j := by
  cases k with
  | line => rw [pairs, mem_steps, mem_steps, mem_above_line, mem_above_line]
  | ring =>
    simp only [pairs, List.mem_append, mem_steps, List.mem_ite_nil_right, List.mem_singleton,
      Prod.mk.injEq, mem_above_ring]
    omega
  | grid =>
    have hmem : ∀ i j, (i, j) ∈ pairs .grid n ↔ j ∈ above .grid n i := by
      intro i j
      simp only [pairs, above, List.mem_flatMap, List.mem_range, List.mem_append,
        List.mem_ite_nil_right, List.mem_singleton, Prod.mk.injEq]
      constructor
      · rintro ⟨k, -, ⟨hrow, rfl, rfl⟩ | ⟨hlt, rfl, rfl⟩⟩
        · exact .inl ⟨hrow, rfl⟩
        · exact .inr ⟨hlt, rfl⟩
      · rintro (⟨hrow, rfl⟩ | ⟨hlt, rfl⟩)
        · exact ⟨i, by omega, .inl ⟨hrow, rfl, rfl⟩⟩
        · exact ⟨i, by omega, .inr ⟨hlt, rfl, rfl⟩⟩
    rw [hmem, hmem]
  | full =>
    have hmem : ∀ i j, (i, j) ∈ pairs .full n ↔ j ∈ above .full n i := by
      intro i j
      simp only [pairs, List.mem_flatMap, List.mem_range, List.mem_map, List.mem_range'_1,
        Prod.mk.injEq, mem_above_full]
      constructor
      · rintro ⟨k, -, m, hm, rfl, rfl⟩
        omega
      · intro h
        exact ⟨i, by omega, j, by omega, rfl, rfl⟩
    rw [hmem, hmem]

end Shape

namespace Topology

variable {n i j : Nat}

/-- Two nodes of a shape are linked just if one of them is above the other. -/
theorem isLinked_build {k : Shape} :
    (build k n).isLinked i j = true ↔ j ∈ k.above n i ∨ i ∈ k.above n j := by
  rw [isLinked_iff]
  constructor
  · rintro ⟨l, hl, hjoins⟩
    obtain ⟨low, _, hl⟩ := List.mem_flatMap.1 hl
    obtain ⟨rfl, hhigh⟩ := mem_linksTo hl
    simp only [Link.joins, Bool.or_eq_true, Bool.and_eq_true, beq_iff_eq] at hjoins
    obtain ⟨rfl, rfl⟩ | ⟨rfl, rfl⟩ := hjoins
    · exact .inl hhigh
    · exact .inr hhigh
  · -- the link is kept under its lower end
    have hkept : ∀ {low high : Nat}, high ∈ k.above n low →
        ∃ h, Link.perfect low high h ∈ (build k n).links := by
      intro low high h
      have hlt := Shape.lt_of_above h
      refine ⟨hlt, List.mem_flatMap.2 ⟨low, List.mem_range.2 ?_, ?_⟩⟩
      · exact hlt.trans (Shape.lt_of_mem_above h)
      · exact List.mem_filterMap.2 ⟨high, h, dif_pos hlt⟩
    rintro (h | h)
    · obtain ⟨_, hl⟩ := hkept h
      exact ⟨_, hl, by simp [Link.joins, Link.perfect]⟩
    · obtain ⟨_, hl⟩ := hkept h
      exact ⟨_, hl, by simp [Link.joins, Link.perfect]⟩

/-- No link of a shape has an end beyond its nodes. -/
theorem lt_of_isLinked_build {k : Shape} (h : (build k n).isLinked i j = true) : i < n ∧ j < n := by
  obtain h | h := isLinked_build.1 h
  · exact ⟨(Shape.lt_of_above h).trans (Shape.lt_of_mem_above h), Shape.lt_of_mem_above h⟩
  · exact ⟨Shape.lt_of_mem_above h, (Shape.lt_of_above h).trans (Shape.lt_of_mem_above h)⟩

/-! ### Link by link -/

/-- A link without losses is there just if its ends are linked, where no link loses anything. -/
theorem mem_links_iff {t : Topology} (ht : ∀ l ∈ t.links, l.lossRate = .zero) {l : Link} :
    l ∈ t.links ↔ l.lossRate = .zero ∧ t.isLinked l.low l.high = true := by
  have hlt := l.low_lt_high
  constructor
  · intro hl
    exact ⟨ht l hl, isLinked_iff.2 ⟨l, hl, by simp [Link.joins]⟩⟩
  · rintro ⟨hzero, hlinked⟩
    obtain ⟨m, hm, hjoins⟩ := isLinked_iff.1 hlinked
    have hlt' := m.low_lt_high
    simp only [Link.joins, Bool.or_eq_true, Bool.and_eq_true, beq_iff_eq] at hjoins
    have hlow : m.low = l.low := by omega
    have hhigh : m.high = l.high := by omega
    have hrate : m.lossRate = l.lossRate := (ht m hm).trans hzero.symm
    obtain rfl : m = l := by
      cases m
      cases l
      simp_all
    exact hm

/-- Topologies that lose nothing are the same if they link the same nodes. -/
theorem eq_of_isLinked {t t' : Topology} (hcount : t.nodeCount = t'.nodeCount)
    (hdelay : t.delay = t'.delay) (ht : ∀ l ∈ t.links, l.lossRate = .zero)
    (ht' : ∀ l ∈ t'.links, l.lossRate = .zero)
    (h : ∀ i j, t.isLinked i j = true ↔ t'.isLinked i j = true) : t = t' := by
  have hperm : t.links.Perm t'.links :=
    (List.perm_ext_iff_of_nodup (nodup_pairs t).of_map (nodup_pairs t').of_map).2 fun l => by
      rw [mem_links_iff ht, mem_links_iff ht', h]
  -- there is only one order in which links can be kept
  have hlinks : t.links = t'.links := by
    refine List.Perm.eq_of_pairwise ?_ t.ordered t'.ordered hperm
    intro k l _ _ hkl hlk
    unfold Link.Before at hkl hlk
    omega
  cases t
  cases t'
  simp_all

/-- A link that is added loses nothing, and nothing but the links changes. -/
theorem addLink_lossless {t : Topology} (ht : ∀ l ∈ t.links, l.lossRate = .zero) (a b : Nat) :
    (t.addLink a b).nodeCount = t.nodeCount ∧ (t.addLink a b).delay = t.delay ∧
      ∀ l ∈ (t.addLink a b).links, l.lossRate = .zero := by
  have hinsert : ∀ {k : Link}, k.lossRate = .zero → ∀ l ∈ k.insert t.links, l.lossRate = .zero := by
    intro k hk l hl
    obtain rfl | hl := Link.mem_insert_of_mem hl
    · exact hk
    · exact ht l hl
  unfold addLink
  split
  · exact ⟨rfl, rfl, hinsert rfl⟩
  · split
    · exact ⟨rfl, rfl, hinsert rfl⟩
    · exact ⟨rfl, rfl, ht⟩

/-- Nor does anything else when links are added one after the other. -/
theorem foldl_addLink_lossless (ps : List (Nat × Nat)) {t : Topology}
    (ht : ∀ l ∈ t.links, l.lossRate = .zero) :
    let t' := ps.foldl (fun t p => t.addLink p.1 p.2) t
    t'.nodeCount = t.nodeCount ∧ t'.delay = t.delay ∧ ∀ l ∈ t'.links, l.lossRate = .zero := by
  induction ps generalizing t with
  | nil => exact ⟨rfl, rfl, ht⟩
  | cons p ps ih =>
    obtain ⟨hcount, hdelay, hadded⟩ := addLink_lossless ht p.1 p.2
    obtain ⟨hcount', hdelay', hlast⟩ := ih hadded
    exact ⟨hcount'.trans hcount, hdelay'.trans hdelay, hlast⟩

/-- **A shape comes of adding its links** to nodes that do not hear each other, one link after the
    other. -/
theorem build_eq_foldl (k : Shape) (n : Nat) :
    build k n = (k.pairs n).foldl (fun t p => t.addLink p.1 p.2) (isolated n) := by
  obtain ⟨hcount, hdelay, hlossless⟩ :=
    foldl_addLink_lossless (k.pairs n) (t := isolated n) (by simp [isolated])
  refine eq_of_isLinked hcount.symm hdelay.symm ?_ hlossless fun i j => ?_
  · intro l hl
    obtain ⟨i, -, hl⟩ := List.mem_flatMap.1 hl
    obtain ⟨j, -, hl⟩ := List.mem_filterMap.1 hl
    split at hl
    · obtain rfl := Option.some.inj hl
      rfl
    · cases hl
  · have hwired : (k.pairs n).foldl (fun t p => t.addLink p.1 p.2) (isolated n) =
        wired n ((k.pairs n).map fun p => .link p.1 p.2) := by
      rw [wired, List.foldl_map]
      rfl
    have hnamed : Names ((k.pairs n).map fun p => .link p.1 p.2) i j ↔
        (i, j) ∈ k.pairs n ∨ (j, i) ∈ k.pairs n := by
      simp [Names]
    rw [hwired, isLinked_wired, hnamed, Shape.mem_pairs_or, isLinked_build]
    refine ⟨fun h => ⟨?_, h⟩, fun h => h.2⟩
    rcases h with h | h
    · exact Nat.ne_of_lt (Shape.lt_of_above h)
    · exact Nat.ne_of_gt (Shape.lt_of_above h)

variable (hi : i < n) (hj : j < n)

include hi hj

/-- In a line every node hears the next one. -/
theorem isLinked_line :
    (build .line n).isLinked i j = true ↔ ((i : Int) - j).natAbs = 1 := by
  rw [isLinked_build, Shape.mem_above_line, Shape.mem_above_line]
  omega

/-- A ring of more than two nodes is a line whose ends hear each other. -/
theorem isLinked_ring :
    (build .ring n).isLinked i j = true ↔ ((i : Int) - j).natAbs = 1 ∨
      2 < n ∧ (i = 0 ∧ j = n - 1 ∨ i = n - 1 ∧ j = 0) := by
  rw [isLinked_build, Shape.mem_above_ring, Shape.mem_above_ring]
  omega

/-- In a grid a node hears those next to it in its row, and those above and below it. -/
theorem isLinked_grid :
    (build .grid n).isLinked i j = true ↔
      i / Shape.side n = j / Shape.side n ∧ ((i : Int) - j).natAbs = 1 ∨
        ((i : Int) - j).natAbs = Shape.side n := by
  rw [isLinked_build, Shape.mem_above_grid, Shape.mem_above_grid]
  have hside := Shape.side_pos n
  constructor
  · rintro (⟨_, ⟨hrow, rfl⟩ | rfl⟩ | ⟨_, ⟨hrow, rfl⟩ | rfl⟩)
    · exact .inl ⟨Shape.mod_succ_ne_zero_iff.1 hrow, by omega⟩
    · exact .inr (by omega)
    · exact .inl ⟨(Shape.mod_succ_ne_zero_iff.1 hrow).symm, by omega⟩
    · exact .inr (by omega)
  · rintro (⟨hrow, hgap⟩ | hgap)
    · obtain rfl | rfl : j = i + 1 ∨ i = j + 1 := by omega
      · exact .inl ⟨hj, .inl ⟨Shape.mod_succ_ne_zero_iff.2 hrow, rfl⟩⟩
      · exact .inr ⟨hi, .inl ⟨Shape.mod_succ_ne_zero_iff.2 hrow.symm, rfl⟩⟩
    · obtain rfl | rfl : j = i + Shape.side n ∨ i = j + Shape.side n := by omega
      · exact .inl ⟨hj, .inr rfl⟩
      · exact .inr ⟨hi, .inr rfl⟩

/-- In a full mesh all nodes hear each other. -/
theorem isLinked_full : (build .full n).isLinked i j = true ↔ i ≠ j := by
  rw [isLinked_build, Shape.mem_above_full, Shape.mem_above_full]
  omega

end Topology

end TokenMesh
