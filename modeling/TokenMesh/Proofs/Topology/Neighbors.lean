import Mathlib.Algebra.BigOperators.Group.Finset.Basic
import TokenMesh.Proofs.Topology.Graph

namespace TokenMesh

/-!
# Neighbors

A topology that is put together link by link.  Its links have no direction, whichever way round
they were named, and no node is ever linked to itself.  The neighbors of a node are listed in
ascending order, each of them once.

* `Topology.Edit`, `Topology.wired`: what can be done to links, and what comes of it;
* `Topology.isLinked_wired`: the links are those that were named;
* `Topology.lossRate?_eq`: loss rates are looked up under the lower and the higher node;
* `Topology.pairwise_neighbors`: lists of neighbors are in ascending order;
* `Topology.sum_length_neighbors`: every link makes two neighbors;
* `Topology.length_links_wired`: there are as many links as pairs of nodes that were named;
* `Topology.neighborhoods_exact`: all of this together.
-/

/-- The nodes that a link joins, in no order. -/
def Link.pair (l : Link) : Sym2 Nat := s(l.low, l.high)

namespace Topology

/-! ### Edits -/

/-- One thing that can be done to the links of a topology. -/
inductive Edit
  | link (a b : Nat)
  | lossRate (rate : Binary64)
deriving DecidableEq, Repr

/-- The two nodes that an edit links, if they differ. -/
def Edit.pair? : Edit → Option (Sym2 Nat)
  | link a b => if a = b then none else some s(a, b)
  | lossRate _ => none

/-- A topology after an edit. -/
def edit (t : Topology) : Edit → Topology
  | .link a b => t.addLink a b
  | .lossRate rate => t.setLossRate rate

/-- What comes of some edits, one after the other, where no node heard another one before. -/
def wired (nodeCount : Nat) (es : List Edit) : Topology := es.foldl edit (isolated nodeCount)

/-- Some edits link two nodes, in either order. -/
def Names (es : List Edit) (i j : Nat) : Prop := .link i j ∈ es ∨ .link j i ∈ es

/-! ### Who is linked to whom -/

/-- A link that is put in its place joins its own ends, and all others join theirs. -/
theorem exists_joins_insert {k : Link} {ls : List Link} {i j : Nat} :
    (∃ l ∈ Link.insert k ls, l.joins i j = true) ↔
      k.joins i j = true ∨ ∃ l ∈ ls, l.joins i j = true := by
  induction ls with
  | nil => simp [Link.insert]
  | cons l ls ih =>
    unfold Link.insert
    split
    · rw [List.exists_mem_cons_iff]
    · split
      · rw [List.exists_mem_cons_iff, ih, List.exists_mem_cons_iff]
        exact or_left_comm
      · next hk hl =>
        -- the link that makes way joins the same nodes
        obtain ⟨hlow, hhigh⟩ := Link.ends_eq_of_not_before hk hl
        have hsame : l.joins i j = k.joins i j := by
          unfold Link.joins
          rw [hlow, hhigh]
        rw [List.exists_mem_cons_iff, List.exists_mem_cons_iff, hsame]
        tauto

theorem joins_perfect {low high : Nat} {h : low < high} {i j : Nat} :
    (Link.perfect low high h).joins i j = true ↔ low = i ∧ high = j ∨ low = j ∧ high = i := by
  simp [Link.joins, Link.perfect]

/-- A new link joins two nodes if they differ, and no others. -/
theorem isLinked_addLink {t : Topology} {a b i j : Nat} :
    (t.addLink a b).isLinked i j = true ↔
      i ≠ j ∧ (a = i ∧ b = j ∨ a = j ∧ b = i) ∨ t.isLinked i j = true := by
  unfold addLink
  split
  · rw [isLinked_iff, exists_joins_insert, ← isLinked_iff, joins_perfect]
    exact or_congr_left (by omega)
  · split
    · rw [isLinked_iff, exists_joins_insert, ← isLinked_iff, joins_perfect]
      exact or_congr_left (by omega)
    · exact (or_iff_right (by omega)).symm

/-- An edit adds the link that it names, and takes none away. -/
theorem isLinked_edit {t : Topology} {e : Edit} {i j : Nat} :
    (t.edit e).isLinked i j = true ↔
      i ≠ j ∧ Names [e] i j ∨ t.isLinked i j = true := by
  cases e with
  | link a b =>
    show (t.addLink a b).isLinked i j = true ↔ _
    rw [isLinked_addLink]
    simp only [Names, List.mem_singleton, Edit.link.injEq]
    exact or_congr_left (by omega)
  | lossRate rate =>
    show (t.setLossRate rate).isLinked i j = true ↔ _
    rw [isLinked_setLossRate]
    simp [Names]

/-- Two nodes are linked just if they differ and some edit has linked them. -/
theorem isLinked_wired {n : Nat} {es : List Edit} {i j : Nat} :
    (wired n es).isLinked i j = true ↔ i ≠ j ∧ Names es i j := by
  -- the induction is on the edits; what was linked before the first of them goes on to be
  suffices h : ∀ t : Topology, (es.foldl edit t).isLinked i j = true ↔
      i ≠ j ∧ Names es i j ∨ t.isLinked i j = true by
    have hisolated : (isolated n).isLinked i j = false := rfl
    simp only [wired, h, hisolated, Bool.false_eq_true, or_false]
  induction es with
  | nil => simp [Names]
  | cons e es ih =>
    intro t
    rw [List.foldl_cons, ih, isLinked_edit]
    simp only [Names, List.mem_cons, List.not_mem_nil, or_false]
    tauto

/-- A link joins two nodes if it is kept under the lower and the higher one. -/
theorem joins_eq (l : Link) (i j : Nat) :
    l.joins i j = (l.low == min i j && l.high == max i j) := by
  have hlt := l.low_lt_high
  rw [Bool.eq_iff_iff]
  simp only [Link.joins, Bool.or_eq_true, Bool.and_eq_true, beq_iff_eq]
  omega

/-- Loss rates are looked up under the lower and the higher of two nodes. -/
theorem lossRate?_eq (t : Topology) (i j : Nat) :
    t.lossRate? i j =
      (t.links.find? fun l => l.low == min i j && l.high == max i j).map (·.lossRate) := by
  unfold lossRate?
  simp only [joins_eq]

theorem lossRate?_comm (t : Topology) (i j : Nat) : t.lossRate? i j = t.lossRate? j i := by
  rw [lossRate?_eq, lossRate?_eq, Nat.min_comm, Nat.max_comm]

/-! ### Lists of neighbors -/

/-- The neighbors of a node are listed in ascending order, each of them once. -/
theorem pairwise_neighbors (t : Topology) (i : Nat) : (t.neighbors i).Pairwise (· < ·) := by
  refine List.Pairwise.filterMap _ ?_ t.ordered
  intro k l hkl a ha b hb
  -- the ends of the two links that are not `i`
  rw [otherEnd?_eq_some_iff] at ha hb
  have hk := k.low_lt_high
  have hl := l.low_lt_high
  simp only [Link.joins, Bool.or_eq_true, Bool.and_eq_true, beq_iff_eq] at ha hb
  unfold Link.Before at hkl
  omega

/-- The ends of all links, each of them once for every link that it has. -/
def ends (t : Topology) : List Nat := t.links.flatMap fun l => [l.low, l.high]

theorem mem_ends_iff {t : Topology} {i : Nat} : i ∈ t.ends ↔ ∃ j, t.isLinked i j = true := by
  simp only [ends, List.mem_flatMap, List.mem_cons, List.not_mem_nil, or_false, isLinked_iff,
    Link.joins, Bool.or_eq_true, Bool.and_eq_true, beq_iff_eq]
  constructor
  · rintro ⟨l, hl, rfl | rfl⟩
    · exact ⟨l.high, l, hl, .inl ⟨rfl, rfl⟩⟩
    · exact ⟨l.low, l, hl, .inr ⟨rfl, rfl⟩⟩
  · rintro ⟨j, l, hl, ⟨rfl, _⟩ | ⟨_, rfl⟩⟩
    · exact ⟨l, hl, .inl rfl⟩
    · exact ⟨l, hl, .inr rfl⟩

/-- A node has as many neighbors as links. -/
theorem length_neighbors (t : Topology) (i : Nat) : (t.neighbors i).length = t.ends.count i := by
  unfold neighbors ends
  induction t.links with
  | nil => rfl
  | cons l ls ih =>
    have hlt := l.low_lt_high
    rw [List.flatMap_cons, List.count_append, ← ih, List.filterMap_cons]
    by_cases hlow : l.low = i
    · have hhigh : l.high ≠ i := by omega
      simp [Link.otherEnd?, hlow, hhigh, Nat.add_comm]
    · by_cases hhigh : l.high = i
      · simp [Link.otherEnd?, hlow, hhigh, Nat.add_comm]
      · simp [Link.otherEnd?, hlow, hhigh]

/-- Every link makes two neighbors. -/
theorem sum_length_neighbors (t : Topology) :
    ∑ i ∈ t.ends.toFinset, (t.neighbors i).length = 2 * t.links.length := by
  simp only [length_neighbors]
  rw [List.sum_toFinset_count_eq_length, ends, List.length_flatMap]
  simp [Nat.mul_comm]

/-! ### The number of links -/

theorem pair_eq_iff {l : Link} {i j : Nat} : l.pair = s(i, j) ↔ l.joins i j = true := by
  simp [Link.pair, Link.joins]

/-- No two links join the same nodes. -/
theorem nodup_pairs (t : Topology) : (t.links.map Link.pair).Nodup := by
  refine List.pairwise_map.2 (t.ordered.imp ?_)
  intro k l hkl heq
  have hk := k.low_lt_high
  have hl := l.low_lt_high
  obtain ⟨hlow, hhigh⟩ | ⟨hlow, hhigh⟩ := Sym2.eq_iff.1 heq
  all_goals
    unfold Link.Before at hkl
    omega

/-- An edit links two different nodes that it names, in either order. -/
theorem pair?_eq_some_iff {e : Edit} {i j : Nat} :
    e.pair? = some s(i, j) ↔ i ≠ j ∧ (e = .link i j ∨ e = .link j i) := by
  cases e with
  | link a b =>
    simp only [Edit.pair?, Option.ite_none_left_eq_some, Option.some.injEq, Sym2.eq_iff,
      Edit.link.injEq]
    omega
  | lossRate rate => simp [Edit.pair?]

/-- The links are the pairs of different nodes that were named. -/
theorem mem_pairs_iff {n : Nat} {es : List Edit} {p : Sym2 Nat} :
    p ∈ (wired n es).links.map Link.pair ↔ p ∈ es.filterMap Edit.pair? := by
  induction p with
  | _ i j =>
    have hlinked : s(i, j) ∈ (wired n es).links.map Link.pair ↔
        (wired n es).isLinked i j = true := by
      simp only [List.mem_map, pair_eq_iff, isLinked_iff]
    rw [hlinked, isLinked_wired, List.mem_filterMap]
    simp only [pair?_eq_some_iff]
    constructor
    · rintro ⟨hne, h | h⟩
      · exact ⟨_, h, hne, .inl rfl⟩
      · exact ⟨_, h, hne, .inr rfl⟩
    · rintro ⟨_, h, hne, rfl | rfl⟩
      · exact ⟨hne, .inl h⟩
      · exact ⟨hne, .inr h⟩

/-- There are as many links as pairs of different nodes that were named. -/
theorem length_links_wired (n : Nat) (es : List Edit) :
    (wired n es).links.length = (es.filterMap Edit.pair?).toFinset.card := by
  have hsame : ((wired n es).links.map Link.pair).toFinset =
      (es.filterMap Edit.pair?).toFinset := by
    ext p
    rw [List.mem_toFinset, List.mem_toFinset, mem_pairs_iff]
  rw [← hsame, List.toFinset_card_of_nodup (nodup_pairs _), List.length_map]

/-- **Neighborhoods.**  However links have been added and loss rates set, in any order and any
    number of times, links have no direction, and two nodes are linked just if they differ and were
    named together; then, and only then, there is a loss rate, the same in both directions.  The
    neighbors of a node are listed in strictly ascending order: they are the nodes that it is
    linked to, and never itself.  All lists together are twice as long as there are links, which
    are as many as pairs of different nodes that were named. -/
theorem neighborhoods_exact (n : Nat) (es : List Edit) :
    let t := wired n es
    (∀ i j, t.isLinked i j = t.isLinked j i) ∧
      (∀ i j, t.isLinked i j = true ↔ i ≠ j ∧ (.link i j ∈ es ∨ .link j i ∈ es)) ∧
      (∀ i j, t.lossRate? i j = t.lossRate? j i ∧
        (t.lossRate? i j ≠ none ↔ i ≠ j ∧ (.link i j ∈ es ∨ .link j i ∈ es))) ∧
      (∀ i, (t.neighbors i).Pairwise (· < ·) ∧ i ∉ t.neighbors i ∧
        ∀ j, j ∈ t.neighbors i ↔ t.isLinked i j = true) ∧
      (∀ i, i ∈ t.ends ↔ ∃ j, t.isLinked i j = true) ∧
      ∑ i ∈ t.ends.toFinset, (t.neighbors i).length = 2 * t.links.length ∧
      t.links.length = (es.filterMap Edit.pair?).toFinset.card := by
  intro t
  refine ⟨t.isLinked_comm, fun i j => isLinked_wired, ?_, ?_, fun i => mem_ends_iff,
    t.sum_length_neighbors, length_links_wired n es⟩
  · intro i j
    refine ⟨t.lossRate?_comm i j, ?_⟩
    rw [Option.ne_none_iff_isSome]
    exact isLinked_wired
  · intro i
    refine ⟨t.pairwise_neighbors i, ?_, fun j => mem_neighbors_iff⟩
    intro h
    exact ne_of_isLinked (mem_neighbors_iff.1 h) rfl

/-- A link that is named twice, and once from each end, is there once. -/
example : (wired 3 [.link 2 0, .lossRate .one, .link 0 1, .link 1 1, .link 0 2]).neighbors 0 =
    [1, 2] := by decide

end Topology

end TokenMesh
