import TokenMesh.Proofs.Topology.Connectivity
import TokenMesh.Proofs.Topology.Links

namespace TokenMesh

/-!
# Shapes that stay in one piece

How many nodes a line, a ring, a grid and a full mesh can do without before they fall apart.

* `Topology.Joined.ascending`: nodes are joined by the way through all nodes between them;
* `Topology.connects_line_iff`: a line is in one piece just if no node is missing between others;
* `Topology.connects_ring`, `Topology.connects_full`, `Topology.connects_grid`: a ring does without
  any one node, a full mesh without any nodes at all, and a grid is in one piece;
* `Topology.shapes_exact`: the links of all shapes, and when each is in one piece.
-/

namespace Topology

variable {t : Topology} {up : Nat → Prop} {n a b c : Nat}

/-- Nodes are joined through all nodes between them, if those are up and each hears the next. -/
theorem Joined.ascending (hab : a ≤ b) (hup : ∀ c, a ≤ c → c ≤ b → up c)
    (hl : ∀ c, a ≤ c → c < b → t.isLinked c (c + 1) = true) : t.Joined up a b := by
  -- the induction is on how far the way has led
  induction b, hab using Nat.le_induction with
  | base => exact .refl (hup a le_rfl le_rfl)
  | succ b hab ih =>
    have hway := ih (fun c hac hcb => hup c hac (Nat.le_succ_of_le hcb))
      fun c hac hcb => hl c hac (Nat.lt_succ_of_lt hcb)
    exact hway.step (hl b hab b.lt_succ_self) (hup (b + 1) (Nat.le_succ_of_le hab) le_rfl)

/-- It is enough to join each node to those that come after it. -/
theorem connects_of_lt (h : ∀ a b, up a → up b → a < b → t.Joined up a b) : t.Connects up := by
  intro a b ha hb
  obtain hlt | rfl | hlt := Nat.lt_trichotomy a b
  · exact h a b ha hb hlt
  · exact .refl ha
  · exact (h b a hb ha hlt).symm

/-! ### Ranges -/

/-- Nodes without a gap between them form a range. -/
theorem exists_range_iff (hlt : ∀ i, up i → i < n) :
    (∀ a b c, up a → up c → a < b → b < c → up b) ↔
      ∃ first past, ∀ i < n, up i ↔ first ≤ i ∧ i < past := by
  classical
  constructor
  · intro hgap
    by_cases hex : ∃ i, up i
    · -- from the first node that is up to the last one
      obtain ⟨i, hi⟩ := hex
      have hfirst := Nat.find_spec ⟨i, hi⟩
      have hlast := Nat.findGreatest_spec (P := up) (hlt i hi).le hi
      refine ⟨Nat.find ⟨i, hi⟩, Nat.findGreatest up n + 1, fun b hb => ⟨fun hup => ?_, ?_⟩⟩
      · exact ⟨Nat.find_min' _ hup, Nat.lt_succ_of_le (Nat.le_findGreatest hb.le hup)⟩
      · rintro ⟨hle, hge⟩
        obtain heq | hlt' := Nat.eq_or_lt_of_le hle
        · rwa [← heq]
        obtain heq | hgt := Nat.eq_or_lt_of_le (Nat.le_of_lt_succ hge)
        · rwa [heq]
        · exact hgap _ b _ hfirst hlast hlt' hgt
    · exact ⟨0, 0, fun b _ => ⟨fun hup => absurd ⟨b, hup⟩ hex, fun h => absurd h.2 (by omega)⟩⟩
  · rintro ⟨first, past, hrange⟩ a b c ha hc hab hbc
    have hcn := hlt c hc
    have hfirst := (hrange a (by omega)).1 ha
    have hpast := (hrange c hcn).1 hc
    exact (hrange b (by omega)).2 (by omega)

/-! ### Lines and rings -/

/-- In a line and in a ring every node hears the next one. -/
theorem isLinked_succ {k : Shape} (hk : k = .line ∨ k = .ring) (h : a + 1 < n) :
    (build k n).isLinked a (a + 1) = true := by
  rw [isLinked_build]
  obtain rfl | rfl := hk
  · exact .inl (Shape.mem_above_line.2 ⟨rfl, h⟩)
  · exact .inl (Shape.mem_above_ring.2 (.inl ⟨rfl, h⟩))

/-- A path of a line never gets past a node that is down. -/
theorem lt_of_joined_line (h : (build .line n).Joined up a c) (hab : a < b) (hb : ¬ up b) :
    c < b := by
  induction h with
  | refl _ => exact hab
  | @step c d _ hl hd ih =>
    have hne : d ≠ b := fun heq => hb (heq ▸ hd)
    obtain ⟨hc, hd⟩ := lt_of_isLinked_build hl
    have hgap := (isLinked_line hc hd).1 hl
    omega

/-- A line is in one piece just if no node is missing between two others. -/
theorem connects_line_iff (hlt : ∀ i, up i → i < n) :
    (build .line n).Connects up ↔ ∀ a b c, up a → up c → a < b → b < c → up b := by
  constructor
  · intro h a b c ha hc hab hbc
    by_contra hb
    have hcb := lt_of_joined_line (h a c ha hc) hab hb
    omega
  · intro h
    apply connects_of_lt
    intro a b ha hb hab
    refine .ascending hab.le (fun c hac hcb => ?_) fun c _ hcb => isLinked_succ (.inl rfl) ?_
    · obtain rfl | hac := Nat.eq_or_lt_of_le hac
      · exact ha
      obtain rfl | hcb := Nat.eq_or_lt_of_le hcb
      · exact hb
      · exact h a c b ha hb hac hcb
    · have := hlt b hb
      omega

/-- A ring does without any one of its nodes. -/
theorem connects_ring (hlt : ∀ i, up i → i < n) {x : Nat} (hup : ∀ i < n, i ≠ x → up i) :
    (build .ring n).Connects up := by
  apply connects_of_lt
  intro a b ha hb hab
  have hbn := hlt b hb
  have hsucc : ∀ c, c + 1 < n → (build .ring n).isLinked c (c + 1) = true :=
    fun c hc => isLinked_succ (.inr rfl) hc
  by_cases hx : a < x ∧ x < b
  · -- the way that `x` is not on leads over the ends
    have hfront : (build .ring n).Joined up a 0 := by
      refine (Joined.ascending (Nat.zero_le a) (fun c _ hc => hup c ?_ ?_) fun c _ hc =>
        hsucc c ?_).symm <;> omega
    have hback : (build .ring n).Joined up (n - 1) b := by
      refine (Joined.ascending (by omega) (fun c _ hc => hup c ?_ ?_) fun c _ hc =>
        hsucc c ?_).symm <;> omega
    have hends : (build .ring n).isLinked 0 (n - 1) = true :=
      (isLinked_ring (by omega) (by omega)).2 (.inr ⟨by omega, .inl ⟨rfl, rfl⟩⟩)
    exact (hfront.step hends hback.left).trans hback
  · refine .ascending hab.le (fun c hac hcb => ?_) fun c _ hcb => hsucc c (by omega)
    by_cases hca : c = a
    · rwa [hca]
    by_cases hcb' : c = b
    · rwa [hcb']
    · exact hup c (by omega) (by omega)

/-! ### Full meshes and grids -/

/-- A full mesh does without any nodes. -/
theorem connects_full (hlt : ∀ i, up i → i < n) : (build .full n).Connects up := by
  apply connects_of_lt
  intro a b ha hb hab
  exact .single ha hb ((isLinked_full (hlt a ha) (hlt b hb)).2 hab.ne)

/-- A grid is in one piece, whether its last row is full or not. -/
theorem connects_grid (hlt : ∀ i, up i → i < n) (hup : ∀ i < n, up i) :
    (build .grid n).Connects up := by
  have hside := Shape.side_pos n
  apply connects_of_joined (a := 0)
  intro b hb
  have hn := hlt b hb
  -- a node is joined to the one before it in its row or, if it begins a row, to the one above it
  induction b using Nat.strongRecOn with
  | ind b ih =>
    by_cases hzero : b = 0
    · rw [hzero]
      exact .refl (hup 0 (by omega))
    have habove : ∃ a < b, b ∈ Shape.above .grid n a := by
      by_cases hrow : b % Shape.side n = 0
      · have hle := Nat.le_of_dvd (Nat.pos_of_ne_zero hzero) (Nat.dvd_of_mod_eq_zero hrow)
        exact ⟨b - Shape.side n, by omega, Shape.mem_above_grid.2 ⟨hn, .inr (by omega)⟩⟩
      · exact ⟨b - 1, by omega, Shape.mem_above_grid.2 ⟨hn, .inl ⟨hrow, by omega⟩⟩⟩
    obtain ⟨a, hab, habove⟩ := habove
    have ha := hup a (by omega)
    exact (ih a hab ha (by omega)).step (isLinked_build.2 (.inl habove)) hb

/-! ### All shapes -/

/-- With all its nodes every shape is in one piece. -/
theorem connects_build (k : Shape) (hlt : ∀ i, up i → i < n) (hup : ∀ i < n, up i) :
    (build k n).Connects up := by
  cases k with
  | line =>
    exact (connects_line_iff hlt).2 fun a b c _ hc _ hbc => hup b (Nat.lt_trans hbc (hlt c hc))
  | ring => exact connects_ring hlt (x := 0) fun i hi _ => hup i hi
  | grid => exact connects_grid hlt hup
  | full => exact connects_full hlt

/-- The answer to the question whether a shape is connected is always there, and is right. -/
theorem answer_build (k : Shape) (n : Nat) (down : List Bool) :
    ∃ answer, (build k n).isConnectedWithout? down = some answer ∧
      (answer = true ↔ (build k n).Connects ((build k n).IsUp down)) := by
  obtain ⟨answer, h⟩ := exists_isConnectedWithout? (closed_build k n) down
  exact ⟨answer, h, connects_iff h⟩

theorem isConnectedWithout?_build {k : Shape} {down : List Bool}
    (h : (build k n).Connects ((build k n).IsUp down)) :
    (build k n).isConnectedWithout? down = some true := by
  obtain ⟨answer, hanswer, hiff⟩ := answer_build k n down
  rw [hanswer, hiff.2 h]

theorem isUp_build {k : Shape} {down : List Bool} {i : Nat} :
    (build k n).IsUp down i ↔ i < n ∧ down[i]? ≠ some true := isUp_iff_getElem?

/-- **Shapes.**  In a line of any number of nodes the nodes hear those next to them; a ring of more
    than two nodes joins the ends of a line; in a full mesh all nodes hear each other; and in a
    grid, whose rows are as long as the side of the least square that holds all nodes, they hear
    those next to them in their row, and those above and below them.  No link of a shape leads out
    of its nodes.  With no node down every shape is connected, the last row of a grid being full or not.
    A ring is connected without any one node, a full mesh without any nodes, and a line just if the
    nodes that are left form one range. -/
theorem shapes_exact :
    (∀ n i j, i < n → j < n →
      ((build .line n).isLinked i j = true ↔ ((i : Int) - j).natAbs = 1)) ∧
    (∀ n i j, i < n → j < n →
      ((build .ring n).isLinked i j = true ↔ ((i : Int) - j).natAbs = 1 ∨
        2 < n ∧ (i = 0 ∧ j = n - 1 ∨ i = n - 1 ∧ j = 0))) ∧
    (∀ n i j, i < n → j < n → ((build .full n).isLinked i j = true ↔ i ≠ j)) ∧
    (∀ n, ∃ w, IsLeast {w | 0 < w ∧ n ≤ w * w} w ∧ ∀ i j, i < n → j < n →
      ((build .grid n).isLinked i j = true ↔
        i / w = j / w ∧ ((i : Int) - j).natAbs = 1 ∨ ((i : Int) - j).natAbs = w)) ∧
    (∀ k n i j, (build k n).isLinked i j = true → i < n ∧ j < n) ∧
    (∀ k n down, (∀ i < n, down[i]? ≠ some true) →
      (build k n).isConnectedWithout? down = some true) ∧
    (∀ n down x, (∀ i < n, i ≠ x → down[i]? ≠ some true) →
      (build .ring n).isConnectedWithout? down = some true) ∧
    (∀ n down, (build .full n).isConnectedWithout? down = some true) ∧
    (∀ n down, ∃ answer, (build .line n).isConnectedWithout? down = some answer ∧
      (answer = true ↔ ∃ first past, ∀ i < n,
        down[i]? ≠ some true ↔ first ≤ i ∧ i < past)) := by
  have hlt : ∀ {k : Shape} {n : Nat} {down : List Bool} (i), (build k n).IsUp down i → i < n :=
    fun i h => h.1
  refine ⟨fun n i j => isLinked_line, fun n i j => isLinked_ring, fun n i j => isLinked_full,
    fun n => ⟨_, Shape.isLeast_side n, fun i j => isLinked_grid⟩,
    fun k n i j => lt_of_isLinked_build, ?_, ?_, ?_, ?_⟩
  · intro k n down hdown
    exact isConnectedWithout?_build
      (connects_build k hlt fun i hi => isUp_build.2 ⟨hi, hdown i hi⟩)
  · intro n down x hdown
    exact isConnectedWithout?_build
      (connects_ring hlt fun i hi hne => isUp_build.2 ⟨hi, hdown i hi hne⟩)
  · intro n down
    exact isConnectedWithout?_build (connects_full hlt)
  · intro n down
    obtain ⟨answer, hanswer, hiff⟩ := answer_build .line n down
    refine ⟨answer, hanswer, ?_⟩
    rw [hiff, connects_line_iff hlt, exists_range_iff hlt]
    refine exists_congr fun first => exists_congr fun past => forall₂_congr fun i hi => ?_
    rw [isUp_build, and_iff_right hi]

/-- Eight nodes make a grid of three rows, the last of which is not full. -/
theorem shapes_exact_grid :
    (build .grid 8).isLinked 4 7 = true ∧
    (build .grid 8).isLinked 2 3 = false ∧
    (build .grid 8).isConnectedWithout? [] = some true ∧
    (build .ring 4).isConnectedWithout? [false, true] = some true ∧
    (build .line 4).isConnectedWithout? [true, false, false, true] = some true := by
  obtain ⟨_, _, _, hgrid, _, hwhole, hring, _, hline⟩ := shapes_exact
  obtain ⟨w, hw, hlinked⟩ := hgrid 8
  obtain rfl : w = 3 := by
    refine IsLeast.unique hw ⟨by decide, fun v hv => ?_⟩
    by_contra hlt
    have hle : v * v ≤ 2 * 2 := Nat.mul_le_mul (by omega) (by omega)
    have := hv.2
    omega
  refine ⟨(hlinked 4 7 (by decide) (by decide)).2 (by decide), ?_, hwhole .grid 8 [] (by simp),
    hring 4 [false, true] 1 (by decide), ?_⟩
  · rw [← Bool.not_eq_true, hlinked 2 3 (by decide) (by decide)]
    decide
  · obtain ⟨answer, hanswer, hiff⟩ := hline 4 [true, false, false, true]
    rw [hanswer, hiff.2 ⟨1, 3, by decide⟩]

end Topology

end TokenMesh
