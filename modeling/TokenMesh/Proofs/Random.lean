import TokenMesh.NeighborTable

namespace TokenMesh

/-!
# Choices lie within their bounds

A draw times a bound, divided by the range of draws, is below the bound, and stays so when the
carry of a second draw is added.  So nothing is ever chosen from beyond the end of a list.

* `Generator.below?_lt`: a number below a bound is below it, whatever is drawn;
* `Generator.below?_eq_none_iff`: only below zero there is no number;
* `NeighborTable.pick_cases`: a peer is chosen as long as one is known.
-/

namespace Generator

variable {bound : Nat} {g : Generator}

/-- The range of draws of either width. -/
theorem draw_lt (wide : Bool) (g : Generator) :
    (g.draw wide).1 < if wide then UInt64.size else UInt32.size := by
  cases wide with
  | true => exact UInt64.toNat_lt_size _
  | false => exact UInt32.toNat_lt_size _

/-- The upper half of a draw times a bound is below the bound. -/
theorem high_lt {range first : Nat} (hb : 0 < bound) (h : first < range) :
    first * bound / range < bound :=
  Nat.div_lt_of_lt_mul (Nat.mul_lt_mul_of_pos_right h hb)

/-- If the lower half leaves room for a carry, then the upper half leaves room for it, too. -/
theorem high_succ_lt {range first second : Nat} (hb : 0 < bound) (h : first < range)
    (h' : second < range) (hcarry : range ≤ first * bound % range + second * bound / range) :
    first * bound / range + 1 < bound := by
  have hsecond : second * bound / range < bound := high_lt hb h'
  have hsplit := Nat.div_add_mod (first * bound) range
  have hfirst : (first + 1) * bound ≤ range * bound := Nat.mul_le_mul_right _ h
  rw [Nat.succ_mul] at hfirst
  have hroom : range * (first * bound / range + 1) < range * bound := by
    rw [Nat.mul_succ]
    omega
  exact Nat.lt_of_mul_lt_mul_left hroom

/-- A number below a bound is below it. -/
theorem below?_lt {k : Nat} {g' : Generator} (h : g.below? bound = some (k, g')) : k < bound := by
  unfold below? at h
  split at h
  · cases h
  next hzero =>
  have hb : 0 < bound := Nat.pos_of_ne_zero hzero
  have hfirst := g.draw_lt (UInt32.size ≤ bound)
  have hsecond := (g.draw (UInt32.size ≤ bound)).2.draw_lt (UInt32.size ≤ bound)
  -- both widths are alike from here on
  simp only at h
  generalize (if decide (UInt32.size ≤ bound) = true then UInt64.size else UInt32.size) = range at *
  split at h
  · obtain ⟨rfl, _⟩ := Prod.mk.inj (Option.some.inj h)
    exact high_lt hb hfirst
  · obtain ⟨rfl, _⟩ := Prod.mk.inj (Option.some.inj h)
    split
    · next hcarry => exact high_succ_lt hb hfirst hsecond hcarry
    · exact high_lt hb hfirst

/-- There is always a number below a bound, unless the bound is zero. -/
theorem below?_eq_none_iff : g.below? bound = none ↔ bound = 0 := by
  unfold below?
  split
  · next hzero => simp [hzero]
  · next hzero =>
    simp only [hzero, iff_false]
    generalize (if decide (UInt32.size ≤ bound) = true then UInt64.size else UInt32.size) = range
    split <;> exact Option.some_ne_none _

theorem exists_below? (hb : 0 < bound) (g : Generator) :
    ∃ k g', g.below? bound = some (k, g') ∧ k < bound := by
  obtain ⟨⟨k, g'⟩, h⟩ := Option.ne_none_iff_exists'.1
    (fun hnone => Nat.ne_of_gt hb (below?_eq_none_iff (g := g).1 hnone))
  exact ⟨k, g', h, below?_lt h⟩

end Generator

/-- A peer is chosen as long as one is known, and nothing is drawn where none is. -/
theorem NeighborTable.pick_cases (t : NeighborTable) (g : Generator) :
    (t.entries = [] ∧ t.pick g = (none, g)) ∨ ∃ peer ∈ t.entries, (t.pick g).1 = some peer := by
  rcases Nat.eq_zero_or_pos t.size with hzero | hpos
  · left
    refine ⟨List.length_eq_zero_iff.1 hzero, ?_⟩
    unfold pick
    rw [Generator.below?_eq_none_iff.2 hzero]
  · right
    obtain ⟨k, g', hk, hlt⟩ := Generator.exists_below? hpos g
    refine ⟨t.entries[k], List.getElem_mem hlt, ?_⟩
    unfold pick
    rw [hk]
    exact List.getElem?_eq_getElem hlt

end TokenMesh
