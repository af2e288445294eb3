import Mathlib.Tactic.Ring
import TokenMesh.Binary64

namespace TokenMesh.Binary64

/-!
# How large a rounded number gets

Rounding makes no number of moderate size infinite.  What bounds a magnitude is the length of its
numerator: one bit more there is at most one exponent more, and a significand of one bit too many
spills over into the exponent.

* `nearest_le`: the bound on a rounded quotient;
* `magnitude_ofRatio_le`, `magnitude_times_lt`: what it means for quotients and products;
* `magnitude_neg`: the sign has no part in it.
-/

variable {num den k : Nat}

/-! ### Rounding -/

/-- A quotient is rounded up by one at most. -/
theorem roundDiv_le (num den : Nat) : roundDiv num den ≤ num / den + 1 := by
  simp only [roundDiv]
  repeat' split
  all_goals omega

/-- A quotient divided by a power of two, as a quotient of natural numbers. -/
def scaleDown (num den : Nat) (e : Int) : Nat × Nat :=
  if 0 ≤ e then (num, den <<< e.toNat) else (num <<< (-e).toNat, den)

/-- Behind all but 53 bits of a quotient there are 54 bits left at most. -/
theorem div_scaleDown_lt (hden : 0 < den) {e : Int} (he : (num.log2 : Int) - den.log2 - 53 ≤ e) :
    (scaleDown num den e).1 / (scaleDown num den e).2 < 2 ^ 54 := by
  have hnum : num < 2 ^ (num.log2 + 1) := Nat.lt_log2_self
  have hlog : 2 ^ den.log2 ≤ den := Nat.log2_self_le (Nat.ne_of_gt hden)
  unfold scaleDown
  -- the power of two makes the denominator larger, or its inverse the numerator
  split
  · rw [Nat.shiftLeft_eq]
    apply Nat.div_lt_of_lt_mul
    calc num < 2 ^ (num.log2 + 1) := hnum
      _ ≤ 2 ^ (den.log2 + e.toNat + 54) := Nat.pow_le_pow_right (by decide) (by omega)
      _ = 2 ^ den.log2 * 2 ^ e.toNat * 2 ^ 54 := by ring
      _ ≤ den * 2 ^ e.toNat * 2 ^ 54 := by gcongr
  · rw [Nat.shiftLeft_eq]
    apply Nat.div_lt_of_lt_mul
    calc num * 2 ^ (-e).toNat < 2 ^ (num.log2 + 1) * 2 ^ (-e).toNat :=
          Nat.mul_lt_mul_of_pos_right hnum (Nat.two_pow_pos _)
      _ = 2 ^ (num.log2 + 1 + (-e).toNat) := by ring
      _ ≤ 2 ^ (den.log2 + 54) := Nat.pow_le_pow_right (by decide) (by omega)
      _ = 2 ^ den.log2 * 2 ^ 54 := by ring
      _ ≤ den * 2 ^ 54 := by gcongr

/-- The magnitude nearest to a quotient is bounded by the length of the numerator. -/
theorem nearest_le (hden : 0 < den) (hnum : 0 < num) (h : num < 2 ^ k) :
    nearest num den ≤ (k + 1025) * 2 ^ 52 := by
  have hlog : num.log2 < k := (Nat.log2_lt (Nat.ne_of_gt hnum)).2 h
  -- the exponent is the one that leaves 53 bits, or one less, but not below the least one
  obtain ⟨e, hlow, hhigh, heq⟩ : ∃ e : Int, (num.log2 : Int) - den.log2 - 53 ≤ e ∧
      e ≤ max (-1074) ((num.log2 : Int) - den.log2 - 52) ∧
      nearest num den = min infinity.magnitude
        ((e + 1074).toNat <<< 52 + roundDiv (scaleDown num den e).1 (scaleDown num den e).2) := by
    refine ⟨_, ?_, ?_, rfl⟩
    · split <;> omega
    · split <;> omega
  have hround := roundDiv_le (scaleDown num den e).1 (scaleDown num den e).2
  have hdiv := div_scaleDown_lt hden hlow
  have hexponent : (e + 1074).toNat * 2 ^ 52 ≤ (k + 1021) * 2 ^ 52 :=
    Nat.mul_le_mul_right _ (by omega)
  rw [heq, Nat.shiftLeft_eq]
  calc min infinity.magnitude _
    _ ≤ (e + 1074).toNat * 2 ^ 52 + roundDiv (scaleDown num den e).1 (scaleDown num den e).2 :=
        Nat.min_le_right _ _
    _ ≤ (k + 1021) * 2 ^ 52 + 2 ^ 54 := Nat.add_le_add hexponent (by omega)
    _ = (k + 1025) * 2 ^ 52 := by ring

theorem nearest_le_infinity (num den : Nat) : nearest num den ≤ infinity.magnitude := by
  unfold nearest
  exact Nat.min_le_left _ _

/-! ### Magnitudes -/

theorem magnitude_zero : zero.magnitude = 0 := by decide

/-- The sign has no part in the magnitude. -/
theorem magnitude_neg (x : Binary64) : x.neg.magnitude = x.magnitude := by
  have hsign : (0x8000000000000000 : UInt64).toNat % 2 ^ 63 = 0 := by decide
  simp only [magnitude, neg, UInt64.toNat_xor, Nat.one_shiftLeft, Nat.xor_mod_two_pow, hsign,
    Nat.xor_zero]

theorem magnitude_ofRatio_le (hden : 0 < den) (h : num < 2 ^ k) :
    (ofRatio num den).magnitude ≤ (k + 1025) * 2 ^ 52 := by
  unfold ofRatio
  split
  · rw [magnitude_zero]
    exact Nat.zero_le _
  · next hnum =>
    have hle := nearest_le hden (Nat.pos_of_ne_zero hnum) h
    have hinfinity := nearest_le_infinity num den
    have hmax : infinity.magnitude < 2 ^ 63 := by decide
    have hfits : nearest num den < 2 ^ 63 := Nat.lt_of_le_of_lt hinfinity hmax
    have hword : nearest num den < UInt64.size := Nat.lt_trans hfits (by decide)
    rw [magnitude, Nat.toUInt64_eq, UInt64.toNat_ofNat_of_lt' hword, Nat.one_shiftLeft,
      Nat.mod_eq_of_lt hfits]
    exact hle

theorem significand_lt (x : Binary64) : x.significand < 2 ^ 53 := by
  simp only [significand, Nat.one_shiftLeft]
  split <;> omega

/-- The numerator of a number is as long as its magnitude asks for. -/
theorem ratio_fst_lt {x : Binary64} (h : x.magnitude ≤ (k + 1075) * 2 ^ 52) :
    x.ratio.1 < 2 ^ (k + 53) := by
  have hscale : x.scale ≤ k + 1075 := by
    rw [scale, Nat.shiftRight_eq_div_pow]
    omega
  have hsignificand := x.significand_lt
  unfold ratio
  split
  · rw [Nat.shiftLeft_eq]
    calc x.significand * 2 ^ (x.scale - 1075) < 2 ^ 53 * 2 ^ (x.scale - 1075) :=
          Nat.mul_lt_mul_of_pos_right hsignificand (Nat.two_pow_pos _)
      _ ≤ 2 ^ 53 * 2 ^ k := Nat.mul_le_mul_left _ (Nat.pow_le_pow_right (by decide) (by omega))
      _ = 2 ^ (k + 53) := by ring
  · calc x.significand < 2 ^ 53 := hsignificand
      _ ≤ 2 ^ (k + 53) := Nat.pow_le_pow_right (by decide) (by omega)

theorem ratio_snd_pos (x : Binary64) : 0 < x.ratio.2 := by
  unfold ratio
  split
  · exact Nat.one_pos
  · rw [Nat.one_shiftLeft]
    exact Nat.two_pow_pos _

/-- A product of moderate numbers is finite. -/
theorem magnitude_times_lt {x y : Binary64} (hx : x.magnitude ≤ (k + 1075) * 2 ^ 52)
    (hy : y.ratio.1 < 2 ^ 54) (hk : k < 800) : (x.times y).magnitude < infinity.magnitude := by
  have hnum : x.ratio.1 * y.ratio.1 < 2 ^ (k + 107) :=
    calc x.ratio.1 * y.ratio.1 < 2 ^ (k + 53) * 2 ^ 54 :=
          Nat.mul_lt_mul'' (ratio_fst_lt hx) hy
      _ = 2 ^ (k + 107) := by ring
  have hle := magnitude_ofRatio_le (Nat.mul_pos x.ratio_snd_pos y.ratio_snd_pos) hnum
  have hinfinity : infinity.magnitude = 2047 * 2 ^ 52 := by decide
  rw [hinfinity]
  exact Nat.lt_of_le_of_lt hle (Nat.mul_lt_mul_of_pos_right (by omega) (by decide))

end TokenMesh.Binary64
