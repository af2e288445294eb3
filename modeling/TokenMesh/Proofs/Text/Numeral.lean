import Mathlib.Algebra.Group.Nat.Defs
import TokenMesh.Text.Numeral

namespace TokenMesh.Text

/-!
# Numerals that are read back

A numeral that is written in a base reads as its number again, as long as no digit follows it.

* `Ends`: a text in which no numeral goes on;
* `Spells`: the digits of a number in a base, without zeros in front;
* `exists_spells`: every number is written as the characters of such digits;
* `numeral?_toDigits`: what is written is read back, in any form it fits into.
-/

/-! ### Digits -/

variable {base n d : Nat} {rest : List Char}

/-- A text that does not begin with a digit of a base, so that a numeral before it ends there. -/
def Ends (base : Nat) (rest : List Char) : Prop := ∀ c cs, rest = c :: cs → digit? base c = none

theorem ends_nil : Ends base [] := fun _ _ h => nomatch h

theorem ends_cons {c : Char} {cs : List Char} (h : digit? base c = none) : Ends base (c :: cs) := by
  intro c' cs' heq
  obtain ⟨rfl, rfl⟩ := List.cons.inj heq
  exact h

theorem digits_of_ends (h : Ends base rest) : digits base rest = ([], rest) := by
  cases rest with
  | nil => rfl
  | cons c cs => rw [digits, h c cs rfl]

/-- A digit is read back. -/
theorem digit?_digitChar (hd : d < base) (hbase : base ≤ 16) :
    digit? base (Nat.digitChar d) = some d := by
  have hvalue : ∀ d < 16, digit? 16 (Nat.digitChar d) = some d := by decide
  have h := hvalue d (by omega)
  -- a smaller base takes the same digits, as far as they are below it
  unfold digit? at h ⊢
  grind

theorem digits_map_digitChar {ds : List Nat} (hbase : base ≤ 16) (hds : ∀ d ∈ ds, d < base)
    (h : Ends base rest) : digits base (ds.map Nat.digitChar ++ rest) = (ds, rest) := by
  induction ds with
  | nil => exact digits_of_ends h
  | cons d ds ih =>
    rw [List.map_cons, List.cons_append, digits,
      digit?_digitChar (hds d List.mem_cons_self) hbase,
      ih fun x hx => hds x (List.mem_cons_of_mem _ hx)]

theorem ofDigits_concat (base : Nat) (ds : List Nat) (d : Nat) :
    ofDigits base (ds ++ [d]) = ofDigits base ds * base + d := by
  rw [ofDigits, List.foldl_append]
  rfl

/-! ### Numbers -/

/-- The digits of a number in a base.  Zero has one digit, and other numbers begin with none. -/
structure Spells (base n : Nat) (ds : List Nat) : Prop where
  lt : ∀ d ∈ ds, d < base
  value : ofDigits base ds = n
  ne_nil : ds ≠ []
  unpadded : ds.head? = some 0 → ds = [0]

/-- A number is written as the characters of its digits. -/
theorem exists_spells (hbase : 1 < base) (n : Nat) :
    ∃ ds, Spells base n ds ∧ Nat.toDigits base n = ds.map Nat.digitChar := by
  -- the last digit is the remainder, the others are those of the quotient
  induction n using Nat.base_induction base hbase with
  | single d hd =>
    refine ⟨[d], ⟨by simpa using hd, by simp [ofDigits], by simp, by simp⟩, ?_⟩
    rw [Nat.toDigits_of_lt_base hd]
    rfl
  | digit m d hd hm ih =>
    obtain ⟨ds, hds, hm'⟩ := ih
    refine ⟨ds ++ [d], ⟨?_, ?_, by simp, ?_⟩, ?_⟩
    · intro x hx
      obtain hx | hx := List.mem_append.1 hx
      · exact hds.lt x hx
      · rwa [List.mem_singleton.1 hx]
    · rw [ofDigits_concat, hds.value, Nat.mul_comm]
    · intro hhead
      have hzero := hds.value
      rw [List.head?_append, Option.or_of_isSome (by simpa using hds.ne_nil)] at hhead
      rw [hds.unpadded hhead] at hzero
      simp only [ofDigits, List.foldl_cons, List.foldl_nil] at hzero
      omega
    · rw [← Nat.toDigits_append_toDigits hbase hm hd, hm', Nat.toDigits_of_lt_base hd,
        List.map_append]
      rfl

/-- Written numerals begin with a digit. -/
theorem exists_toDigits_eq_cons (hbase : 1 < base) (n : Nat) :
    ∃ d cs, d < base ∧ Nat.toDigits base n = Nat.digitChar d :: cs := by
  obtain ⟨ds, hds, heq⟩ := exists_spells hbase n
  cases ds with
  | nil => exact absurd rfl hds.ne_nil
  | cons d ds => exact ⟨d, _, hds.lt d List.mem_cons_self, heq⟩

/-- What is written is read back in any form of numerals that it fits into. -/
theorem numeral?_toDigits (form : NumeralForm) (hbase : 1 < form.base) (hbase' : form.base ≤ 16)
    (hn : n < form.bound) (hwidth : ∀ w ∈ form.width, 0 < w ∧ n < form.base ^ w)
    (hrest : Ends form.base rest) :
    numeral? form (Nat.toDigits form.base n ++ rest) = some (n, rest) := by
  obtain ⟨ds, hds, heq⟩ := exists_spells hbase n
  have hlength : ∀ w ∈ form.width, ds.length ≤ w := by
    intro w hw
    obtain ⟨hpos, hlt⟩ := hwidth w hw
    have hle := (Nat.length_toDigits_le_iff hbase hpos).2 hlt
    rwa [heq, List.length_map] at hle
  unfold numeral?
  rw [heq, digits_map_digitChar hbase' hds.lt hrest]
  dsimp only
  rw [hds.value, if_neg, if_neg]
  · intro h
    simp only [Bool.and_eq_true, decide_eq_true_eq, beq_iff_eq] at h
    have hone := hds.unpadded h.2
    rw [hone] at h
    exact absurd h.1.2 (by simp)
  · simp only [Bool.or_eq_true, decide_eq_true_eq, List.isEmpty_iff, not_or]
    refine ⟨⟨hds.ne_nil, ?_⟩, by omega⟩
    cases hw : form.width with
    | none => simp
    | some w => simpa using hlength w hw

end TokenMesh.Text
