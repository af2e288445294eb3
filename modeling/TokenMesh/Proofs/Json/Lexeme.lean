import TokenMesh.Json.Lexeme
import TokenMesh.Proofs.Binary64
import TokenMesh.Proofs.Text.Numeral

namespace TokenMesh.Json

/-!
# Pieces that are read back

What is written between the brackets and commas of a text is read as it was written, wherever a
value may end.

* `printChar_cases`: how a character stands between quotes;
* `readText_flatMap`: texts come back, whatever characters they have;
* `Delimited`: what may follow a value;
* `readNumber_printInteger`: so do whole numbers of 64 bits, and none is taken for too large.
-/

open Text

variable {rest : List Char}

/-! ### Texts -/

theorem readLiteral_append (literal : List Char) (rest : List Char) :
    readLiteral literal (literal ++ rest) = .ok rest := by
  induction literal with
  | nil => rfl
  | cons c cs ih =>
    rw [List.cons_append, readLiteral, if_pos rfl]
    exact ih

/-- A letter behind a backslash stands for one character. -/
theorem readText_escaped {c e : Char} (h : escaped? e = some c) (hu : e ≠ 'u') :
    readText none ('\\' :: e :: rest) = (readText none rest).map (prepend c) := by
  rw [readText]
  all_goals simp [h, hu]

/-- The digits of a control character behind a backslash and two zeros. -/
theorem readText_control {c : Char} (h : c < ' ') :
    readText none ('\\' :: 'u' :: '0' :: '0' :: (c.toNat / 16).digitChar ::
      (c.toNat % 16).digitChar :: rest) = (readText none rest).map (prepend c) := by
  have hlt : c.toNat < 32 := h
  have hdigits : fourDigits? '0' '0' (c.toNat / 16).digitChar (c.toNat % 16).digitChar =
      some c.toNat := by
    have hzero : digit? 16 '0' = some 0 := by decide
    have hhigh : digit? 16 (c.toNat / 16).digitChar = some (c.toNat / 16) :=
      digit?_digitChar (by omega) (by decide)
    have hlow : digit? 16 (c.toNat % 16).digitChar = some (c.toNat % 16) :=
      digit?_digitChar (by omega) (by decide)
    rw [fourDigits?, hzero, hhigh, hlow]
    simp only [Option.bind_eq_bind, Option.bind_some, Option.pure_def, Option.some.injEq]
    omega
  have hupper : isUpperHalf c.toNat = false := by
    simp only [isUpperHalf, Bool.and_eq_false_iff, decide_eq_false_iff_not]
    omega
  have hlower : isLowerHalf c.toNat = false := by
    simp only [isLowerHalf, Bool.and_eq_false_iff, decide_eq_false_iff_not]
    omega
  rw [readText.eq_def]
  simp only [hdigits, hupper, hlower, Bool.false_eq_true, if_false, Char.ofNat_toNat]

/-- Any other character stands for itself. -/
theorem readText_plain {c : Char} (hquote : c ≠ '"') (hbackslash : c ≠ '\\') (h : ¬ c < ' ') :
    readText none (c :: rest) = (readText none rest).map (prepend c) := by
  rw [readText, if_neg (by decide), if_neg hquote, if_neg h]
  all_goals simp [hbackslash]

/-- A character between quotes is written as a backslash and a letter, by its digits, or as it
    is. -/
theorem printChar_cases (c : Char) :
    (∃ e, escaped? e = some c ∧ e ≠ 'u' ∧ printChar c = ['\\', e]) ∨
      (c < ' ' ∧ printChar c =
        ['\\', 'u', '0', '0', (c.toNat / 16).digitChar, (c.toNat % 16).digitChar]) ∨
      (c ≠ '"' ∧ c ≠ '\\' ∧ ¬ c < ' ' ∧ printChar c = [c]) := by
  unfold printChar
  split_ifs with hquote hbackslash hback htab hline hfeed hreturn hcontrol
  · exact .inl ⟨'"', by rw [hquote]; decide, by decide, rfl⟩
  · exact .inl ⟨'\\', by rw [hbackslash]; decide, by decide, rfl⟩
  · exact .inl ⟨'b', by rw [hback]; decide, by decide, rfl⟩
  · exact .inl ⟨'t', by rw [htab]; decide, by decide, rfl⟩
  · exact .inl ⟨'n', by rw [hline]; decide, by decide, rfl⟩
  · exact .inl ⟨'f', by rw [hfeed]; decide, by decide, rfl⟩
  · exact .inl ⟨'r', by rw [hreturn]; decide, by decide, rfl⟩
  · exact .inr (.inl ⟨hcontrol, rfl⟩)
  · exact .inr (.inr ⟨hquote, hbackslash, hcontrol, rfl⟩)

/-- A character between quotes is read back. -/
theorem readText_printChar (c : Char) (rest : List Char) :
    readText none (printChar c ++ rest) = (readText none rest).map (prepend c) := by
  obtain ⟨e, he, hu, h⟩ | ⟨hlt, h⟩ | ⟨hquote, hbackslash, hle, h⟩ := printChar_cases c
  · rw [h]
    exact readText_escaped he hu
  · rw [h]
    exact readText_control hlt
  · rw [h]
    exact readText_plain hquote hbackslash hle

/-- A text is read back up to its closing quote. -/
theorem readText_flatMap (s rest : List Char) :
    readText none (s.flatMap printChar ++ '"' :: rest) = .ok (s, rest) := by
  induction s with
  | nil =>
    rw [List.flatMap_nil, List.nil_append, readText]
    all_goals simp
  | cons c cs ih =>
    rw [List.flatMap_cons, List.append_assoc, readText_printChar, ih]
    rfl

theorem printText_append (s rest : List Char) :
    printText s ++ rest = '"' :: (s.flatMap printChar ++ '"' :: rest) := by
  simp [printText]

/-! ### Numbers -/

/-- What may follow a value: nothing, the next item, a closing bracket or a line break. -/
def Delimited (rest : List Char) : Prop :=
  ∀ c cs, rest = c :: cs → c = ',' ∨ c = ']' ∨ c = closeBrace ∨ c = '\n'

theorem ends_of_delimited (h : Delimited rest) : Ends 10 rest := by
  intro c cs heq
  obtain rfl | rfl | rfl | rfl := h c cs heq <;> decide

/-- A whole number ends where a value does. -/
theorem readFraction_of_delimited (cut : Fault) (h : Delimited rest) :
    readFraction cut rest = .ok (none, rest) := by
  unfold readFraction
  split
  · obtain h | h | h | h := h _ _ rfl <;> exact absurd h (by decide)
  · rfl

theorem readExponent_of_delimited (cut : Fault) (h : Delimited rest) :
    readExponent cut rest = .ok (none, rest) := by
  unfold readExponent
  split
  · rfl
  · rw [if_neg]
    obtain rfl | rfl | rfl | rfl := h _ _ rfl <;> decide

/-- A number ends with its digits. -/
theorem readUnsigned_digits (cut : Fault) (negative : Bool) {n : Nat} {ds : List Nat}
    (hds : Spells 10 n ds) (h : Delimited rest) :
    readUnsigned cut negative (ds.map Nat.digitChar ++ rest) =
      .ok (⟨negative, ds, none, none⟩, rest) := by
  have hwhole : readWhole cut (ds.map Nat.digitChar ++ rest) = .ok (ds, rest) := by
    rw [readWhole, digits_map_digitChar (by decide) hds.lt (ends_of_delimited h)]
    cases ds with
    | nil => exact absurd rfl hds.ne_nil
    | cons d ds =>
      cases d with
      | zero =>
        obtain ⟨-, rfl⟩ := List.cons.inj (hds.unpadded rfl)
        rfl
      | succ d => rfl
  unfold readUnsigned
  rw [hwhole]
  simp only [bind, Except.bind, readFraction_of_delimited cut h, readExponent_of_delimited cut h]
  rfl

/-- A whole number is read by its sign and its digits. -/
theorem readNumeral_printInteger (cut : Fault) (n : Int) (h : Delimited rest) :
    ∃ ds, Spells 10 n.natAbs ds ∧ readNumeral cut (printInteger n ++ rest) =
      .ok (⟨decide (n < 0), ds, none, none⟩, rest) := by
  obtain ⟨ds, hds, heq⟩ := exists_spells (show 1 < 10 by decide) n.natAbs
  refine ⟨ds, hds, ?_⟩
  cases n with
  | ofNat n =>
    have hdigits : printInteger (.ofNat n) = ds.map Nat.digitChar := heq
    -- a digit is no sign
    have hsign : ∀ r, ds.map Nat.digitChar ++ rest ≠ '-' :: r := by
      have hdash : ∀ d < 10, Nat.digitChar d ≠ '-' := by decide
      cases ds with
      | nil => exact absurd rfl hds.ne_nil
      | cons d ds => exact fun r hr => hdash d (hds.lt d List.mem_cons_self) (List.cons.inj hr).1
    rw [hdigits, readNumeral, readUnsigned_digits cut false hds h]
    · have hsign : ¬ Int.ofNat n < 0 := Int.not_lt.2 (Int.natCast_nonneg n)
      rw [decide_eq_false hsign]
    · exact hsign
  | negSucc n =>
    have hdigits : printInteger (.negSucc n) = '-' :: ds.map Nat.digitChar := congrArg _ heq
    rw [hdigits, List.cons_append, readNumeral, readUnsigned_digits cut true hds h,
      decide_eq_true (Int.negSucc_lt_zero n)]

/-- A whole number begins with its sign or with a digit. -/
theorem exists_printInteger_eq_cons (n : Int) :
    ∃ c cs, printInteger n = c :: cs ∧ (c = '-' ∨ ∃ d < 10, c = Nat.digitChar d) := by
  cases n with
  | ofNat n =>
    obtain ⟨d, cs, hd, heq⟩ := exists_toDigits_eq_cons (show 1 < 10 by decide) n
    exact ⟨_, cs, heq, .inr ⟨d, hd, rfl⟩⟩
  | negSucc n => exact ⟨'-', _, rfl, .inl rfl⟩

/-- Digits that fit into 64 bits together are all gathered. -/
theorem gather_eq {n : Nat} {ds : List Nat}
    (h : ds.foldl (fun n d => n * 10 + d) n < UInt64.size) :
    Numeral.gather n ds = (ds.foldl (fun n d => n * 10 + d) n, 0) := by
  induction ds generalizing n with
  | nil => rfl
  | cons d ds ih =>
    rw [List.foldl_cons] at h
    -- the digits that follow make no number smaller
    have hle : n * 10 + d ≤ ds.foldl (fun n d => n * 10 + d) (n * 10 + d) :=
      List.foldlRecOn ds _ (motive := fun m => n * 10 + d ≤ m) (Nat.le_refl _)
        fun m hm d' _ => by omega
    rw [Numeral.gather, if_pos (Nat.lt_of_le_of_lt hle h), ih h, List.foldl_cons]

/-- A whole number of 64 bits is not too large for a floating-point number. -/
theorem outOfRange_eq_false {negative : Bool} {n : Nat} {ds : List Nat} (hds : Spells 10 n ds)
    (hn : n < UInt64.size) : Numeral.outOfRange ⟨negative, ds, none, none⟩ = false := by
  have hscaled : Numeral.scaled ⟨negative, ds, none, none⟩ = (n, 0) := by
    have hvalue : ds.foldl (fun n d => n * 10 + d) 0 = n := hds.value
    have hgather := gather_eq (hvalue.symm ▸ hn)
    rw [hvalue] at hgather
    simp only [Numeral.scaled, hgather, Option.getD_none, Numeral.gather, List.length_nil,
      Nat.sub_zero, Int.ofNat_zero, Int.sub_zero, Int.add_zero]
  -- a whole number is multiplied by a power of ten as well, if only by one
  have hreal : (Numeral.real ⟨negative, ds, none, none⟩).magnitude =
      (if Binary64.ofRatio n 1 = .zero then Binary64.ofRatio n 1
        else (Binary64.ofRatio n 1).times (.powerOfTen 0)).magnitude := by
    simp only [Numeral.real, hscaled, Int.lt_irrefl, if_false, Int.reduceLT, Int.toNat_zero]
    cases negative with
    | false => rw [if_neg Bool.false_ne_true]
    | true => rw [if_pos rfl, Binary64.magnitude_neg]
  have hone : (Binary64.powerOfTen 0).ratio.1 < 2 ^ 54 := by decide
  unfold Numeral.outOfRange
  rw [beq_eq_false_iff_ne, hreal]
  apply Nat.ne_of_lt
  split
  · next hzero =>
    rw [hzero]
    decide
  · have hx : (Binary64.ofRatio n 1).magnitude ≤ (14 + 1075) * 2 ^ 52 :=
      Binary64.magnitude_ofRatio_le Nat.one_pos hn
    exact Binary64.magnitude_times_lt hx hone (by decide)

/-- Whole numbers of 64 bits, with or without a sign, are read back. -/
theorem readNumber_printInteger {n : Int} (hlow : -2 ^ 63 ≤ n) (hhigh : n < 2 ^ 64)
    (h : Delimited rest) :
    ∃ x, x.integer? = some n ∧ readNumber (printInteger n ++ rest) = .ok (x, rest) := by
  obtain ⟨ds, hds, hread⟩ := readNumeral_printInteger .unfinished n h
  have hsize : UInt64.size = 2 ^ 64 := rfl
  have habs : n.natAbs < UInt64.size := by omega
  refine ⟨⟨decide (n < 0), ds, none, none⟩, ?_, ?_⟩
  · simp only [Numeral.integer?, hds.value, decide_eq_true_eq, Nat.one_shiftLeft, if_pos habs]
    split
    · rw [if_pos (by omega), Option.some.injEq]
      omega
    · rw [Option.some.injEq]
      omega
  · rw [readNumber, hread]
    simp only [bind, Except.bind, outOfRange_eq_false hds habs, Bool.false_eq_true, if_false]

end TokenMesh.Json
