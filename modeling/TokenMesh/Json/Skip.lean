import TokenMesh.Json.Items

namespace TokenMesh.Json

/-!
# Values that are passed over

A value that nobody asked for is read only to find its end.  The brackets that are open around the
present place are kept in a list, so that lists and records may stand in each other to any depth.

* `Bracket`: what can be open;
* `skip`: the text after a value of any kind.

Every piece that is passed over takes characters off the text, which is why the reading ends.
-/

/-! ### Pieces take characters off the text -/

theorem length_skipBlanks_le (cs : List Char) : (skipBlanks cs).length ≤ cs.length :=
  (List.dropWhile_suffix _).length_le

theorem length_lt_of_skipBlanks {cs r : List Char} {c : Char} (h : skipBlanks cs = c :: r) :
    r.length < cs.length := by
  have := length_skipBlanks_le cs
  rw [h, List.length_cons] at this
  omega

theorem length_le_of_readLiteral {ls cs r : List Char} (h : readLiteral ls cs = .ok r) :
    r.length ≤ cs.length := by
  induction ls generalizing cs with
  | nil => cases h; exact Nat.le_refl _
  | cons l ls ih =>
    cases cs with
    | nil => cases h
    | cons c cs =>
      simp only [readLiteral] at h
      split at h
      · exact Nat.le_succ_of_le (ih h)
      · cases h

theorem length_lt_of_skipText {cs r : List Char} (h : skipText cs = .ok r) :
    r.length < cs.length := by
  fun_induction skipText cs with
  | case1 => cases h
  | case2 a b c d r _ ih => have := ih h; simp only [List.length_cons]; omega
  | case3 => cases h
  | case4 => cases h
  | case5 => cases h
  | case6 e r _ _ _ ih => have := ih h; simp only [List.length_cons]; omega
  | case7 => cases h
  | case8 => cases h; simp
  | case9 => cases h
  | case10 c r _ _ _ _ _ _ ih => have := ih h; simp only [List.length_cons]; omega

/-- The digits at the start of a text are taken off it, one character each. -/
theorem length_digits (base : Nat) (cs : List Char) :
    (Text.digits base cs).1.length + (Text.digits base cs).2.length = cs.length := by
  induction cs with
  | nil => rfl
  | cons c cs ih =>
    unfold Text.digits
    split
    · simp only [List.length_cons]; omega
    · simp

theorem length_lt_of_readWhole {cut : Fault} {cs r : List Char} {ds : List Nat}
    (h : readWhole cut cs = .ok (ds, r)) : r.length < cs.length := by
  have := length_digits 10 cs
  unfold readWhole at h
  split at h
  · cases h
  · cases h
  · cases h
  · next hnil hcons _ hds =>
    cases h
    rw [hds] at this
    cases ds with
    | cons d ds => simp only [List.length_cons] at this; omega
    | nil =>
      cases r with
      | nil => exact (hnil rfl rfl).elim
      | cons c r => exact (hcons c r rfl rfl).elim

theorem length_le_of_readFraction {cut : Fault} {cs r : List Char} {ds : Option (List Nat)}
    (h : readFraction cut cs = .ok (ds, r)) : r.length ≤ cs.length := by
  unfold readFraction at h
  split at h
  · next t =>
    have := length_digits 10 t
    split at h
    · cases h
    · cases h
    · next hds => cases h; rw [hds] at this; simp only [List.length_cons] at *; omega
  · cases h; exact Nat.le_refl _

theorem length_le_of_readExponentDigits {cut : Fault} {negative : Bool} {cs r : List Char}
    {n : Option Int} (h : readExponentDigits cut negative cs = .ok (n, r)) :
    r.length ≤ cs.length := by
  have := length_digits 10 cs
  unfold readExponentDigits at h
  split at h
  · cases h
  · cases h
  · next hds => cases h; rw [hds] at this; simp only at this; omega

theorem length_le_of_readExponent {cut : Fault} {cs r : List Char} {n : Option Int}
    (h : readExponent cut cs = .ok (n, r)) : r.length ≤ cs.length := by
  unfold readExponent at h
  split at h
  · cases h; exact Nat.le_refl _
  · split at h
    · split at h <;> have := length_le_of_readExponentDigits h <;>
        simp only [List.length_cons] at * <;> omega
    · cases h; exact Nat.le_refl _

theorem length_lt_of_readUnsigned {cut : Fault} {negative : Bool} {cs r : List Char}
    {n : Numeral} (h : readUnsigned cut negative cs = .ok (n, r)) : r.length < cs.length := by
  unfold readUnsigned at h
  simp only [bind, Except.bind] at h
  split at h
  · cases h
  · next x hx =>
    split at h
    · cases h
    · next y hy =>
      split at h
      · cases h
      · next z hz =>
        cases h
        have := length_lt_of_readWhole hx
        have := length_le_of_readFraction hy
        have := length_le_of_readExponent hz
        omega

theorem length_lt_of_readNumeral {cut : Fault} {cs r : List Char} {n : Numeral}
    (h : readNumeral cut cs = .ok (n, r)) : r.length < cs.length := by
  unfold readNumeral at h
  split at h
  · exact Nat.lt_succ_of_lt (length_lt_of_readUnsigned h)
  · exact length_lt_of_readUnsigned h

theorem length_lt_of_readColon {cs r : List Char} (h : readColon cs = .ok r) :
    r.length < cs.length := by
  unfold readColon at h
  split at h
  · cases h
  · next hb =>
    split at h
    · cases h; exact length_lt_of_skipBlanks hb
    · cases h

theorem length_lt_of_closed {close : Char} {first : Bool} {cs r : List Char}
    (h : next close first cs = .ok (.closed r)) : r.length < cs.length := by
  unfold next at h
  split at h
  · cases h
  · next hb =>
    have := length_lt_of_skipBlanks hb
    repeat' split at h
    all_goals cases h
    exact this

theorem length_le_of_item {close : Char} {first : Bool} {cs r : List Char}
    (h : next close first cs = .ok (.item r)) : r.length ≤ cs.length := by
  unfold next at h
  split at h
  · cases h
  · next c t hb =>
    have := length_lt_of_skipBlanks hb
    split at h
    · cases h
    · split at h
      · cases h; simp only [List.length_cons]; omega
      · split at h
        · split at h
          · cases h
          · next hb' =>
            have := length_lt_of_skipBlanks hb'
            split at h
            · cases h
            · cases h; simp only [List.length_cons]; omega
        · cases h

/-! ### Passing a value -/

/-- The text after a literal, a text or a number at the start of a text.  The size of a number is
    not checked, and one that is cut short is malformed. -/
def skipScalar : List Char → Except Fault (List Char)
  | [] => .error .unfinished
  | 'n' :: r => readLiteral ['u', 'l', 'l'] r
  | 't' :: r => readLiteral ['r', 'u', 'e'] r
  | 'f' :: r => readLiteral ['a', 'l', 's', 'e'] r
  | '"' :: r => skipText r
  | c :: r =>
    if c = '-' ∨ c.isDigit then (readNumeral .malformed (c :: r)).map (·.2) else .error .malformed

theorem length_lt_of_skipScalar {cs r : List Char} (h : skipScalar cs = .ok r) :
    r.length < cs.length := by
  unfold skipScalar at h
  split at h
  · cases h
  · exact Nat.lt_succ_of_le (length_le_of_readLiteral h)
  · exact Nat.lt_succ_of_le (length_le_of_readLiteral h)
  · exact Nat.lt_succ_of_le (length_le_of_readLiteral h)
  · exact Nat.lt_succ_of_lt (length_lt_of_skipText h)
  · split at h
    · next c t _ _ _ _ _ =>
      cases hn : readNumeral .malformed (c :: t) with
      | error e => rw [hn] at h; cases h
      | ok x => rw [hn] at h; cases h; exact length_lt_of_readNumeral hn
    · cases h

/-- A bracket that is open. -/
inductive Bracket
  | list
  | record
deriving DecidableEq, Repr

namespace Bracket

/-- The character that closes a bracket. -/
def close : Bracket → Char
  | list => ']'
  | record => closeBrace

/-- The bracket that a character opens. -/
def ofChar? (c : Char) : Option Bracket :=
  if c = '[' then some list else if c = openBrace then some record else none

/-- The text from the value of an item on: in a record a name and a colon come before it. -/
def skipName : Bracket → List Char → Except Fault (List Char)
  | list, cs => .ok cs
  | record, '"' :: r => (skipText r).bind readColon
  | record, _ => .error .malformed

theorem length_le_of_skipName {b : Bracket} {cs r : List Char} (h : b.skipName cs = .ok r) :
    r.length ≤ cs.length := by
  unfold skipName at h
  split at h
  · cases h; exact Nat.le_refl _
  · next t =>
    cases ht : skipText t with
    | error e => rw [ht] at h; cases h
    | ok u =>
      rw [ht] at h
      have := length_lt_of_skipText ht
      have := length_lt_of_readColon h
      simp only [List.length_cons]; omega
  · cases h

end Bracket

mutual

/-- The text after a value and after all brackets that are open around it, the innermost first. -/
def skipValue (opened : List Bracket) (cs : List Char) : Except Fault (List Char) :=
  match _hb : skipBlanks cs with
  | [] => .error .unfinished
  | c :: r =>
    match Bracket.ofChar? c with
    | some b => skipItem (b :: opened) true r
    | none =>
      match _hs : skipScalar (c :: r) with
      | .error e => .error e
      | .ok r => skipItem opened false r
termination_by (cs.length, 0)
decreasing_by
  · exact .left _ _ (length_lt_of_skipBlanks _hb)
  · have := length_lt_of_skipBlanks _hb
    have := length_lt_of_skipScalar _hs
    simp only [List.length_cons] at this
    exact .left _ _ (by omega)

/-- The text after all open brackets, where an item or the end of the innermost one comes next. -/
def skipItem (opened : List Bracket) (first : Bool) (cs : List Char) : Except Fault (List Char) :=
  match opened with
  | [] => .ok cs
  | b :: outer =>
    match _hn : next b.close first cs with
    | .error e => .error e
    | .ok (.closed r) => skipItem outer false r
    | .ok (.item r) =>
      match _hs : b.skipName r with
      | .error e => .error e
      | .ok r => skipValue (b :: outer) r
termination_by (cs.length, 1)
decreasing_by
  · exact .left _ _ (length_lt_of_closed _hn)
  · have := length_le_of_item _hn
    have := Bracket.length_le_of_skipName _hs
    rcases Nat.lt_or_eq_of_le (Nat.le_trans ‹_› ‹_›) with h | h
    · exact .left _ _ h
    · rw [h]; exact .right _ (by decide)

end

/-- The text after a value of any kind. -/
def skip (cs : List Char) : Except Fault (List Char) := skipValue [] cs

end TokenMesh.Json
