import TokenMesh.Binary64
import TokenMesh.Text.Numeral
import TokenMesh.Text.Word

namespace TokenMesh.Text

/-!
# Decimal numbers in text

A decimal is an optional sign, digits with at most one point among or around them, and an optional
exponent.  At least one digit stands before the exponent.  `inf`, `infinity` and `nan` are numbers
too, in either case and with a sign or not.
-/

/-- An exponent after its `e`, down to the end of the text; zero where the text ends before it. -/
def exponent? : List Char → Option Int
  | [] => some 0
  | c :: r => if c = 'e' ∨ c = 'E' then integer? r else none

/-- A decimal without its sign. -/
def decimal? (negative : Bool) (cs : List Char) : Option Binary64 :=
  let (front, rest) := digits 10 cs
  let (back, rest) := match rest with
    | '.' :: r => digits 10 r
    | r => ([], r)
  if front.isEmpty && back.isEmpty then none
  else (exponent? rest).map fun e =>
    Binary64.ofDecimal negative (ofDigits 10 (front ++ back)) (e - back.length)

/-- A number without its sign. -/
def unsigned? (negative : Bool) (cs : List Char) : Option Binary64 :=
  let word (w : String) : Bool := isWord w (String.ofList cs)
  let signed (x : Binary64) : Binary64 := if negative then x.neg else x
  if word "inf" || word "infinity" then some (signed .infinity)
  else if word "nan" then some (signed .nan)
  else decimal? negative cs

/-- The number that a whole text stands for. -/
def real? : List Char → Option Binary64
  | '-' :: r => unsigned? true r
  | '+' :: r => unsigned? false r
  | r => unsigned? false r

end TokenMesh.Text
