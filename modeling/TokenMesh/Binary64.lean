namespace TokenMesh

/-!
# Binary64 numbers

Loss rates are floating-point numbers.  They are kept as their 64 bits and every question about
them is answered exactly, in natural numbers.

* `Binary64.ofDecimal`: the number nearest to a decimal, ties to the even neighbour;
* `Binary64.times`, `Binary64.dividedBy`: products and quotients, rounded the same way;
* `Binary64.isPositive`, `Binary64.clampUnit`: comparison and clamping, where a not-a-number
  compares with nothing and so stays as it is;
* `Binary64.share`: how many of 2⁶⁴ equally likely outcomes a probability stands for.
-/

/-- A floating-point number, by its sign, exponent and fraction bits. -/
structure Binary64 where
  bits : UInt64
deriving DecidableEq, Repr

namespace Binary64

/-- Positive zero. -/
def zero : Binary64 := ⟨0⟩

/-- The number one. -/
def one : Binary64 := ⟨0x3ff0000000000000⟩

/-- Positive infinity. -/
def infinity : Binary64 := ⟨0x7ff0000000000000⟩

/-- The canonical not-a-number. -/
def nan : Binary64 := ⟨0x7ff8000000000000⟩

/-- The number with the other sign. -/
def neg (x : Binary64) : Binary64 := ⟨x.bits ^^^ 0x8000000000000000⟩

/-- The bits without the sign. -/
def magnitude (x : Binary64) : Nat := x.bits.toNat % 1 <<< 63

/-- Whether the sign bit is set. -/
def signed (x : Binary64) : Bool := 1 <<< 63 ≤ x.bits.toNat

/-- Whether the bits stand for no number: above infinity, sign aside. -/
def isNaN (x : Binary64) : Bool := infinity.magnitude < x.magnitude

/-- Whether a number is above zero. -/
def isPositive (x : Binary64) : Bool := !x.signed && !x.isNaN && x.magnitude != 0

/-- Whether a number is below zero. -/
def isNegative (x : Binary64) : Bool := x.signed && !x.isNaN && x.magnitude != 0

/-- Whether a number is above one. -/
def exceedsOne (x : Binary64) : Bool := !x.signed && !x.isNaN && one.magnitude < x.magnitude

/-- The nearest number between zero and one; not-a-number and negative zero stay as they are. -/
def clampUnit (x : Binary64) : Binary64 :=
  if x.isNegative then zero else if x.exceedsOne then one else x

/-- Whether a number lies between zero and one. -/
def isProbability (x : Binary64) : Bool := !x.isNaN && !x.isNegative && !x.exceedsOne

/-- The integer significand of a finite number. -/
def significand (x : Binary64) : Nat :=
  let fraction := x.magnitude % 1 <<< 52
  if x.magnitude < 1 <<< 52 then fraction else 1 <<< 52 + fraction

/-- The exponent field, at least one.  A finite number is its significand times two to the power
    of this less 1075. -/
def scale (x : Binary64) : Nat := max 1 (x.magnitude >>> 52)

/-- The whole part of a probability times 2⁶⁴. -/
def share (x : Binary64) : Nat :=
  if 1011 ≤ x.scale then x.significand <<< (x.scale - 1011)
  else x.significand >>> (1011 - x.scale)

/-- A quotient rounded to the nearest whole number, ties to the even one. -/
def roundDiv (num den : Nat) : Nat :=
  let q := num / den
  let twice := 2 * (num % den)
  if twice < den then q
  else if den < twice then q + 1
  else if q % 2 = 0 then q else q + 1

/-- The magnitude nearest to a quotient of positive numbers, ties to the even one.  The exponent
    is the least that leaves a significand of at most 53 bits. -/
def nearest (num den : Nat) : Nat :=
  let top : Int := (num.log2 : Int) - den.log2 - 52
  let scaled (e : Int) : Nat × Nat :=
    if 0 ≤ e then (num, den <<< e.toNat) else (num <<< (-e).toNat, den)
  let whole (e : Int) : Nat := (scaled e).1 / (scaled e).2
  let e := max (-1074) (if whole top < 1 <<< 52 then top - 1 else top)
  let q := roundDiv (scaled e).1 (scaled e).2
  min infinity.magnitude ((e + 1074).toNat <<< 52 + q)

/-- The number nearest to `digits * 10 ^ exponent`, with a sign.  Decimals beyond 10⁴⁰⁰ are
    infinite and those below 10⁻⁴⁰⁰ are zero, whatever their digits. -/
def ofDecimal (negative : Bool) (digits : Nat) (exponent : Int) : Binary64 :=
  let magnitude : Nat :=
    if digits = 0 then 0
    else if 400 < exponent then infinity.magnitude
    else if exponent + (digits.log2 / 3 + 1 : Nat) < -400 then 0
    else if 0 ≤ exponent then nearest (digits * Nat.pow 10 exponent.toNat) 1
    else nearest digits (Nat.pow 10 (-exponent).toNat)
  if negative then neg ⟨magnitude.toUInt64⟩ else ⟨magnitude.toUInt64⟩

/-- The number nearest to a quotient of natural numbers, the second of them positive. -/
def ofRatio (num den : Nat) : Binary64 :=
  if num = 0 then zero else ⟨(nearest num den).toUInt64⟩

/-- A finite number, sign aside, as a quotient of natural numbers. -/
def ratio (x : Binary64) : Nat × Nat :=
  if 1075 ≤ x.scale then (x.significand <<< (x.scale - 1075), 1)
  else (x.significand, 1 <<< (1075 - x.scale))

/-- The number nearest to the product of two, signs aside. -/
def times (x y : Binary64) : Binary64 :=
  ofRatio (x.ratio.1 * y.ratio.1) (x.ratio.2 * y.ratio.2)

/-- The number nearest to the quotient of two, signs aside, the second of them positive. -/
def dividedBy (x y : Binary64) : Binary64 :=
  ofRatio (x.ratio.1 * y.ratio.2) (x.ratio.2 * y.ratio.1)

/-- The number nearest to a power of ten. -/
def powerOfTen (n : Nat) : Binary64 := if 308 < n then infinity else ofRatio (Nat.pow 10 n) 1

/-- The sixteen hexadecimal digits of the bits. -/
def hex (x : Binary64) : String :=
  let digits := Nat.toDigits 16 x.bits.toNat
  String.ofList (List.replicate (16 - digits.length) '0' ++ digits)

end Binary64

end TokenMesh
