import TokenMesh.Binary64
import TokenMesh.Json.Value

namespace TokenMesh.Json

/-!
# The pieces of a JSON text

Blanks, literals, texts and numbers, each read from the start of a list of characters.  A reading
gives what was read and the characters after it, or says what is wrong.

* `Fault`: what is wrong with a text;
* `readText`, `skipText`: a text after its opening quote, decoded or passed over;
* `readNumeral`: a number by its parts;
* `Numeral.integer?`, `Numeral.real`: what a number stands for.
-/

open Text

/-- What is wrong with a text. -/
inductive Fault
  /-- It ends too early. -/
  | unfinished
  /-- It is not in JSON notation. -/
  | malformed
  /-- It is, but it does not hold what is expected. -/
  | mismatch
deriving DecidableEq, Repr

/-- Whether a character may stand between the pieces of a text. -/
def isBlank (c : Char) : Bool := c == ' ' || c == '\n' || c == '\t' || c == '\r'

/-- A text without the blanks it starts with. -/
def skipBlanks (cs : List Char) : List Char := cs.dropWhile isBlank

/-- The text after a literal. -/
def readLiteral : (literal : List Char) → List Char → Except Fault (List Char)
  | [], cs => .ok cs
  | _ :: _, [] => .error .unfinished
  | l :: ls, c :: cs => if c = l then readLiteral ls cs else .error .malformed

/-! ### Texts -/

/-- The number that four hexadecimal digits stand for. -/
def fourDigits? (a b c d : Char) : Option Nat := do
  let a ← digit? 16 a
  let b ← digit? 16 b
  let c ← digit? 16 c
  let d ← digit? 16 d
  return ((a * 16 + b) * 16 + c) * 16 + d

/-- The character that a letter after a backslash stands for. -/
def escaped? (c : Char) : Option Char :=
  if c = '"' then some '"'
  else if c = '\\' then some '\\'
  else if c = '/' then some '/'
  else if c = 'b' then some '\x08'
  else if c = 'f' then some '\x0c'
  else if c = 'n' then some '\n'
  else if c = 'r' then some '\r'
  else if c = 't' then some '\t'
  else none

/-- The fault of a text that ends among the digits of an escape: it ends too early, unless the
    bytes left would do for four digits. -/
def cutEscape (rest : List Char) : Fault :=
  if (String.ofList rest).utf8ByteSize < 4 then .unfinished else .malformed

/-- Whether a number is the upper half of a pair that stands for one character. -/
def isUpperHalf (n : Nat) : Bool := 0xd800 ≤ n && n ≤ 0xdbff

/-- Whether a number is the lower half of a pair that stands for one character. -/
def isLowerHalf (n : Nat) : Bool := 0xdc00 ≤ n && n ≤ 0xdfff

/-- A reading with one more character in front of the text that was read. -/
def prepend (c : Char) (x : List Char × List Char) : List Char × List Char := (c :: x.1, x.2)

/-- The character that an upper and a lower half stand for together. -/
def joinHalves (upper lower : Nat) : Char :=
  Char.ofNat (0x10000 + (upper - 0xd800) * 0x400 + (lower - 0xdc00))

/-- A text after its opening quote, decoded.  An upper half that was read just before has to be
    followed by its lower half. -/
def readText (upper : Option Nat) : List Char → Except Fault (List Char × List Char)
  | [] => .error .unfinished
  | '\\' :: 'u' :: a :: b :: c :: d :: r =>
    match fourDigits? a b c d, upper with
    | none, _ => .error .malformed
    | some n, none =>
      if isUpperHalf n then readText (some n) r
      else if isLowerHalf n then .error .malformed
      else (readText none r).map (prepend (Char.ofNat n))
    | some n, some high =>
      if isLowerHalf n then (readText none r).map (prepend (joinHalves high n))
      else .error .malformed
  | '\\' :: 'u' :: r => .error (cutEscape r)
  | ['\\'] => .error .unfinished
  | '\\' :: e :: r =>
    match escaped? e, upper with
    | some c, none => (readText none r).map (prepend c)
    | _, _ => .error .malformed
  | c :: r =>
    if upper.isSome then .error .malformed
    else if c = '"' then .ok ([], r)
    else if c < ' ' then .error .malformed
    else (readText none r).map (prepend c)

/-- The characters after a text whose opening quote is read.  Halves of pairs may stand alone. -/
def skipText : List Char → Except Fault (List Char)
  | [] => .error .unfinished
  | '\\' :: 'u' :: a :: b :: c :: d :: r =>
    if (fourDigits? a b c d).isSome then skipText r else .error .malformed
  | '\\' :: 'u' :: r => .error (cutEscape r)
  | ['\\'] => .error .unfinished
  | '\\' :: e :: r => if (escaped? e).isSome then skipText r else .error .malformed
  | c :: r => if c = '"' then .ok r else if c < ' ' then .error .malformed else skipText r

/-! ### Numbers -/

/-- A number by its parts. -/
structure Numeral where
  negative : Bool
  whole : List Nat
  /-- The digits after the point, if there is one. -/
  fraction : Option (List Nat)
  /-- The number after the `e`, if there is one. -/
  exponent : Option Int

/-- The digits of a number after the point; there is at least one. -/
def readFraction (cut : Fault) : List Char → Except Fault (Option (List Nat) × List Char)
  | '.' :: r =>
    match digits 10 r with
    | ([], []) => .error cut
    | ([], _ :: _) => .error .malformed
    | (ds, r) => .ok (some ds, r)
  | r => .ok (none, r)

/-- The digits of an exponent; there is at least one. -/
def readExponentDigits (cut : Fault) (negative : Bool) (r : List Char) :
    Except Fault (Option Int × List Char) :=
  match digits 10 r with
  | ([], []) => .error cut
  | ([], _ :: _) => .error .malformed
  | (ds, r) =>
    let n : Int := ofDigits 10 ds
    .ok (some (if negative then -n else n), r)

/-- The exponent of a number. -/
def readExponent (cut : Fault) : List Char → Except Fault (Option Int × List Char)
  | [] => .ok (none, [])
  | c :: r =>
    if c = 'e' ∨ c = 'E' then
      match r with
      | '+' :: r => readExponentDigits cut false r
      | '-' :: r => readExponentDigits cut true r
      | r => readExponentDigits cut false r
    else .ok (none, c :: r)

/-- The digits of a number before the point.  Only a single zero may come first. -/
def readWhole (cut : Fault) (r : List Char) : Except Fault (List Nat × List Char) :=
  match digits 10 r with
  | ([], []) => .error cut
  | ([], _ :: _) => .error .malformed
  | (0 :: _ :: _, _) => .error .malformed
  | (ds, r) => .ok (ds, r)

/-- A number without its sign; `cut` is the fault of a text that ends where a digit has to be. -/
def readUnsigned (cut : Fault) (negative : Bool) (cs : List Char) :
    Except Fault (Numeral × List Char) := do
  let (whole, cs) ← readWhole cut cs
  let (fraction, cs) ← readFraction cut cs
  let (exponent, cs) ← readExponent cut cs
  return (⟨negative, whole, fraction, exponent⟩, cs)

/-- A number. -/
def readNumeral (cut : Fault) : List Char → Except Fault (Numeral × List Char)
  | '-' :: r => readUnsigned cut true r
  | r => readUnsigned cut false r

namespace Numeral

/-- The number itself, where it is written as a whole number that fits into 64 bits with or
    without a sign.  A negative zero is none. -/
def integer? (n : Numeral) : Option Int :=
  match n.fraction, n.exponent with
  | none, none =>
    let whole := ofDigits 10 n.whole
    if n.negative then
      if 0 < whole ∧ whole ≤ 1 <<< 63 then some (-whole) else none
    else if whole < UInt64.size then some whole else none
  | _, _ => none

/-- As many digits as fit into 64 bits after a number that fits, as one number with it, and how
    many digits are left over. -/
def gather (n : Nat) : List Nat → Nat × Nat
  | [] => (n, 0)
  | d :: ds => if n * 10 + d < UInt64.size then gather (n * 10 + d) ds else (n, ds.length + 1)

/-- The digits that fit into 64 bits, as a number, and the power of ten it is to be multiplied by.
    Digits that are left over count before the point, where they raise the exponent. -/
def scaled (n : Numeral) : Nat × Int :=
  let (whole, raised) := gather 0 n.whole
  let after := n.fraction.getD []
  let (significand, left) := gather whole after
  (significand, raised - (after.length - left : Nat) + n.exponent.getD 0)

/-- A number divided by a power of ten, in steps of no more than 308 places. -/
def shrink (x : Binary64) (places : Nat) : Binary64 :=
  if x = .zero then x
  else if places ≤ 308 then x.dividedBy (.powerOfTen places)
  else shrink (x.dividedBy (.powerOfTen 308)) (places - 308)
termination_by places

/-- The floating-point number that a number stands for.  It need not be the nearest one: the digits
    and the power of ten are rounded before they are multiplied or divided. -/
def real (n : Numeral) : Binary64 :=
  let (significand, exponent) := n.scaled
  let x := Binary64.ofRatio significand 1
  let y := if x = .zero then x
    else if exponent < 0 then shrink x (-exponent).toNat
    else if 308 < exponent then .infinity
    else x.times (.powerOfTen exponent.toNat)
  if n.negative then y.neg else y

/-- Whether a number is too large for a floating-point number. -/
def outOfRange (n : Numeral) : Bool := n.real.magnitude == Binary64.infinity.magnitude

end Numeral

/-- A number whose size is checked. -/
def readNumber (cs : List Char) : Except Fault (Numeral × List Char) := do
  let (n, cs) ← readNumeral .unfinished cs
  if n.outOfRange then .error .malformed else .ok (n, cs)

end TokenMesh.Json
