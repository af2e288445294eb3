namespace TokenMesh.Text

/-!
# Numerals

Whole numbers in text, written with the digits of a base and read back.

* `decimal`, `hexadecimal`: the shortest numeral, digits in lower case;
* `numeral?`: the number that starts a text, with limits on its length and size;
* `natural?`, `integer?`: a whole text as a number, where a leading plus is allowed;
* `naturalOf?`, `integerBetween?`: the same with bounds.
-/

/-- The decimal numeral of a number. -/
def decimal (n : Nat) : List Char := Nat.toDigits 10 n

/-- The hexadecimal numeral of a number. -/
def hexadecimal (n : Nat) : List Char := Nat.toDigits 16 n

/-- The value of a digit in a base of at most sixteen; letters count in either case. -/
def digit? (base : Nat) (c : Char) : Option Nat :=
  let value :=
    if '0' ≤ c ∧ c ≤ '9' then c.toNat - '0'.toNat
    else if 'a' ≤ c ∧ c ≤ 'f' then c.toNat - 'a'.toNat + 10
    else if 'A' ≤ c ∧ c ≤ 'F' then c.toNat - 'A'.toNat + 10
    else base
  if value < base then some value else none

/-- The number that a list of digits stands for in a base. -/
def ofDigits (base : Nat) (digits : List Nat) : Nat :=
  digits.foldl (fun n d => n * base + d) 0

/-- Digits at the start of a text, and the text after them. -/
def digits (base : Nat) : List Char → List Nat × List Char
  | [] => ([], [])
  | c :: cs =>
    match digit? base c with
    | some d => let (ds, rest) := digits base cs; (d :: ds, rest)
    | none => ([], c :: cs)

/-- How a numeral inside a longer text has to look. -/
structure NumeralForm where
  /-- The base its digits are taken in. -/
  base : Nat
  /-- The numbers it can stand for are below this bound. -/
  bound : Nat
  /-- The most digits it may have, if that is limited. -/
  width : Option Nat
  /-- Whether a numeral of several digits may start with a zero. -/
  padded : Bool

/-- The numeral at the start of a text and the text after it.  All digits there belong to the
    numeral, so one that is too long or too large makes the reading fail. -/
def numeral? (form : NumeralForm) (cs : List Char) : Option (Nat × List Char) :=
  let (ds, rest) := digits form.base cs
  let n := ofDigits form.base ds
  let tooWide := match form.width with
    | some w => w < ds.length
    | none => false
  if ds.isEmpty || tooWide || form.bound ≤ n then none
  else if !form.padded && 1 < ds.length && ds.head? == some 0 then none
  else some (n, rest)

/-- A whole text as a natural number: decimal digits, after a plus or not. -/
def natural? (cs : List Char) : Option Nat :=
  let body := match cs with
    | '+' :: r => r
    | r => r
  match digits 10 body with
  | (d :: ds, []) => some (ofDigits 10 (d :: ds))
  | _ => none

/-- A whole text as an integer: decimal digits, after a sign or not. -/
def integer? (cs : List Char) : Option Int :=
  match cs with
  | '-' :: r =>
    match digits 10 r with
    | (d :: ds, []) => some (-(ofDigits 10 (d :: ds) : Int))
    | _ => none
  | r => (natural? r).map Int.ofNat

/-- A whole text as a natural number of a given number of bits. -/
def naturalOf? (bits : Nat) (s : String) : Option Nat :=
  (natural? s.toList).bind fun n => if n < 1 <<< bits then some n else none

/-- A whole text as an integer between two others, which it may equal. -/
def integerBetween? (low high : Int) (s : String) : Option Int :=
  (integer? s.toList).bind fun n => if low ≤ n ∧ n ≤ high then some n else none

/-- A whole text as a signed number of 32 bits. -/
def int32? (s : String) : Option Int32 :=
  (integerBetween? Int32.minValue.toInt Int32.maxValue.toInt s).map .ofInt

end TokenMesh.Text
