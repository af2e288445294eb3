import TokenMesh.Text.Numeral

namespace TokenMesh.Json

/-!
# Values in JSON notation

Saved results are written as JSON: whole numbers, flags, texts, lists, and records whose fields
keep their order.

* `Value`: what can be written;
* `Value.print`: its text, on one line or spread over indented lines.
-/

open Text

/-- What can be written in JSON notation. -/
inductive Value
  | null
  | flag (b : Bool)
  | integer (n : Int)
  | text (s : List Char)
  | list (vs : List Value)
  | record (fields : List (List Char × Value))

/-- A decimal numeral with its sign. -/
def printInteger : Int → List Char
  | .ofNat n => decimal n
  | .negSucc n => '-' :: decimal (n + 1)

/-- A character as it stands between quotes.  The quote, the backslash and the controls are
    escaped, some of them by a letter, and nothing else is. -/
def printChar (c : Char) : List Char :=
  if c = '"' then ['\\', '"']
  else if c = '\\' then ['\\', '\\']
  else if c = '\x08' then ['\\', 'b']
  else if c = '\t' then ['\\', 't']
  else if c = '\n' then ['\\', 'n']
  else if c = '\x0c' then ['\\', 'f']
  else if c = '\r' then ['\\', 'r']
  else if c < ' ' then ['\\', 'u', '0', '0', (c.toNat / 16).digitChar, (c.toNat % 16).digitChar]
  else [c]

/-- A text between quotes. -/
def printText (s : List Char) : List Char := '"' :: s.flatMap printChar ++ ['"']

/-- Where the items of a list or record go: all on one line, or each on a line of its own at some
    depth of indentation. -/
abbrev Layout := Option Nat

namespace Layout

/-- The layout one step further in. -/
def deeper (l : Layout) : Layout := l.map (· + 1)

/-- What precedes an item. -/
def lineBreak : Layout → List Char
  | none => []
  | some depth => '\n' :: List.replicate (2 * depth) ' '

/-- What separates the name of a field from its value. -/
def colon : Layout → List Char
  | none => [':']
  | some _ => [':', ' ']

end Layout

/-- The brace that opens a record. -/
def openBrace : Char := '\x7b'

/-- The brace that closes a record. -/
def closeBrace : Char := '\x7d'

mutual

/-- The text of a value.  An empty list or record keeps its brackets together. -/
def Value.print (l : Layout) : Value → List Char
  | .null => ['n', 'u', 'l', 'l']
  | .flag true => ['t', 'r', 'u', 'e']
  | .flag false => ['f', 'a', 'l', 's', 'e']
  | .integer n => printInteger n
  | .text s => printText s
  | .list [] => ['[', ']']
  | .list (v :: vs) =>
    '[' :: l.deeper.lineBreak ++ v.print l.deeper ++ printItems l.deeper vs ++ l.lineBreak ++ [']']
  | .record [] => [openBrace, closeBrace]
  | .record ((k, v) :: fields) =>
    openBrace :: l.deeper.lineBreak ++ printText k ++ l.colon ++ v.print l.deeper ++
      printFields l.deeper fields ++ l.lineBreak ++ [closeBrace]

/-- The items of a list after its first. -/
def printItems (l : Layout) : List Value → List Char
  | [] => []
  | v :: vs => ',' :: l.lineBreak ++ v.print l ++ printItems l vs

/-- The fields of a record after its first. -/
def printFields (l : Layout) : List (List Char × Value) → List Char
  | [] => []
  | (k, v) :: fields =>
    ',' :: l.lineBreak ++ printText k ++ l.colon ++ v.print l ++ printFields l fields

end

namespace Value

/-- The text of a value on one line, without blanks. -/
def line (v : Value) : String := String.ofList (v.print none)

/-- The text of a value with one item on each line. -/
def block (v : Value) : String := String.ofList (v.print (some 0))

/-- A whole number. -/
def natural (n : Nat) : Value := .integer n

/-- A text. -/
def string (s : String) : Value := .text s.toList

/-- A record of fields. -/
def fields (fs : List (String × Value)) : Value := .record (fs.map fun f => (f.1.toList, f.2))

end Value

end TokenMesh.Json
