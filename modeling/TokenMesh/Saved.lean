import TokenMesh.Json.Schema
import TokenMesh.Time

namespace TokenMesh

/-!
# Saved values

Results of experiments are saved as JSON and read back.  A type that can be saved says what its
texts are expected to hold, and how its values are written and taken back.

* `Saved`: the types that can be saved;
* `Saved.print`, `Saved.text`, `Saved.block`: the text of a value, on one line or on several;
* `Saved.read?`, `Saved.ofText?`: the value that a text holds;
* `natural`, `span`, `word`: the schemas that such types are made of.
-/

open Json

/-- A type whose values can be saved as JSON and read back. -/
class Saved (α : Type) where
  /-- What the text of a value is expected to hold. -/
  schema : Schema
  /-- A value as it is written. -/
  toValue : α → Value
  /-- The value that was written, if what was read is one. -/
  ofValue? : Value → Option α

namespace Saved

variable {α : Type} [Saved α]

/-- The text of a value, on one line and without blanks. -/
def print (a : α) : List Char := (toValue a).print none

/-- The text of a value on one line, as a string. -/
def text (a : α) : String := (toValue a).line

/-- The text of a value with one item on each line, as a string. -/
def block (a : α) : String := (toValue a).block

/-- The value that a whole text holds. -/
def read? (cs : List Char) : Except Json.Fault α := do
  match ofValue? (← (schema α).ofText? cs) with
  | some a => return a
  | none => throw .mismatch

/-- The value that a whole string holds. -/
def ofText? (s : String) : Except Json.Fault α := read? s.toList

/-- A natural number of a given number of bits. -/
def natural (bits : Nat) : Schema := .integer 0 (1 <<< bits - 1 : Nat)

/-- A signed number of a given number of bits, its sign included. -/
def signed (bits : Nat) : Schema :=
  let half : Nat := 1 <<< (bits - 1)
  .integer (-half) (half - 1)

/-- A record with given fields, which are kept as they are; others are passed over. -/
def openRecord (fs : List (String × Schema)) : Schema := .record (.ofList fs) false some

/-- One of some words. -/
def word (ws : List String) : Schema := .word (ws.map String.toList)

/-- Seconds, of which there are less than 2⁶⁴, and the nanoseconds past them.  Whole seconds among
    the nanoseconds are carried over. -/
def carrySeconds : List Value → Option (List Value)
  | [.integer s, .integer n] =>
    let s := s + n / 1000000000
    if s < UInt64.size then some [.integer s, .integer (n % 1000000000)] else none
  | _ => none

/-- A span of time: its whole seconds and the nanoseconds past them, and nothing else. -/
def span : Schema :=
  .record (.ofList [("secs", natural 64), ("nanos", natural 32)]) true carrySeconds

/-- A span of time as it is written. -/
def spanValue (t : Nat) : Value :=
  .fields [("secs", .natural (Time.secs t)), ("nanos", .natural (Time.nanos t))]

/-- The natural number that a value is. -/
def natural? : Value → Option Nat
  | .integer (.ofNat n) => some n
  | _ => none

/-- The flag that a value is. -/
def flag? : Value → Option Bool
  | .flag b => some b
  | _ => none

/-- The values of the fields of a record, in order. -/
def parts? : Value → Option (List Value)
  | .record fields => some (fields.map (·.2))
  | _ => none

/-- The span of time that a value is. -/
def span? (v : Value) : Option Nat := do
  match ← parts? v with
  | [s, n] => return Time.ofSecs (← natural? s) + (← natural? n)
  | _ => none

/-- The items of a list, each taken back. -/
def list? (v : Value) : Option (List α) :=
  match v with
  | .list vs => vs.mapM ofValue?
  | _ => none

/-- The word that a value is. -/
def word? : Value → Option String
  | .text s => some (String.ofList s)
  | _ => none

end Saved

end TokenMesh
