import TokenMesh.Json.Skip

namespace TokenMesh.Json

/-!
# Reading by a schema

A schema says what a text is expected to hold.  The text is read from left to right and the first
thing that is wrong decides.  What is read comes out in one form: fields in the order of the
schema, names of counts in ascending order, absent optional values as null.

* `Schema`: what can be expected;
* `Schema.read`: what a text holds by a schema, and the text after it;
* `Schema.ofText?`: what a whole text holds.

A record may be written as a list of its fields, and a word as a record of one null field.
-/

mutual

/-- What a text is expected to hold. -/
inductive Schema
  | flag
  /-- A whole number between two others, which it may equal. -/
  | integer (low high : Int)
  /-- A text that is accepted, and is replaced by what accepting it gives. -/
  | text (accept : List Char → Option (List Char))
  /-- One of some words. -/
  | word (words : List (List Char))
  /-- A value or null. -/
  | optional (s : Schema)
  | list (item : Schema)
  /-- A record with any names, all of whose fields are alike.  The last one of a name counts. -/
  | table (item : Schema)
  /-- A record with given fields.  A closed one has no others.  `finish` puts the values of the
      fields into their final form, or refuses them. -/
  | record (fields : Fields) (closed : Bool) (finish : List Value → Option (List Value))

/-- The fields of a record, by their names. -/
inductive Fields
  | nil
  | cons (name : List Char) (s : Schema) (rest : Fields)

end

/-- A field while its record is read. -/
structure Slot where
  name : List Char
  read : List Char → Except Fault (Value × List Char)
  /-- What an absent field stands for, if it may be absent. -/
  absent : Option Value
  /-- What was read for the field so far. -/
  value : Option Value

namespace Slot

/-- The value of a field at the end of its record. -/
def final? (s : Slot) : Option Value := s.value.or s.absent

end Slot

/-- The final values of all fields, if none is missing. -/
def finalValues? (slots : List Slot) : Option (List Value) := slots.mapM Slot.final?

/-- The fields of a record, given their values in order. -/
def zipNames (slots : List Slot) (vs : List Value) : Value := .record ((slots.map (·.name)).zip vs)

/-- The record that the values of its fields make, if they fit together. -/
def finishRecord (slots : List Slot) (finish : List Value → Option (List Value)) :
    Except Fault Value :=
  match (finalValues? slots).bind finish with
  | some vs => .ok (zipNames slots vs)
  | none => .error .mismatch

/-- The first value that is read for a field.  A name that is not among the fields is passed over
    with its value, unless the record is closed, and a second value is one too many. -/
def readField (closed : Bool) (name : List Char) :
    List Slot → List Char → Except Fault (List Slot × List Char)
  | [], cs => if closed then .error .mismatch else do return ([], ← skip (← readColon cs))
  | s :: slots, cs =>
    if s.name = name then
      if s.value.isSome then .error .mismatch
      else do
        let (v, cs) ← s.read (← readColon cs)
        return ({ s with value := some v } :: slots, cs)
    else do
      let (slots, cs) ← readField closed name slots cs
      return (s :: slots, cs)

/-- The fields of a record, in any order, and the text after its end.  Whether they make a record
    is settled before its end is passed. -/
def readFields (closed : Bool) (finish : List Value → Option (List Value)) :
    (fuel : Nat) → (first : Bool) → List Slot → List Char → Except Fault (Value × List Char)
  | 0, _, _, _ => .error .unfinished
  | fuel + 1, first, slots, cs => do
    match ← next closeBrace first cs with
    | .closed r => return (← finishRecord slots finish, r)
    | .item cs =>
      let (name, cs) ← readName cs
      let (slots, cs) ← readField closed name slots cs
      readFields closed finish fuel false slots cs

/-- The fields of a record that is written as a list, in order; all of them have to be there. -/
def readPositions (first : Bool) : List Slot → List Char → Except Fault (List Slot × List Char)
  | [], cs => .ok ([], cs)
  | s :: slots, cs => do
    match ← next ']' first cs with
    | .closed _ => throw .mismatch
    | .item cs =>
      let (v, cs) ← s.read cs
      let (slots, cs) ← readPositions false slots cs
      return ({ s with value := some v } :: slots, cs)

/-- A record in either of its forms. -/
def readRecord (slots : List Slot) (closed : Bool) (finish : List Value → Option (List Value))
    (cs : List Char) : Except Fault (Value × List Char) :=
  match skipBlanks cs with
  | [] => .error .unfinished
  | c :: r =>
    if c = '[' then do
      let (slots, r) ← readPositions true slots r
      -- the fields have to make a record before an item too many is noticed
      let v ← finishRecord slots finish
      return (v, ← closeList r)
    else if c = openBrace then readFields closed finish (r.length + 1) true slots r
    else .error (unfit (c :: r))

/-- The items of a list after those that are read, and the text after its end. -/
def readItems (read : List Char → Except Fault (Value × List Char)) :
    (fuel : Nat) → (first : Bool) → List Char → Except Fault (List Value × List Char)
  | 0, _, _ => .error .unfinished
  | fuel + 1, first, cs => do
    match ← next ']' first cs with
    | .closed r => return ([], r)
    | .item cs =>
      let (v, cs) ← read cs
      let (vs, cs) ← readItems read fuel false cs
      return (v :: vs, cs)

/-- Fields in ascending order of their names, with a value put under a name. -/
def putField (name : List Char) (v : Value) :
    List (List Char × Value) → List (List Char × Value)
  | [] => [(name, v)]
  | (k, w) :: fields =>
    if name < k then (name, v) :: (k, w) :: fields
    else if k < name then (k, w) :: putField name v fields
    else (name, v) :: fields

/-- The fields of a table, put among those that are read, and the text after its end. -/
def readEntries (read : List Char → Except Fault (Value × List Char)) :
    (fuel : Nat) → (first : Bool) → List (List Char × Value) → List Char →
    Except Fault (List (List Char × Value) × List Char)
  | 0, _, _, _ => .error .unfinished
  | fuel + 1, first, fields, cs => do
    match ← next closeBrace first cs with
    | .closed r => return (fields, r)
    | .item cs =>
      let (name, cs) ← readName cs
      let (v, cs) ← read (← readColon cs)
      readEntries read fuel false (putField name v fields) cs

/-- A text between quotes. -/
def readQuoted (cs : List Char) : Except Fault (List Char × List Char) :=
  match skipBlanks cs with
  | '"' :: r => readText none r
  | r => .error (unfit r)

/-- A null. -/
def readNull (cs : List Char) : Except Fault (List Char) :=
  match skipBlanks cs with
  | 'n' :: r => readLiteral ['u', 'l', 'l'] r
  | r => .error (unfit r)

/-- One of some words between quotes. -/
def readAmong (words : List (List Char)) (cs : List Char) :
    Except Fault (List Char × List Char) := do
  let (s, cs) ← readQuoted cs
  if words.contains s then .ok (s, cs) else .error .mismatch

/-- A text from the quote on with which a name begins; nothing else may stand in its place. -/
def openName (cs : List Char) : Except Fault (List Char) :=
  match skipBlanks cs with
  | [] => .error .unfinished
  | c :: r => if c = '"' then .ok (c :: r) else .error .malformed

/-- The text after the end of a word that is written as a record. -/
def closeWord (cs : List Char) : Except Fault (List Char) :=
  match skipBlanks cs with
  | [] => .error .unfinished
  | c :: r => if c = closeBrace then .ok r else .error .malformed

/-- A word, alone or as the name of a null.  Nothing else can stand in its place. -/
def readWord (words : List (List Char)) (cs : List Char) :
    Except Fault (Value × List Char) :=
  match skipBlanks cs with
  | [] => .error .unfinished
  | c :: r =>
    if c = '"' then do
      let (s, cs) ← readAmong words (c :: r)
      return (.text s, cs)
    else if c = openBrace then do
      let (s, cs) ← readAmong words (← openName r)
      return (.text s, ← closeWord (← readNull (← readColon cs)))
    else .error .malformed

/-- A whole number between two others. -/
def readInteger (low high : Int) (cs : List Char) : Except Fault (Value × List Char) :=
  match skipBlanks cs with
  | [] => .error .unfinished
  | c :: r =>
    if c = '-' ∨ c.isDigit then do
      let (n, cs) ← readNumber (c :: r)
      match n.integer? with
      | some i => if low ≤ i ∧ i ≤ high then .ok (.integer i, cs) else .error .mismatch
      | none => .error .mismatch
    else .error (unfit (c :: r))

/-- A flag. -/
def readFlag (cs : List Char) : Except Fault (Value × List Char) :=
  match skipBlanks cs with
  | 't' :: r => do return (.flag true, ← readLiteral ['r', 'u', 'e'] r)
  | 'f' :: r => do return (.flag false, ← readLiteral ['a', 'l', 's', 'e'] r)
  | r => .error (unfit r)

mutual

/-- What a text holds by a schema, and the text after it. -/
@[simp] def Schema.read : Schema → List Char → Except Fault (Value × List Char)
  | .flag, cs => readFlag cs
  | .integer low high, cs => readInteger low high cs
  | .text accept, cs => do
    let (s, cs) ← readQuoted cs
    match accept s with
    | some t => .ok (.text t, cs)
    | none => .error .mismatch
  | .word words, cs => readWord words cs
  | .optional s, cs =>
    match skipBlanks cs with
    | 'n' :: r => do return (.null, ← readLiteral ['u', 'l', 'l'] r)
    | r => s.read r
  | .list item, cs =>
    match skipBlanks cs with
    | '[' :: r => do
      let (vs, r) ← readItems item.read (r.length + 1) true r
      return (.list vs, r)
    | r => .error (unfit r)
  | .table item, cs =>
    match skipBlanks cs with
    | [] => .error .unfinished
    | c :: r =>
      if c = openBrace then do
        let (fields, r) ← readEntries item.read (r.length + 1) true [] r
        return (.record fields, r)
      else .error (unfit (c :: r))
  | .record fields closed finish, cs => readRecord fields.slots closed finish cs

/-- The fields of a record before anything is read. -/
def Fields.slots : Fields → List Slot
  | .nil => []
  | .cons name s rest =>
    let absent := match s with
      | .optional _ => some .null
      | _ => none
    ⟨name, s.read, absent, none⟩ :: rest.slots

end

namespace Schema

/-- What a whole text holds by a schema.  Nothing but blanks may follow. -/
def ofText? (s : Schema) (cs : List Char) : Except Fault Value := do
  let (v, cs) ← s.read cs
  if (skipBlanks cs).isEmpty then .ok v else .error .malformed

end Schema

/-- Fields given as a list. -/
def Fields.ofList : List (String × Schema) → Fields
  | [] => .nil
  | (name, s) :: fs => .cons name.toList s (ofList fs)

end TokenMesh.Json
