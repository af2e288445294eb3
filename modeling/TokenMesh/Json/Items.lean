import TokenMesh.Json.Lexeme

namespace TokenMesh.Json

/-!
# Lists and records in JSON texts

What stands between the items of a list or of a record, and the fault of a value that does not fit.

* `next`: from one item to the next, or to the closing bracket;
* `unfit`: the fault of a value of the wrong kind.
-/

/-- What comes next in a list or record. -/
inductive Next
  /-- The closing bracket, and the text after it. -/
  | closed (rest : List Char)
  /-- An item at the start of a text. -/
  | item (cs : List Char)

/-- The next item of a list or record that ends with `close`, or its end.  Items after the first
    follow a comma, and no comma stands before the end. -/
def next (close : Char) (first : Bool) (cs : List Char) : Except Fault Next :=
  match skipBlanks cs with
  | [] => .error .unfinished
  | c :: r =>
    if c = close then .ok (.closed r)
    else if first then .ok (.item (c :: r))
    else if c = ',' then
      match skipBlanks r with
      | [] => .error .unfinished
      | d :: r => if d = close then .error .malformed else .ok (.item (d :: r))
    else .error .malformed

/-- The text after the bracket that ends a list, which has to come next. -/
def closeList (cs : List Char) : Except Fault (List Char) :=
  match skipBlanks cs with
  | [] => .error .unfinished
  | c :: r => if c = ']' then .ok r else .error .malformed

/-- The text after the colon between the name of a field and its value. -/
def readColon (cs : List Char) : Except Fault (List Char) :=
  match skipBlanks cs with
  | [] => .error .unfinished
  | c :: r => if c = ':' then .ok r else .error .malformed

/-- The name of a field at the start of a text. -/
def readName : List Char → Except Fault (List Char × List Char)
  | '"' :: r => readText none r
  | _ => .error .malformed

/-- The fault of a value that is not of the expected kind, at the start of a text without blanks.
    Literals, texts and numbers are read to their ends first, so a fault inside them goes before
    the misfit; of a list or record the bracket is enough. -/
def unfit (cs : List Char) : Fault :=
  let after {α : Type} (r : Except Fault α) : Fault :=
    match r with
    | .ok _ => .mismatch
    | .error e => e
  match cs with
  | [] => .unfinished
  | 'n' :: r => after (readLiteral ['u', 'l', 'l'] r)
  | 't' :: r => after (readLiteral ['r', 'u', 'e'] r)
  | 'f' :: r => after (readLiteral ['a', 'l', 's', 'e'] r)
  | '"' :: r => after (readText none r)
  | c :: r =>
    if c = '-' ∨ c.isDigit then after (readNumber (c :: r))
    else if c = '[' ∨ c = openBrace then .mismatch
    else .malformed

end TokenMesh.Json
