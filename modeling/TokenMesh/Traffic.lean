import TokenMesh.Saved

namespace TokenMesh

/-!
# Traffic

What the two ends of a transport count.  The counters hold 64 bits and wrap.
-/

open Json Saved

/-- What is counted where messages are sent. -/
inductive SendCounter
  | unicasts
  | multicasts
  | bytes
  | errors
deriving DecidableEq, Repr

/-- What is counted where datagrams are received. -/
inductive ReceiveCounter
  | datagrams
  | errors
deriving DecidableEq, Repr

/-- The counters of the sending end. -/
structure SendTraffic where
  unicasts : UInt64 := 0
  multicasts : UInt64 := 0
  bytes : UInt64 := 0
  errors : UInt64 := 0
deriving DecidableEq, Repr

/-- The counters of the receiving end. -/
structure ReceiveTraffic where
  datagrams : UInt64 := 0
  errors : UInt64 := 0
deriving DecidableEq, Repr

namespace SendCounter

/-- All counters. -/
def all : List SendCounter := [unicasts, multicasts, bytes, errors]

/-- The name of a counter. -/
def name : SendCounter → String
  | unicasts => "unicasts_sent"
  | multicasts => "multicasts_sent"
  | bytes => "bytes_sent"
  | errors => "send_errors"

/-- The counter of a given name. -/
def ofName? (s : String) : Option SendCounter := all.find? fun c => c.name == s

end SendCounter

namespace ReceiveCounter

/-- All counters. -/
def all : List ReceiveCounter := [datagrams, errors]

/-- The name of a counter. -/
def name : ReceiveCounter → String
  | datagrams => "datagrams_received"
  | errors => "receive_errors"

/-- The counter of a given name. -/
def ofName? (s : String) : Option ReceiveCounter := all.find? fun c => c.name == s

end ReceiveCounter

namespace SendTraffic

/-- The counters with something added to one of them. -/
def add (t : SendTraffic) (c : SendCounter) (n : UInt64) : SendTraffic :=
  match c with
  | .unicasts => { t with unicasts := t.unicasts + n }
  | .multicasts => { t with multicasts := t.multicasts + n }
  | .bytes => { t with bytes := t.bytes + n }
  | .errors => { t with errors := t.errors + n }

end SendTraffic

namespace ReceiveTraffic

/-- The counters with something added to one of them. -/
def add (t : ReceiveTraffic) (c : ReceiveCounter) (n : UInt64) : ReceiveTraffic :=
  match c with
  | .datagrams => { t with datagrams := t.datagrams + n }
  | .errors => { t with errors := t.errors + n }

end ReceiveTraffic

instance : Saved SendTraffic where
  schema := openRecord (SendCounter.all.map fun c => (c.name, natural 64))
  toValue t := .fields (SendCounter.all.map SendCounter.name |>.zip
    ([t.unicasts, t.multicasts, t.bytes, t.errors].map fun n => .natural n.toNat))
  ofValue? v := do
    match ← (← parts? v).mapM natural? with
    | [unicasts, multicasts, bytes, errors] =>
      return ⟨unicasts.toUInt64, multicasts.toUInt64, bytes.toUInt64, errors.toUInt64⟩
    | _ => none

instance : Saved ReceiveTraffic where
  schema := openRecord (ReceiveCounter.all.map fun c => (c.name, natural 64))
  toValue t := .fields (ReceiveCounter.all.map ReceiveCounter.name |>.zip
    ([t.datagrams, t.errors].map fun n => .natural n.toNat))
  ofValue? v := do
    match ← (← parts? v).mapM natural? with
    | [datagrams, errors] => return ⟨datagrams.toUInt64, errors.toUInt64⟩
    | _ => none

end TokenMesh
