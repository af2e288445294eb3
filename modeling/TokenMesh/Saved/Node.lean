import TokenMesh.Address.Reader
import TokenMesh.Node
import TokenMesh.Saved

namespace TokenMesh

/-!
# Saved nodes

What is saved of a node: its role by its title, its token, the addresses of its neighbors, whether
it has power, and its counters under their names.
-/

open Json Saved

namespace Counters

/-- The names of the counters, in order. -/
def names : List String :=
  ["announces_sent", "beacons_sent", "data_originated", "data_forwarded", "data_received",
    "data_absorbed", "forwards_without_neighbor", "controls_sent", "recovers_sent",
    "recovers_accepted", "recovers_rejected", "neighbors_added", "neighbors_dropped_full",
    "neighbors_expired", "malformed_dropped", "dropped_while_down", "restarts"]

/-- The counters in the order of their names. -/
def toList (c : Counters) : List Nat :=
  [c.announcesSent, c.beaconsSent, c.dataOriginated, c.dataForwarded, c.dataReceived,
    c.dataAbsorbed, c.forwardsWithoutNeighbor, c.controlsSent, c.recoversSent, c.recoversAccepted,
    c.recoversRejected, c.neighborsAdded, c.neighborsDroppedFull, c.neighborsExpired,
    c.malformedDropped, c.droppedWhileDown, c.restarts]

/-- The counters given in the order of their names. -/
def ofList? : List Nat → Option Counters
  | [a, b, c, d, e, f, g, h, i, j, k, l, m, n, o, p, q] =>
    some ⟨a, b, c, d, e, f, g, h, i, j, k, l, m, n, o, p, q⟩
  | _ => none

@[simp] theorem ofList?_toList (c : Counters) : ofList? c.toList = some c := rfl

end Counters

instance : Saved Role where
  schema := word (Role.all.map Role.title)
  toValue r := .string r.title
  ofValue? v := (word? v).bind Role.ofTitle?

instance : Saved Token where
  schema := openRecord [("value", signed 32), ("version", signed 16)]
  toValue t := .fields [("value", .integer t.value.toInt), ("version", .integer t.version.toInt)]
  ofValue? v :=
    match parts? v with
    | some [.integer value, .integer version] => some ⟨.ofInt value, .ofInt version⟩
    | _ => none

instance : Saved Address where
  schema := .text fun cs => (Address.read? cs).map Address.print
  toValue a := .text a.print
  ofValue?
    | .text cs => Address.read? cs
    | _ => none

instance : Saved Counters where
  schema := openRecord (Counters.names.map fun name => (name, natural 64))
  toValue c := .fields (Counters.names.zip (c.toList.map .natural))
  ofValue? v := do Counters.ofList? (← (← parts? v).mapM natural?)

instance : Saved Status where
  schema := openRecord
    [("role", schema Role), ("token", schema Token), ("neighbors", .list (schema Address)),
      ("powered_down", .flag), ("stats", schema Counters)]
  toValue s := .fields
    [("role", toValue s.role), ("token", toValue s.token),
      ("neighbors", .list (s.neighbors.map toValue)), ("powered_down", .flag s.poweredDown),
      ("stats", toValue s.counters)]
  ofValue? v := do
    match ← parts? v with
    | [role, token, neighbors, down, counters] =>
      return ⟨← ofValue? role, ← ofValue? token, ← list? neighbors, ← flag? down,
        ← ofValue? counters⟩
    | _ => none

end TokenMesh
