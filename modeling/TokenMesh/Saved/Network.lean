import TokenMesh.Network
import TokenMesh.Saved.Node
import TokenMesh.Topology.Shape

namespace TokenMesh

/-!
# Saved runs

What is saved of a network: the outcome of a run with all counters, and how failures were
configured.  Shapes and failure modes go by their names.
-/

open Json Saved

instance : Saved Shape where
  schema := word (Shape.all.map Shape.name)
  toValue k := .string k.name
  ofValue? v := (word? v).bind Shape.ofName?

instance : Saved FailureMode where
  schema := word (FailureMode.all.map FailureMode.name)
  toValue m := .string m.name
  ofValue? v := (word? v).bind FailureMode.ofName?

instance : Saved FailureConfig where
  schema := openRecord
    [("mode", schema FailureMode), ("tick", span), ("probability", natural 32),
      ("max_concurrent", natural 64), ("recovery_delay", span)]
  toValue f := .fields
    [("mode", toValue f.mode), ("tick", spanValue f.tick),
      ("probability", .natural f.probability), ("max_concurrent", .natural f.maxConcurrent),
      ("recovery_delay", spanValue f.recoveryDelay)]
  ofValue? v := do
    match ← parts? v with
    | [mode, tick, probability, most, delay] =>
      return ⟨← ofValue? mode, ← span? tick, ← natural? probability, ← natural? most,
        ← span? delay⟩
    | _ => none

instance : Saved Tally where
  schema := .table (natural 64)
  toValue t := .fields (t.entries.map fun e => (e.1, .natural e.2))
  ofValue?
    | .record fields => fields.foldlM (fun t f => do
        return t.put (String.ofList f.1) (← natural? f.2)) .empty
    | _ => none

instance : Saved Metrics where
  schema := openRecord
    [("messages_sent", schema Tally), ("messages_delivered", natural 64),
      ("messages_lost", natural 64), ("crashes", natural 64), ("failures_vetoed", natural 64)]
  toValue m := .fields
    [("messages_sent", toValue m.sent), ("messages_delivered", .natural m.delivered),
      ("messages_lost", .natural m.lost), ("crashes", .natural m.crashes),
      ("failures_vetoed", .natural m.vetoed)]
  ofValue? v := do
    match ← parts? v with
    | [sent, delivered, lost, crashes, vetoed] =>
      return ⟨← ofValue? sent, ← natural? delivered, ← natural? lost, ← natural? crashes,
        ← natural? vetoed⟩
    | _ => none

/-- A count of milliseconds that a value is. -/
def millis? (v : Value) : Option UInt64 := (natural? v).map Nat.toUInt64

/-- A convergence time as it is written. -/
def timeValue : Option UInt64 → Value
  | some t => .natural t.toNat
  | none => .null

/-- The convergence time that a value is. -/
def time? : Value → Option (Option UInt64)
  | .null => some none
  | v => (millis? v).map some

instance : Saved Summary where
  schema := openRecord
    [("end_time_ms", natural 64), ("node_count", natural 64), ("highest_version", signed 16),
      ("consistent_nodes", natural 64), ("converged", .flag),
      ("convergence_time_ms", .optional (natural 64)), ("metrics", schema Metrics),
      ("nodes", .list (schema Status))]
  toValue s := .fields
    [("end_time_ms", .natural s.endTimeMs.toNat), ("node_count", .natural s.nodeCount),
      ("highest_version", .integer s.highestVersion.toInt),
      ("consistent_nodes", .natural s.consistentNodes), ("converged", .flag s.converged),
      ("convergence_time_ms", timeValue s.convergenceTimeMs), ("metrics", toValue s.metrics),
      ("nodes", .list (s.nodes.map toValue))]
  ofValue? v := do
    match ← parts? v with
    | [stop, count, .integer version, consistent, converged, time, metrics, nodes] =>
      return ⟨← millis? stop, ← natural? count, .ofInt version, ← natural? consistent,
        ← flag? converged, ← time? time, ← ofValue? metrics, ← list? nodes⟩
    | _ => none

end TokenMesh
