import TokenMesh.Message
import TokenMesh.Node
import TokenMesh.Tally

namespace TokenMesh

/-!
# Reports of a run

What a network counts while it runs, and what is said about a run at its end.
-/

/-- Counters of a whole network. -/
structure Metrics where
  /-- Messages put on the air, by the names of their kinds. -/
  sent : Tally := .empty
  /-- Deliveries to single receivers; one multicast may be delivered many times. -/
  delivered : Nat := 0
  /-- Deliveries lost on a link or for want of one. -/
  lost : Nat := 0
  crashes : Nat := 0
  /-- Crashes that were left out because they would have cut the network in two. -/
  vetoed : Nat := 0
deriving DecidableEq, Repr

/-- The outcome of a run.  Milliseconds are counted in 64 bits and wrap. -/
structure Summary where
  endTimeMs : UInt64
  nodeCount : Nat
  highestVersion : Int16
  consistentNodes : Nat
  converged : Bool
  /-- From the latest origination until all nodes with power held its token. -/
  convergenceTimeMs : Option UInt64
  metrics : Metrics
  nodes : List Status
deriving DecidableEq, Repr

namespace Metrics

/-- One more message of a kind on the air. -/
def record (m : Metrics) (kind : Message.Kind) : Metrics := { m with sent := m.sent.add kind.name }

/-- The messages of a kind put on the air. -/
def sentOf (m : Metrics) (kind : Message.Kind) : Nat := m.sent.count kind.name

/-- All messages put on the air. -/
def totalSent (m : Metrics) : Nat := m.sent.total

end Metrics

namespace Summary

/-- The tokens of all nodes. -/
def tokens (s : Summary) : List Token := s.nodes.map (·.token)

end Summary

end TokenMesh
