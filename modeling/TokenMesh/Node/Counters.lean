namespace TokenMesh

/-!
# Counters

What a node counts from its start on.  Restarts do not reset the counters, so the totals of an
experiment can be read off at its end.
-/

/-- The counters of one node. -/
structure Counters where
  announcesSent : Nat := 0
  beaconsSent : Nat := 0
  dataOriginated : Nat := 0
  dataForwarded : Nat := 0
  dataReceived : Nat := 0
  dataAbsorbed : Nat := 0
  forwardsWithoutNeighbor : Nat := 0
  controlsSent : Nat := 0
  recoversSent : Nat := 0
  recoversAccepted : Nat := 0
  recoversRejected : Nat := 0
  neighborsAdded : Nat := 0
  neighborsDroppedFull : Nat := 0
  neighborsExpired : Nat := 0
  malformedDropped : Nat := 0
  droppedWhileDown : Nat := 0
  restarts : Nat := 0
deriving DecidableEq, Repr

namespace Counters

/-- All messages a node has sent. -/
def messagesSent (c : Counters) : Nat :=
  c.announcesSent + c.beaconsSent + c.dataOriginated + c.dataForwarded + c.controlsSent +
    c.recoversSent

/-- Reports hold 64 bits, and a total that does not fit is none. -/
def messagesSent? (c : Counters) : Option Nat :=
  if c.messagesSent < UInt64.size then some c.messagesSent else none

end Counters

end TokenMesh
