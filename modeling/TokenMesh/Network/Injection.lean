import TokenMesh.Network
import TokenMesh.Topology.Connectivity

namespace TokenMesh

/-!
# Crashes

Power failures of single nodes, planned or at random.  Random ones are considered once a tick: with
the given probability a relay with power is chosen, and it crashes unless that would cut the nodes
with power off from each other.  Sources and sinks never fail at random.

* `Network.crash`: a node loses power;
* `Network.considerFailure`: one tick of failure injection.
-/

namespace Network

/-- A node loses power, and its restart timer is set, if a clock can show when.  A node without
    power stays as it is, and so does a network without such a node. -/
def crash (net : Network) (i recovery : Nat) : Except Fault Network := do
  let now ← net.present
  match net.members[i]? with
  | none => return net
  | some m =>
    ensure (m.node.inTime (.powerDown recovery now))
    match m.node.powerDown recovery now with
    | .error r => return net.tell [.notCrashed i r]
    | .ok r =>
      let net := net.absorb i r
      let net := { net with metrics := { net.metrics with crashes := net.metrics.crashes + 1 } }
      return net.setTimer i .restart m.generation recovery

/-- Which nodes are without power. -/
def downFlags (net : Network) : List Bool := net.nodes.map (·.isDown)

/-- Whether a node may fail at random. -/
def mayFail (n : Node) : Bool := !n.isDown && n.role == .relay

/-- The nodes that may fail at random, in ascending order. -/
def failable (net : Network) : List Nat :=
  (List.range net.size).filter fun i => (net.node? i).any mayFail

/-- The nodes next to a node without power, in the order in which they are found. -/
def besideDown (net : Network) : List Nat :=
  ((List.range net.size).filter fun i => (net.node? i).any (·.isDown)).flatMap
    net.topology.neighbors

/-- The candidates of a failure mode, in ascending order. -/
def candidates (net : Network) (mode : FailureMode) : Except Fault (List Nat) :=
  match mode with
  | .random => .ok net.failable
  | .location =>
    if net.downFlags.contains true then
      let beside := net.besideDown
      if beside.any (net.size ≤ ·) then .error .noSuchNode
      else .ok (net.failable.filter beside.contains)
    else .ok net.failable

/-- A number below a bound, drawn from the network's generator. -/
def draw (net : Network) (bound : Nat) : Except Fault (Nat × Network) :=
  match net.generator.below? bound with
  | some (n, g) => .ok (n, { net with generator := g })
  | none => .error .emptyRange

/-- A chosen node crashes unless the nodes with power would lose touch with each other. -/
def failNode (net : Network) (i recovery : Nat) : Except Fault Network :=
  match net.topology.isConnectedWithout? (net.downFlags.set i true) with
  | none => .error .noSuchNode
  | some false =>
    .ok { net with metrics := { net.metrics with vetoed := net.metrics.vetoed + 1 } }
  | some true => (net.tell [.failing i net.clock]).crash i recovery

/-- A victim is chosen and fails, if there is one. -/
def injectFailure (net : Network) (f : FailureConfig) : Except Fault Network := do
  let cs ← net.candidates f.mode
  if cs.isEmpty then return net
  let (k, net) ← net.draw cs.length
  match cs[k]? with
  | some i => net.failNode i f.recoveryDelay
  | none => throw .noSuchNode

/-- One tick of failure injection: the next tick is planned, which has to lie within the longest
    span from the start, and then a failure is tried unless too many nodes are without power
    already or the odds are against it. -/
def considerFailure (net : Network) : Except Fault Network :=
  match net.failures with
  | none => .ok net
  | some f => do
    if Time.spanLimit ≤ net.clock + f.tick then throw .clockOverflow
    let net := net.schedule (net.clock + f.tick) .failureTick
    -- nothing is drawn where no failure is allowed
    if f.maxConcurrent ≤ (net.downFlags.filter id).length then return net
    if f.probability = 0 then return net
    let (k, net) ← net.draw f.probability
    if k = 0 then net.injectFailure f else return net

end Network

end TokenMesh
