import TokenMesh.Network

namespace TokenMesh

/-!
# The radio

Messages on the air.  Each is written in its wire format and counted, and then makes its way over
the links of the sender.  A unicast goes to the node at its address, a multicast to every node that
hears the sender; each delivery is lost or kept on its own.
-/

namespace Network

/-- A delivery is lost. -/
def lose (net : Network) : Network :=
  { net with metrics := { net.metrics with lost := net.metrics.lost + 1 } }

/-- One delivery over the link between two nodes: it is lost if there is none, or with the loss
    rate of the link, and else arrives one delay later.  Only a rate above zero takes a draw. -/
def transmit (net : Network) (sender receiver : Nat) (bytes : List UInt8) : Network :=
  match net.topology.lossRate? sender receiver with
  | none => net.lose
  | some rate =>
    let arrival : Occurrence := .deliver receiver (addressOf sender) bytes
    if rate.isPositive then
      let (lost, g) := net.generator.chance rate
      let net := { net with generator := g }
      if lost then net.lose else net.schedule (net.clock + net.topology.delay) arrival
    else net.schedule (net.clock + net.topology.delay) arrival

/-- A message is put on the air and counted. -/
def recordSent (net : Network) (m : Message) : Network :=
  { net with metrics := net.metrics.record m.kind }

/-- One message of a node on its way. -/
def send (sender : Nat) (net : Network) (out : Outbound) : Network :=
  let bytes := out.message.encode
  let net := net.recordSent out.message
  match out with
  | .unicast peer _ =>
    match net.indexOf? peer with
    | some receiver => net.transmit sender receiver bytes
    | none => net.lose
  | .multicast _ =>
    (net.topology.neighbors sender).foldl (fun net receiver => net.transmit sender receiver bytes)
      net

/-- All messages of a node on their way, in order. -/
def route (net : Network) (sender : Nat) (sends : List Outbound) : Network :=
  sends.foldl (send sender) net

/-- A node has reacted: its new state is kept and its messages are put on the air. -/
def follow (net : Network) (i : Nat) (r : Reaction) : Network := (net.absorb i r).route i r.sends

end Network

end TokenMesh
