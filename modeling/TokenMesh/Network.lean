import TokenMesh.EventQueue
import TokenMesh.Network.Report
import TokenMesh.Node.Handling
import TokenMesh.Topology

namespace TokenMesh

/-!
# Networks

Many nodes, a topology of radio links between them and one virtual clock.  Nothing happens but the
events of a queue: datagrams that arrive, timers that fire, failures that are considered, and
actions that an experiment has planned.

* `Network`: the state of such a world;
* `Network.build`: a network in which all nodes are switched on at time zero;
* `Network.addressOf`, `Network.indexOf?`: the addresses of nodes, and the node at an address;
* `Network.converged`, `Network.summary`: what is said about a network.
-/

/-- How failure injection picks its victim. -/
inductive FailureMode
  /-- Any relay with power. -/
  | random
  /-- A relay with power next to a node without, and any relay with power as long as all nodes
      have it. -/
  | location
deriving DecidableEq, Repr

namespace FailureMode

/-- All failure modes. -/
def all : List FailureMode := [random, location]

/-- The name of a failure mode. -/
def name : FailureMode → String
  | random => "random"
  | location => "location"

/-- The failure mode that a word names, in either case. -/
def ofText? (s : String) : Option FailureMode := all.find? fun m => Text.isWord m.name s

/-- The failure mode with the given name. -/
def ofName? (s : String) : Option FailureMode := all.find? fun m => m.name == s

@[simp] theorem ofName?_name (m : FailureMode) : ofName? m.name = some m := by
  cases m <;> decide

end FailureMode

/-- Random crashes. -/
structure FailureConfig where
  mode : FailureMode
  /-- How often a crash is considered. -/
  tick : Nat
  /-- A crash is tried once in so many ticks on average; zero never tries one. -/
  probability : Nat
  /-- The most nodes that are without power at once. -/
  maxConcurrent : Nat
  /-- How long a crashed node stays without power. -/
  recoveryDelay : Nat
deriving DecidableEq, Repr

/-- What an experiment can make happen. -/
inductive Action
  | originate (index : Nat) (value : Option Int32)
  | crash (index recovery : Nat)
  | setRole (index : Nat) (role : Role)
  | setLossRate (rate : Binary64)
deriving DecidableEq, Repr

/-- What happens in a network. -/
inductive Occurrence
  | deliver (receiver : Nat) (sender : Address) (bytes : List UInt8)
  /-- A timer belongs to the generation it was set in; a restart begins a new one. -/
  | timer (index : Nat) (kind : TimerKind) (generation : Nat)
  | failureTick
  | action (a : Action)
deriving DecidableEq, Repr

/-- A node of a network, and how often it has been switched on again. -/
structure Member where
  node : Node
  generation : Nat
deriving DecidableEq, Repr

/-- The state of a network. -/
structure Network where
  clock : Nat
  members : Array Member
  topology : Topology
  settings : ProtocolSettings
  queue : EventQueue Occurrence
  /-- The number of the next event to be scheduled. -/
  nextSeq : Nat
  generator : Generator
  metrics : Metrics
  failures : Option FailureConfig
  /-- When a token was last originated. -/
  lastBegin : Option Nat
  /-- When all nodes with power first held one token after that. -/
  convergedAt : Option Nat
  /-- All that was reported so far, the latest first. -/
  journal : List Notice

/-- Why an event cannot be processed. -/
inductive Fault
  /-- A link leads to a node that does not exist. -/
  | noSuchNode
  /-- An instant lies beyond what clocks can show. -/
  | clockOverflow
  /-- A random choice among nothing. -/
  | emptyRange
  /-- A run did not come to its end within the number of events it was given. -/
  | unfinished
deriving DecidableEq, Repr

namespace Network

/-- The port of every node. -/
def port : UInt16 := 30001

/-- Nodes live on 10.0.0.0/16: the address of a node ends in its index plus one. -/
def addressOf (i : Nat) : Address :=
  .v4 ⟨10, 0, ((i + 1) / 256).toUInt8, (i + 1).toUInt8⟩ port

/-- The address of a node, unless its index is the last of 32 bits, which nothing follows. -/
def addressOf? (i : Nat) : Option Address :=
  if (i + 1) % UInt32.size = 0 then none else some (addressOf i)

/-- The number that an address of a node ends in. -/
def hostNumber? : Address → Option Nat
  | .v4 ⟨10, 0, c, d⟩ p => if p = port then some (c.toNat * 256 + d.toNat) else none
  | _ => none

/-- The last of the first `count` nodes that has an address.  Addresses repeat every 2¹⁶ nodes. -/
def indexAt? (count : Nat) (a : Address) : Option Nat :=
  match hostNumber? a with
  | none => none
  | some host =>
    let first := (host + 65535) % 65536
    if first < count then some (first + (count - 1 - first) / 65536 * 65536) else none

/-- The node that a message to an address reaches. -/
def indexOf? (net : Network) (a : Address) : Option Nat := indexAt? net.members.size a

/-- How many nodes there are. -/
def size (net : Network) : Nat := net.members.size

/-- A node by its index. -/
def node? (net : Network) (i : Nat) : Option Node := net.members[i]?.map (·.node)

/-- The nodes in the order of their indices. -/
def nodes (net : Network) : List Node := net.members.toList.map (·.node)

/-- The nodes with power. -/
def liveNodes (net : Network) : List Node := net.nodes.filter fun n => !n.isDown

/-- All that was reported so far, in order. -/
def reports (net : Network) : List Notice := net.journal.reverse

/-- An instant, if clocks can show it. -/
def shown (t : Nat) : Except Fault Nat :=
  if t < Time.horizon then .ok t else .error .clockOverflow

/-- A check that all instants that are to be set lie where they can be counted. -/
def ensure (inTime : Bool) : Except Fault Unit :=
  if inTime then .ok () else .error .clockOverflow

/-- The present instant, as a node is told it. -/
def present (net : Network) : Except Fault Nat := shown net.clock

/-! ### Small changes -/

/-- The network with something reported. -/
def tell (net : Network) (notices : List Notice) : Network :=
  { net with journal := notices.reverseAux net.journal }

/-- The network with one more event in its queue. -/
def schedule (net : Network) (time : Nat) (e : Occurrence) : Network :=
  { net with queue := net.queue.push ⟨time, net.nextSeq, e⟩, nextSeq := net.nextSeq + 1 }

/-- The network with another state of one of its nodes. -/
def setNode (net : Network) (i : Nat) (n : Node) : Network :=
  { net with members := net.members.modify i fun m => { m with node := n } }

/-- The network after a reaction of one of its nodes, nothing of which is sent yet. -/
def absorb (net : Network) (i : Nat) (r : Reaction) : Network :=
  (net.setNode i r.node).tell r.notices

/-- A timer of a node is set. -/
def setTimer (net : Network) (i : Nat) (kind : TimerKind) (generation after : Nat) : Network :=
  net.schedule (net.clock + after) (.timer i kind generation)

/-- The timers that a node sets when it is switched on. -/
def setBootTimers (net : Network) (i generation : Nat) : Network :=
  (net.setTimer i .announce generation net.settings.initialAnnounceDelay).setTimer i .beacon
    generation net.settings.beaconPeriod

/-- The clock moves forward, never back. -/
def advanceTo (net : Network) (time : Nat) : Network := { net with clock := max net.clock time }

/-! ### Building a network -/

/-- The settings of a node: those of the network, but every node starts as a relay and has a seed
    of its own. -/
def settingsOf (s : ProtocolSettings) (seed : UInt64) (i : Nat) : ProtocolSettings :=
  { s with role := .relay, seed := some (seed + (i + 1).toUInt64) }

/-- One more node is switched on. -/
def addNode (seed : UInt64) (net : Network) (i : Nat) : Network :=
  let r := Node.start (addressOf i) (settingsOf net.settings seed i)
  ({ net with members := net.members.push ⟨r.node, 0⟩ }.tell r.notices).setBootTimers i 0

/-- A network in which all nodes of a topology are switched on at time zero. -/
def build (t : Topology) (s : ProtocolSettings) (seed : UInt64) : Network :=
  let none : Network :=
    { clock := 0
      members := #[]
      topology := t
      settings := s
      queue := .empty
      nextSeq := 0
      generator := .ofSeed seed
      metrics := {}
      failures := .none
      lastBegin := .none
      convergedAt := .none
      journal := [] }
  (List.range t.nodeCount).foldl (addNode seed) none

/-- Failures from now on.  A tick of zero is refused with a warning. -/
def withFailures (net : Network) (f : FailureConfig) : Network :=
  if f.tick = 0 then net.tell [.failuresDisabled]
  else { net with failures := some f }.schedule (net.clock + f.tick) .failureTick

/-- A node in another role, from now on. -/
def setRole (net : Network) (i : Nat) (role : Role) : Network :=
  match net.node? i with
  | some n => net.absorb i (n.setRole role)
  | none => net

/-- An action is planned. -/
def plan (net : Network) (time : Nat) (a : Action) : Network := net.schedule time (.action a)

/-! ### What is said about a network -/

/-- The highest version that a node with power holds; zero where none has power. -/
def highestVersion (net : Network) : Int16 :=
  ((net.liveNodes.map (·.token.version)).max?).getD 0

/-- How many nodes with power hold the highest version. -/
def consistentNodes (net : Network) : Nat :=
  let highest := net.highestVersion
  (net.liveNodes.filter fun n => n.token.version == highest).length

/-- Whether all nodes with power hold one token. -/
def converged (net : Network) : Bool :=
  match net.members.find? fun m => !m.node.isDown with
  | none => true
  | some first => net.members.all fun m => m.node.isDown || m.node.token == first.node.token

/-- How long it took until all nodes with power held the latest token. -/
def convergenceTime? (net : Network) : Option Nat :=
  match net.lastBegin, net.convergedAt with
  | some begun, some done => some (done - begun)
  | _, _ => none

/-- The whole milliseconds of a span, as 64 bits hold them. -/
def millis64 (t : Nat) : UInt64 := (Time.millis t).toUInt64

/-- What is said about a network at the end of a run. -/
def summary (net : Network) : Summary where
  endTimeMs := millis64 net.clock
  nodeCount := net.size
  highestVersion := net.highestVersion
  consistentNodes := net.consistentNodes
  converged := net.converged
  convergenceTimeMs := net.convergenceTime?.map millis64
  metrics := net.metrics
  nodes := net.nodes.map (·.status)

end Network

end TokenMesh
