import TokenMesh.NeighborTable
import TokenMesh.Node.Counters
import TokenMesh.Notice
import TokenMesh.Settings

namespace TokenMesh

/-!
# Nodes

Everything that one device knows: its role, its neighbors, its copy of the token, whether it has
power, and what it has counted.  A node performs no input or output; it is told what happened and
answers with what to send.

* `Node.start`: a node that has just been switched on;
* `Node.coldStart`: what a power loss leaves of a node;
* `Node.sweep`: forget the neighbors whose time has come;
* `Node.status`: the part of a node that others may look at;
* `Event`, `Outbound`, `Reaction`: what a node is told, what it sends, and what comes of both;
* `TimerKind`: the timers that whoever drives a node has to keep for it.
-/

/-- Whether a node has power. -/
inductive Power
  | on
  /-- Off until the restart timer fires. -/
  | down (restartAt : Nat)
deriving DecidableEq, Repr

/-- One device of the mesh. -/
structure Node where
  address : Address
  settings : ProtocolSettings
  role : Role
  neighbors : NeighborTable
  token : Token
  generator : Generator
  power : Power
  counters : Counters
deriving DecidableEq, Repr

/-- What others may see of a node. -/
structure Status where
  role : Role
  token : Token
  neighbors : List Address
  poweredDown : Bool
  counters : Counters
deriving DecidableEq, Repr

/-- What can wake a node. -/
inductive Event
  | announceTimer
  | beaconTimer
  | restartTimer
  | inbound (sender : Address) (message : Message)
deriving DecidableEq, Repr

/-- The timers of a node. -/
inductive TimerKind
  | announce
  | beacon
  | restart
deriving DecidableEq, Repr

/-- A message that a node wants sent, to one peer or to all in radio range. -/
inductive Outbound
  | unicast (peer : Address) (message : Message)
  | multicast (message : Message)
deriving DecidableEq, Repr

/-- What comes of something that happens to a node. -/
structure Reaction where
  node : Node
  sends : List Outbound := []
  notices : List Notice := []
deriving DecidableEq, Repr

namespace TimerKind

/-- What a node is told when a timer fires. -/
def event : TimerKind → Event
  | announce => .announceTimer
  | beacon => .beaconTimer
  | restart => .restartTimer

theorem event_ne_restartTimer {k : TimerKind} (h : k ≠ .restart) : k.event ≠ .restartTimer := by
  cases k with
  | restart => exact absurd rfl h
  | _ => simp [event]

end TimerKind

namespace Outbound

/-- The message to be sent. -/
def message : Outbound → Message
  | unicast _ m => m
  | multicast m => m

end Outbound

namespace Node

/-- A report of this node. -/
def report (n : Node) (h : Happening) : Notice := .node n.address h

/-- Whether a node is without power. -/
def isDown (n : Node) : Bool :=
  match n.power with
  | .on => false
  | .down _ => true

/-- When a node without power is switched on again. -/
def restartDeadline? (n : Node) : Option Nat :=
  match n.power with
  | .on => none
  | .down restartAt => some restartAt

/-- The part of a node that others may see. -/
def status (n : Node) : Status where
  role := n.role
  token := n.token
  neighbors := n.neighbors.addresses
  poweredDown := n.isDown
  counters := n.counters

/-- A node that has just been switched on.  Its choices are those of its seed; without a seed they
    are those of `entropy`, a generator that the system has drawn for it. -/
def fresh (address : Address) (settings : ProtocolSettings) (entropy : Generator := .ofSeed 0) :
    Node where
  address := address
  settings := settings
  role := settings.role
  neighbors := .empty settings.maxNeighbors settings.neighborTimeout
  token := .initial
  generator := settings.seed.elim entropy .ofSeed
  power := .on
  counters := {}

/-- A node that has just been switched on, and its report of that. -/
def start (address : Address) (settings : ProtocolSettings) (entropy : Generator := .ofSeed 0) :
    Reaction :=
  let n := fresh address settings entropy
  { node := n
    notices := [n.report (.started n.role settings.announcePeriod settings.beaconPeriod
      settings.maxNeighbors)] }

/-- What a power loss leaves: role, generator and counters stay, all that was learned is gone. -/
def coldStart (n : Node) : Node :=
  { n with token := .initial, neighbors := n.neighbors.clear, power := .on }

/-- The node without the neighbors whose time has come, each of them counted. -/
def sweep (n : Node) (now : Nat) : Node :=
  { n with
    neighbors := n.neighbors.expire now
    counters := { n.counters with
      neighborsExpired := n.counters.neighborsExpired + (n.neighbors.due now).length } }

/-- The reports of a sweep. -/
def sweepNotices (n : Node) (now : Nat) : List Notice :=
  (n.neighbors.due now).map fun e => n.report (.neighborRemoved e.address)

/-- The node in another role. -/
def setRole (n : Node) (role : Role) : Reaction :=
  if role = n.role then { node := n }
  else { node := { n with role := role }, notices := [n.report (.roleChanged n.role role)] }

/-- A power failure: the radio is off from now on and the restart timer is due after `delay`.
    A node without power refuses. -/
def powerDown (n : Node) (delay now : Nat) : Except Refusal Reaction :=
  if n.isDown then .error .restartPending
  else .ok
    { node := { n with power := .down (now + delay) }
      notices := [n.report (.poweringDown delay)] }

end Node

namespace Reaction

/-- A reaction followed by the sweep that ends every event. -/
def swept (r : Reaction) (now : Nat) : Reaction where
  node := r.node.sweep now
  sends := r.sends
  notices := r.notices ++ r.node.sweepNotices now

end Reaction

end TokenMesh
