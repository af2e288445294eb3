import TokenMesh.Node.Reconciliation
import TokenMesh.Node.Walk

namespace TokenMesh

/-!
# Handling events

How a node reacts to timers, messages and raw datagrams.  A node without power sends nothing and
counts what it misses, a node ignores what it hears of itself, and every event ends with a sweep
of the neighbor table.

* `Node.handle`: one event;
* `Node.handleDatagram`: one datagram, which is dropped if it holds no message;
* `Operation`, `Node.perform`: everything that can be done with a node;
* `Node.inTime`: whether clocks can show the instant that an operation sets.

A node reckons with instants as numbers, so that an operation has a result wherever they lie.  An
operation that is not in time ends whoever drives the node.
-/

namespace Node

/-- The announcement timer has fired. -/
def onAnnounceTimer (n : Node) : Reaction :=
  if n.isDown then { node := n }
  else
    { node := { n with counters := { n.counters with
        announcesSent := n.counters.announcesSent + 1 } }
      sends := [.multicast .announce]
      notices := [n.report .announcing] }

/-- The beacon timer has fired. -/
def onBeaconTimer (n : Node) : Reaction :=
  if n.isDown then { node := n }
  else
    { node := { n with counters := { n.counters with beaconsSent := n.counters.beaconsSent + 1 } }
      sends := [.multicast (.beacon n.token.version)]
      notices := [n.report (.beaconing n.token.version)] }

/-- The restart timer has fired: a node without power starts again from nothing. -/
def onRestartTimer (n : Node) : Reaction :=
  if n.isDown then
    let n := n.coldStart
    { node := { n with counters := { n.counters with restarts := n.counters.restarts + 1 } }
      notices := [n.report (.restarted n.token.version)] }
  else { node := n, notices := [n.report .strayRestart] }

/-- A peer has announced itself. -/
def onAnnounce (n : Node) (peer : Address) (now : Nat) : Reaction :=
  let heard := { n with neighbors := n.neighbors.announce peer now }
  match n.neighbors.outcome peer with
  | .inserted =>
    { node := { heard with counters := { n.counters with
        neighborsAdded := n.counters.neighborsAdded + 1 } }
      notices := [n.report (.neighborAdded peer)] }
  | .refreshed => { node := heard, notices := [n.report (.neighborRefreshed peer)] }
  | .dropped =>
    { node := { heard with counters := { n.counters with
        neighborsDroppedFull := n.counters.neighborsDroppedFull + 1 } }
      notices := [n.report (.tableFull n.neighbors.capacity peer)] }

/-- A message has arrived at a node that listens. -/
def onMessage (n : Node) (sender : Address) (m : Message) (now : Nat) : Reaction :=
  match m with
  | .announce => n.onAnnounce sender now
  | .data value version hops => n.onData sender ⟨value, version⟩ hops
  | .beacon version => n.onBeacon sender version
  | .control version => n.onControl sender version
  | .recover value version => n.onRecover sender ⟨value, version⟩

/-- A message has arrived.  Without power it is lost, and a node's own multicast means nothing
    to it. -/
def onInbound (n : Node) (sender : Address) (m : Message) (now : Nat) : Reaction :=
  if n.isDown then
    { node := { n with counters := { n.counters with
        droppedWhileDown := n.counters.droppedWhileDown + 1 } } }
  else if sender = n.address then { node := n }
  else n.onMessage sender m now

/-- The reaction to an event before the sweep that ends it. -/
def react (n : Node) (e : Event) (now : Nat) : Reaction :=
  match e with
  | .announceTimer => n.onAnnounceTimer
  | .beaconTimer => n.onBeaconTimer
  | .restartTimer => n.onRestartTimer
  | .inbound sender m => n.onInbound sender m now

/-- One event from beginning to end. -/
def handle (n : Node) (e : Event) (now : Nat) : Reaction := (n.react e now).swept now

/-- The drop of a datagram that holds no message. -/
def dropMalformed (n : Node) (sender : Address) (length : Nat) (e : WireError) : Reaction where
  node := { n with counters := { n.counters with
    malformedDropped := n.counters.malformedDropped + 1 } }
  notices := [n.report (.malformed length sender e)]

/-- One datagram from beginning to end. -/
def handleDatagram (n : Node) (sender : Address) (bytes : List UInt8) (now : Nat) : Reaction :=
  match Message.decode bytes with
  | .ok m => n.handle (.inbound sender m) now
  | .error e => (n.dropMalformed sender bytes.length e).swept now

/-- Whether a message is an announcement that a node listens to, so that it sets an expiry. -/
def hearsAnnounce (n : Node) (sender : Address) (m : Message) : Bool :=
  m == .announce && !n.isDown && sender != n.address

end Node

/-- Everything that can be done with a node. -/
inductive Operation
  | event (e : Event) (now : Nat)
  | datagram (sender : Address) (bytes : List UInt8) (now : Nat)
  | originate (value : Option Int32) (now : Nat)
  | setRole (role : Role)
  | powerDown (delay now : Nat)
deriving DecidableEq, Repr

/-- What an operation answers, beside what it sends. -/
inductive Answer
  | done
  | token (t : Token)
  | restartAt (t : Nat)
  | refused (r : Refusal)
deriving DecidableEq, Repr

namespace Node

/-- One operation: what comes of it, and its answer. -/
def perform (n : Node) : Operation → Reaction × Answer
  | .event e now => (n.handle e now, .done)
  | .datagram sender bytes now => (n.handleDatagram sender bytes now, .done)
  | .originate value now =>
    match n.originate value now with
    | (r, .ok t) => (r, .token t)
    | (r, .error e) => (r, .refused e)
  | .setRole role => (n.setRole role, .done)
  | .powerDown delay now =>
    match n.powerDown delay now with
    | .ok r => (r, .restartAt (now + delay))
    | .error e => ({ node := n }, .refused e)

/-- The instant that an operation sets, if it sets one: when a neighbor that is heard is forgotten,
    or when a node that loses its power has it again. -/
def sets? (n : Node) : Operation → Option Nat
  | .event (.inbound sender m) now =>
    if n.hearsAnnounce sender m then some (now + n.neighbors.timeout) else none
  | .datagram sender bytes now =>
    match Message.decode bytes with
    | .ok m => if n.hearsAnnounce sender m then some (now + n.neighbors.timeout) else none
    | .error _ => none
  | .powerDown delay now => if n.isDown then none else some (now + delay)
  | _ => none

/-- Whether clocks can show the instant that an operation sets, if it sets one. -/
def inTime (n : Node) (op : Operation) : Bool := (n.sets? op).all (· < Time.horizon)

/-- A datagram sets nothing but the expiry of its sender. -/
theorem inTime_datagram {n : Node} {now : Nat} (h : now + n.neighbors.timeout < Time.horizon)
    (sender : Address) (bytes : List UInt8) : n.inTime (.datagram sender bytes now) = true := by
  simp only [inTime, sets?]
  split
  · split
    · exact decide_eq_true h
    · rfl
  · rfl

theorem inTime_powerDown {n : Node} {delay now : Nat} (h : now + delay < Time.horizon) :
    n.inTime (.powerDown delay now) = true := by
  simp only [inTime, sets?]
  split
  · rfl
  · exact decide_eq_true h

/-- A node that is down sets nothing when it is to lose its power. -/
theorem inTime_powerDown_of_down {n : Node} (h : n.isDown = true) (delay now : Nat) :
    n.inTime (.powerDown delay now) = true := by
  simp only [inTime, sets?, h, if_true]
  rfl

/-- A node after a list of operations. -/
def performAll (n : Node) (ops : List Operation) : Node :=
  ops.foldl (fun n op => (n.perform op).1.node) n

end Node

end TokenMesh
