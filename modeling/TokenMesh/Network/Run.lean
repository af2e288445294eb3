import TokenMesh.Network.Injection
import TokenMesh.Network.Radio

namespace TokenMesh

/-!
# Runs

A run takes the events of the queue in their order and processes them one after the other until the
next one lies beyond the end of the run.

* `Network.process`: one event;
* `Network.next`: the next event up to a given time, with the clock and the watch on convergence;
* `Network.runUntil`: all events up to a given time;
* `Progress`, `Breakdown`: what comes of one event, and what is left where it cannot be processed.

A network may keep itself busy for ever at one instant, so a run is given a budget of events and
says so when the budget does not suffice.
-/

/-- The end of a run at an event that cannot be processed. -/
structure Breakdown where
  fault : Fault
  /-- All that was reported before that event, the latest first. -/
  journal : List Notice
deriving DecidableEq, Repr

/-- What becomes of a network that looks for its next event. -/
inductive Progress
  /-- No event is left up to the end of the run, and nothing has changed. -/
  | resting (net : Network)
  /-- One event has been processed. -/
  | moved (net : Network)
  /-- The next event cannot be processed. -/
  | broken (b : Breakdown)

namespace Network

/-- How far ahead everything lies that an event has planned: timers, and beside them only
    arrivals. -/
def ahead (net after : Network) (timers : List Nat) : List Nat :=
  if net.nextSeq + timers.length < after.nextSeq then net.topology.delay :: timers else timers

/-- The network after an event, if all that the event has planned lies within the longest span from
    the start. -/
def commit (net after : Network) (timers : List Nat) : Except Fault Network := do
  ensure ((net.ahead after timers).all (net.clock + · < Time.spanLimit))
  return after

/-- A datagram arrives at a node. -/
def deliver (net : Network) (receiver : Nat) (sender : Address) (bytes : List UInt8) :
    Except Fault Network := do
  let now ← net.present
  match net.node? receiver with
  | none => throw .noSuchNode
  | some n =>
    ensure (n.inTime (.datagram sender bytes now))
    let r := n.handleDatagram sender bytes now
    let metrics := { net.metrics with delivered := net.metrics.delivered + 1 }
    net.commit ({ net with metrics := metrics }.follow receiver r) []

/-- A node is switched on again: its generation begins, and it boots as at the start. -/
def restart (net : Network) (i : Nat) (m : Member) : Network :=
  let net := net.follow i (m.node.handle .restartTimer net.clock)
  let members := net.members.modify i fun m => { m with generation := m.generation + 1 }
  { net with members := members }.setBootTimers i (m.generation + 1)

/-- A timer of the present generation of a node fires.  Periodic ones are set again. -/
def fireTimer (net : Network) (i : Nat) (m : Member) : TimerKind → Network
  | .announce =>
    let net := net.follow i (m.node.handle .announceTimer net.clock)
    net.setTimer i .announce m.generation net.settings.announcePeriod
  | .beacon =>
    let net := net.follow i (m.node.handle .beaconTimer net.clock)
    net.setTimer i .beacon m.generation net.settings.beaconPeriod
  | .restart => net.restart i m

/-- How far ahead the timers lie that are set when one fires. -/
def spans (s : ProtocolSettings) : TimerKind → List Nat
  | .announce => [s.announcePeriod]
  | .beacon => [s.beaconPeriod]
  | .restart => s.bootSpans

/-- A timer fires.  One that was set before the latest restart of its node does nothing. -/
def fire (net : Network) (i : Nat) (kind : TimerKind) (generation : Nat) : Except Fault Network :=
  match net.members[i]? with
  | none => .error .noSuchNode
  | some m =>
    if m.generation ≠ generation then .ok net
    else do
      let _ ← net.present
      net.commit (net.fireTimer i m kind) (spans net.settings kind)

/-- A node is asked to originate a token.  Only a success is remembered as the latest origination,
    and the watch on convergence begins anew with it. -/
def originate (net : Network) (i : Nat) (value : Option Int32) : Except Fault Network := do
  let now ← net.present
  match net.node? i with
  | none => return net.tell [.noSuchNode i]
  | some n =>
    match n.originate value now with
    | (r, .ok token) =>
      let told := (net.absorb i r).tell [.originated i token now]
      let begun := { told with lastBegin := some now, convergedAt := none }
      net.commit (begun.route i r.sends) []
    | (r, .error e) => return (net.absorb i r).tell [.notOriginated i e]

/-- A planned action. -/
def act (net : Network) : Action → Except Fault Network
  | .originate i value => net.originate i value
  | .crash i recovery => net.crash i recovery
  | .setRole i role => .ok (net.setRole i role)
  | .setLossRate rate => .ok { net with topology := net.topology.setLossRate rate }

/-- One event. -/
def process (net : Network) : Occurrence → Except Fault Network
  | .deliver receiver sender bytes => net.deliver receiver sender bytes
  | .timer i kind generation => net.fire i kind generation
  | .failureTick => net.considerFailure
  | .action a => net.act a

/-- The watch on convergence: the first moment after an origination at which all nodes with power
    hold one token. -/
def watch (net : Network) : Network :=
  if net.lastBegin.isSome && net.convergedAt.isNone && net.converged then
    { net with convergedAt := some net.clock }
  else net

/-- The next event up to a given time. -/
def next (limit : Nat) (net : Network) : Progress :=
  match net.queue.pop? with
  | none => .resting net
  | some (e, rest) =>
    if limit < e.time then .resting net
    else
      let journal := net.journal
      match ({ net with queue := rest }.advanceTo e.time).process e.event with
      | .ok net => .moved net.watch
      | .error f => .broken ⟨f, journal⟩

/-- All events up to a given time, but no more than the budget allows. -/
def runUntil (limit : Nat) : (budget : Nat) → Network → Except Breakdown Network
  | 0, net => .error ⟨.unfinished, net.journal⟩
  | budget + 1, net =>
    match net.next limit with
    | .resting net => .ok (net.advanceTo limit)
    | .moved net => runUntil limit budget net
    | .broken b => .error b

/-- The budget of runs of which nothing else is known; no machine gets through it. -/
def ampleBudget : Nat := 1 <<< 62

end Network

end TokenMesh
