import TokenMesh.Controller

namespace TokenMesh

/-!
# Sessions

A controller at work: datagrams and requests queue up in front of it, it takes them one at a time,
and what it sends goes to a transport that may refuse it.

* `Session`: the controller, its queues, the clock, and all that it has sent, replied and reported;
* `Session.enqueue`, `Session.ask`, `Session.closeInbox`, `Session.closeRequests`: what the outside
  does;
* `Task`, `Session.task?`, `Session.carryOut`: what the controller does next, and what comes of it;
* `Session.turn?`: both at once.

Of several things to do, datagrams come first, then requests, then timers.  The end of the
datagrams is the end of the session; the end of the requests is not.  A node that would announce
itself, or its version, without a pause breaks its session off at the start.  So does an instant
that no clock can show, whenever it is to be set: the controller is gone then, with all that waits
in front of it, and no node is handed back.
-/

/-- Bytes that arrived, and from where. -/
structure Datagram where
  sender : Address
  bytes : List UInt8
deriving DecidableEq, Repr

/-- A command of an operator, who may have stopped waiting for the reply. -/
structure Request where
  command : Command
  awaited : Bool
deriving DecidableEq, Repr

/-- An attempt to send a message. -/
structure Transmission where
  time : Nat
  outbound : Outbound
  /-- Whether the transport took the message. -/
  taken : Bool
deriving DecidableEq, Repr

namespace Session

/-- What a controller does in a turn. -/
inductive Task
  | datagram (d : Datagram)
  | request (r : Request)
  | hangUp
  | timer (k : TimerKind)
  /-- The end, with the requests that are dropped. -/
  | finish (dropped : List Request)
  /-- An instant that no clock can show, with the datagrams and the requests that are lost. -/
  | breakOff (lost : List Datagram) (dropped : List Request)
deriving DecidableEq, Repr

end Session

/-- A controller at work. -/
structure Session where
  clock : Nat
  controller : Controller
  /-- Datagrams that are not handled yet, the oldest first. -/
  inbox : List Datagram := []
  inboxOpen : Bool := true
  /-- Requests that are not served yet, the oldest first. -/
  requests : List Request := []
  requestsOpen : Bool := true
  /-- Whether the controller still looks for requests. -/
  listening : Bool := true
  running : Bool := true
  /-- Whether the session was broken off, so that it never comes to its end. -/
  brokenOff : Bool := false
  /-- Whether the transport takes a message, by how many it was offered before. -/
  link : Nat → Bool := fun _ => true
  transmissions : Array Transmission := #[]
  replies : Array (Except Error Reply) := #[]
  journal : Array Notice := #[]

namespace Session

/-- The node of a session. -/
def node (s : Session) : Node := s.controller.node

/-- Whether a session can start with given settings: there are pauses between announcements and
    between beacons, and clocks can show when the first of them are due. -/
def canStart (s : ProtocolSettings) : Bool :=
  0 < s.announcePeriod && 0 < s.beaconPeriod && s.bootSpans.all (· < Time.horizon)

/-- The start of a session, with what the node itself reported before. -/
def start (n : Node) (before : List Notice) : Session :=
  let starts := canStart n.settings
  { clock := 0
    controller := Controller.start n 0
    inboxOpen := starts
    running := starts
    brokenOff := !starts
    journal := (before ++ [n.report (.loopStarted n.settings.initialAnnounceDelay)]).toArray }

/-! ### What the outside does -/

/-- A datagram arrives, unless no more can. -/
def enqueue (s : Session) (d : Datagram) : Session :=
  if s.inboxOpen then { s with inbox := s.inbox ++ [d] } else s

/-- A request is made, unless no more can be. -/
def ask (s : Session) (r : Request) : Session :=
  if s.running && s.requestsOpen then { s with requests := s.requests ++ [r] } else s

/-- No more datagrams will arrive. -/
def closeInbox (s : Session) : Session := { s with inboxOpen := false }

/-- No more requests will be made. -/
def closeRequests (s : Session) : Session := { s with requestsOpen := false }

/-- From now on the transport takes all messages or none. -/
def setLink (s : Session) (up : Bool) : Session := { s with link := fun _ => up }

/-! ### What the controller does -/

/-- The failure of a transport that takes nothing. -/
def linkError : Error := .transport "link down"

/-- The session with something reported. -/
def tell (s : Session) (notices : List Notice) : Session :=
  { s with journal := s.journal.appendList notices }

/-- One message is offered to the transport.  A refusal is reported and has no other effect. -/
def offer (s : Session) (out : Outbound) : Session :=
  let taken := s.link s.transmissions.size
  let s := { s with transmissions := s.transmissions.push ⟨s.clock, out, taken⟩ }
  if taken then s else s.tell [s.node.report (.sendFailed out.message.kind linkError)]

/-- The node has reacted: its new state is kept and its messages are sent in order. -/
def follow (s : Session) (r : Reaction) : Session :=
  let s := { s with controller := { s.controller with node := r.node } }.tell r.notices
  r.sends.foldl offer s

/-- The oldest datagram is handled. -/
def handleDatagram (s : Session) (d : Datagram) (rest : List Datagram) : Session :=
  { s with inbox := rest }.follow (s.node.handleDatagram d.sender d.bytes s.clock)

/-- The oldest request is served and replied to, whether or not the reply is awaited. -/
def serve (s : Session) (r : Request) (rest : List Request) : Session :=
  let (reaction, reply) := r.command.serve s.node s.clock
  let s := { s with requests := rest }.follow reaction
  let s := { s with replies := s.replies.push (reply.mapError .refusal) }
  if r.awaited then s else s.tell [s.node.report (.replyLost r.command.name)]

/-- The failure of a request that is never served. -/
def droppedError : Error := .concurrency "Response channel dropped: channel closed"

/-- The session ends, and requests that were not served never will be. -/
def finish (s : Session) : Session :=
  { s with
    running := false
    requests := []
    replies := s.replies.appendList (s.requests.map fun _ => .error droppedError) }.tell
    [s.node.report .loopEnded]

/-- The controller looks for no more requests. -/
def hangUp (s : Session) : Session :=
  { s with listening := false }.tell [s.node.report .commandsClosed]

/-- A timer fires. -/
def fire (s : Session) (k : TimerKind) : Session :=
  { s with controller := s.controller.rearm k s.clock }.follow (s.node.handle k.event s.clock)

/-- What comes next at the present instant, if anything. -/
def wanted? (s : Session) : Option Task :=
  if !s.running then none
  else match s.inbox with
    | d :: _ => some (.datagram d)
    | [] =>
      if !s.inboxOpen then some (.finish s.requests)
      else match s.requests with
        | r :: _ => some (.request r)
        | [] =>
          if s.listening && !s.requestsOpen then some .hangUp
          else (s.controller.due? s.clock).map .timer

/-- Whether clocks can show all instants that a task sets. -/
def inTime (s : Session) : Task → Bool
  | .datagram d => s.node.inTime (.datagram d.sender d.bytes s.clock)
  | .request r =>
    match r.command with
    | .powerDown delay => s.node.inTime (.powerDown delay s.clock)
    | _ => true
  | .timer .restart => s.node.settings.bootSpans.all (s.clock + · < Time.horizon)
  | _ => true

/-- What the controller does next at the present instant, if anything. -/
def task? (s : Session) : Option Task :=
  s.wanted?.map fun t => if s.inTime t then t else .breakOff s.inbox s.requests

/-- What is reported of a task before it comes to an instant that no clock can show. -/
def toldBefore (s : Session) : Task → List Notice
  | .request _ => s.node.sweepNotices s.clock
  | .timer k => (s.node.handle k.event s.clock).notices
  | _ => []

/-- The session is broken off, and nothing that waits is ever handled or served. -/
def breakOff (s : Session) : Session :=
  { s with
    running := false
    brokenOff := true
    inbox := []
    inboxOpen := false
    requests := []
    replies := s.replies.appendList (s.requests.map fun _ => .error droppedError) }.tell
    ((s.wanted?.map s.toldBefore).getD [])

/-- The session after a task. -/
def carryOut (s : Session) : Task → Session
  | .datagram d => s.handleDatagram d s.inbox.tail
  | .request r => s.serve r s.requests.tail
  | .hangUp => s.hangUp
  | .timer k => s.fire k
  | .finish _ => s.finish
  | .breakOff _ _ => s.breakOff

/-- The session after what the controller does next at the present instant, if anything. -/
def turn? (s : Session) : Option Session := s.task?.map s.carryOut

end Session

end TokenMesh
