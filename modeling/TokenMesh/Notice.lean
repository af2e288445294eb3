import TokenMesh.Error
import TokenMesh.Time

namespace TokenMesh

/-!
# Notices

What nodes, their controllers and networks report while they work.  A notice is a plain value that
names what happened; its severity and its wording are given here.

* `Happening`: what one node or its controller reports;
* `Notice`: the same with the node's address, and what a network reports about itself;
* `Notice.level`, `Notice.text`: how severe a notice is, and what it reads;
* `Level.admits`: which notices a threshold lets through.

Spans read in whole milliseconds.
-/

/-- How severe a notice is, the least severe first. -/
inductive Level
  | debug
  | info
  | warning
  | error
deriving DecidableEq, Repr

namespace Level

/-- The place of a level in the order of severity. -/
def rank : Level → Nat
  | debug => 0
  | info => 1
  | warning => 2
  | error => 3

/-- The name of a level in a log. -/
def name : Level → String
  | debug => "DEBUG"
  | info => "INFO"
  | warning => "WARN"
  | error => "ERROR"

/-- Whether a threshold lets a level through; without a threshold nothing passes. -/
def admits (threshold : Option Level) (level : Level) : Bool :=
  match threshold with
  | some t => t.rank ≤ level.rank
  | none => false

end Level

/-- What one node or its controller reports. -/
inductive Happening
  | started (role : Role) (announcePeriod beaconPeriod slots : Nat)
  | roleChanged (old new : Role)
  | poweringDown (delay : Nat)
  | malformed (length : Nat) (sender : Address) (e : WireError)
  | announcing
  | beaconing (version : Int16)
  | strayRestart
  | restarted (version : Int16)
  | neighborAdded (peer : Address)
  | neighborRefreshed (peer : Address)
  | tableFull (capacity : Nat) (peer : Address)
  | neighborRemoved (peer : Address)
  | originating (token : Token)
  | keptLocally
  | dataReceived (token : Token) (hops : Int32) (sender : Address) (acceptance : Acceptance)
  | sinkReached (token : Token) (hops : Int32)
  | hopLimit
  | nowhereToForward
  | pushing (peer : Address) (theirs ours : Int16)
  | requesting (peer : Address) (ours theirs : Int16)
  | answering (peer : Address) (theirs ours : Int16)
  | recovered (token : Token) (peer : Address)
  | loopStarted (delay : Nat)
  | loopEnded
  | commandsClosed
  | originateRefused (r : Refusal)
  | sendFailed (kind : Message.Kind) (e : Error)
  | replyLost (command : String)
deriving DecidableEq, Repr

/-- What is reported while nodes and networks work. -/
inductive Notice
  | node (address : Address) (h : Happening)
  | failuresDisabled
  | noSuchNode (index : Nat)
  | originated (index : Nat) (token : Token) (now : Nat)
  | notOriginated (index : Nat) (r : Refusal)
  | notCrashed (index : Nat) (r : Refusal)
  | failing (index : Nat) (now : Nat)
deriving DecidableEq, Repr

/-- The word for an acceptance. -/
def Acceptance.name : Acceptance → String
  | accepted => "Accepted"
  | stale => "Stale"

namespace Happening

/-- How severe a happening is. -/
def level : Happening → Level
  | started .. | roleChanged .. | poweringDown _ | restarted _ | originating _ | keptLocally
  | sinkReached .. | loopStarted _ | loopEnded => .info
  | tableFull .. | originateRefused _ | sendFailed .. => .warning
  | replyLost _ => .error
  | _ => .debug

/-- The wording of a happening, after the node's address. -/
def text : Happening → String
  | started role announce beacon slots =>
    s!"Node started as {role.name} (announce {Time.millis announce}ms, " ++
      s!"beacon {Time.millis beacon}ms, {slots} neighbor slots)"
  | roleChanged old new => s!"Role changed {old.name} -> {new.name}"
  | poweringDown delay => s!"Powering down, restart in {Time.millis delay}ms"
  | malformed length sender e =>
    s!"Dropping {length}-byte datagram from {sender.text}: {(Error.ofWire e).message}"
  | announcing => "Sending neighbor announce"
  | beaconing version => s!"Sending version beacon (v: {version.toInt})"
  | strayRestart => "Restart timer fired with no restart scheduled"
  | restarted version => s!"Restarted with empty state (v: {version.toInt})"
  | neighborAdded peer => s!"Added {peer.text} to the neighbor table"
  | neighborRefreshed peer => s!"Refreshed neighbor {peer.text}"
  | tableFull capacity peer =>
    s!"Neighbor table full ({capacity}), ignoring announce from {peer.text}"
  | neighborRemoved peer => s!"Removing {peer.text} from the neighbor table"
  | originating token =>
    s!"Beginning dissemination of {token.value.toInt} (v: {token.version.toInt})"
  | keptLocally => "No neighbors yet, token kept locally"
  | dataReceived token hops sender acceptance =>
    s!"Data {token.value.toInt} (v: {token.version.toInt}, hops: {hops.toInt}) " ++
      s!"from {sender.text}: {acceptance.name}"
  | sinkReached token hops =>
    s!"Sink received {token.value.toInt} (v: {token.version.toInt}) after {hops.toInt} hops"
  | hopLimit => "Hop limit reached, walk ends here"
  | nowhereToForward => "No neighbor to forward to"
  | pushing peer theirs ours =>
    s!"{peer.text} is behind (v: {theirs.toInt} < {ours.toInt}), pushing recover"
  | requesting peer ours theirs =>
    s!"Behind {peer.text} (v: {ours.toInt} < {theirs.toInt}), requesting control"
  | answering peer theirs ours =>
    s!"Control request from {peer.text} (v: {theirs.toInt}), answering with v: {ours.toInt}"
  | recovered token peer =>
    s!"Recovered {token.value.toInt} (v: {token.version.toInt}) from {peer.text}"
  | loopStarted delay => s!"Starting event loop (first announce in {Time.millis delay}ms)"
  | loopEnded => "Datagram channel closed, exiting"
  | commandsClosed => "Command channel closed"
  | originateRefused r => s!"Refused to begin dissemination: {(Error.refusal r).message}"
  | sendFailed kind e => s!"Failed to send {kind.name}: {e.message}"
  | replyLost command => s!"Failed sending oneshot {command} response"

end Happening

namespace Notice

/-- How severe a notice is. -/
def level : Notice → Level
  | node _ h => h.level
  | failuresDisabled | noSuchNode _ | notOriginated .. => .warning
  | originated .. => .info
  | notCrashed .. | failing .. => .debug

/-- The wording of a notice. -/
def text : Notice → String
  | node address h => s!"[{address.text}] {h.text}"
  | failuresDisabled => "Failure tick of zero disables failure injection"
  | noSuchNode index => s!"No node {index} to begin dissemination at"
  | originated index token now =>
    s!"Node {index} began dissemination of {token.value.toInt} (v: {token.version.toInt}) " ++
      s!"at {Time.millis now}ms"
  | notOriginated index r =>
    s!"Node {index} could not begin dissemination: {(Error.refusal r).message}"
  | notCrashed index r => s!"Node {index} not crashed: {(Error.refusal r).message}"
  | failing index now => s!"Failing node {index} at {Time.millis now}ms"

end Notice

end TokenMesh
