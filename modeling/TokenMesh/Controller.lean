import TokenMesh.Node.Handling

namespace TokenMesh

/-!
# Controllers

A controller keeps the timers of one node and passes on what an operator asks of it.  Timers are as
fine as milliseconds: one fires at the first whole millisecond that does not come before its
deadline, while its later deadlines are counted from the deadline itself.  Only where it is kept
from firing for too long are they counted from when it does.

* `Ticker`: a timer that fires again and again;
* `Controller`: a node with its tickers; the restart timer is the node's own deadline;
* `Controller.due?`, `Controller.rearm`: which timer fires, and how the timers go on after that;
* `Command`, `Reply`, `Command.serve`: what an operator can ask, and what comes of it.
-/

/-- A timer that fires again and again. -/
structure Ticker where
  /-- From when on it fires next. -/
  deadline : Nat
  period : Nat
  period_pos : 0 < period
deriving DecidableEq, Repr

namespace Ticker

/-- A ticker of a given period, or of the shortest one there is instead of none. -/
def every (period deadline : Nat) : Ticker := ⟨deadline, max 1 period, by omega⟩

/-- The instant at which the ticker fires next. -/
def due (t : Ticker) : Nat := Time.ceilMillis t.deadline

/-- How late a ticker may fire without any effect on its later deadlines. -/
def tolerance : Nat := Time.ofMillis 5

/-- The ticker after it has fired at `now`. -/
def tick (t : Ticker) (now : Nat) : Ticker :=
  { t with
    deadline := (if t.deadline + tolerance < now then now else t.deadline) + t.period }

/-- The ticker set to fire next at a given instant. -/
def reset (t : Ticker) (deadline : Nat) : Ticker := { t with deadline := deadline }

theorem deadline_le_due (t : Ticker) : t.deadline ≤ t.due := Time.le_ceilMillis _

/-- A ticker that has fired fires again later. -/
theorem deadline_lt_tick (t : Ticker) (now : Nat) : t.deadline < (t.tick now).deadline := by
  have := t.period_pos
  simp only [tick]
  split <;> omega

end Ticker

/-- A node with its tickers. -/
structure Controller where
  node : Node
  announce : Ticker
  beacon : Ticker
deriving DecidableEq, Repr

namespace Controller

/-- The controller of a node that is switched on at `now`. -/
def start (n : Node) (now : Nat) : Controller where
  node := n
  announce := .every n.settings.announcePeriod (now + n.settings.initialAnnounceDelay)
  beacon := .every n.settings.beaconPeriod (now + n.settings.beaconPeriod)

/-- The instant at which the restart timer fires, if a restart is due. -/
def restartDue? (c : Controller) : Option Nat := c.node.restartDeadline?.map Time.ceilMillis

/-- The timer that fires at `now`, if any; of several the announcement comes first, then the
    beacon, then the restart. -/
def due? (c : Controller) (now : Nat) : Option TimerKind :=
  if c.announce.due ≤ now then some .announce
  else if c.beacon.due ≤ now then some .beacon
  else if c.restartDue?.any (· ≤ now) then some .restart
  else none

/-- The next instant at which a timer fires. -/
def deadline (c : Controller) : Nat :=
  let periodic := min c.announce.due c.beacon.due
  match c.restartDue? with
  | some t => min periodic t
  | none => periodic

/-- The tickers after a timer has fired at `now`; a restart sets both as at the start. -/
def rearm (c : Controller) (k : TimerKind) (now : Nat) : Controller :=
  match k with
  | .announce => { c with announce := c.announce.tick now }
  | .beacon => { c with beacon := c.beacon.tick now }
  | .restart =>
    { c with
      announce := c.announce.reset (now + c.node.settings.initialAnnounceDelay)
      beacon := c.beacon.reset (now + c.node.settings.beaconPeriod) }

/-- No timer is due before the next deadline. -/
theorem lt_deadline_of_due?_eq_none {c : Controller} {now : Nat} (h : c.due? now = none) :
    now < c.deadline := by
  unfold due? at h
  split at h
  · cases h
  · split at h
    · cases h
    · split at h
      · cases h
      · next hr =>
        unfold deadline
        cases hd : c.restartDue? with
        | none => simp only; omega
        | some t =>
          simp only [hd, Option.any_some, decide_eq_true_eq] at hr
          simp only; omega

end Controller

/-- What an operator can ask of a controller. -/
inductive Command
  | originate (value : Option Int32)
  | setRole (role : Role)
  /-- A power failure now, and a restart after some time. -/
  | powerDown (delay : Nat)
  | status
deriving DecidableEq, Repr

/-- What an operator is told when a command has been carried out. -/
inductive Reply
  | done
  | token (t : Token)
  | status (s : Status)
deriving DecidableEq, Repr

namespace Command

/-- The name of a command in a log. -/
def name : Command → String
  | originate _ => "begin"
  | setRole _ => "set_role"
  | powerDown _ => "restart"
  | status => "status"

/-- What a node makes of a command once its table is swept.  A controller gets here only where
    clocks can show the instant that a power failure is to end at. -/
def run (n : Node) (now : Nat) : Command → Reaction × Except Refusal Reply
  | originate value =>
    match n.originate value now with
    | (r, .ok t) => (r, .ok (.token t))
    | (r, .error e) =>
      ({ r with notices := r.notices ++ [n.report (.originateRefused e)] }, .error e)
  | setRole role => (n.setRole role, .ok .done)
  | powerDown delay =>
    match n.powerDown delay now with
    | .ok r => (r, .ok .done)
    | .error e => ({ node := n }, .error e)
  | status => ({ node := n }, .ok (.status n.status))

/-- What comes of a command at `now`.  The neighbors whose time has come are forgotten first, so
    that no reply shows them. -/
def serve (c : Command) (n : Node) (now : Nat) : Reaction × Except Refusal Reply :=
  let (r, reply) := c.run (n.sweep now) now
  ({ r with notices := n.sweepNotices now ++ r.notices }, reply)

end Command

end TokenMesh
