import TokenMesh.Controller.Run
import Mathlib.Data.List.Basic

namespace TokenMesh

/-!
# Moves of a session

What happens to a session, in whatever order: something arrives, an end is reached, time passes, or
the controller takes its turn.  Time may pass while the controller has something to do, so that its
timers may fire late.

* `Session.Move`, `Session.move`, `Session.after`: all that can happen, and what comes of it;
* `Command.reaction`, `Command.answer`: a command by what is done with the node;
* `Session.Turn`, `Session.turns`: the turns that are taken, each with its instant;
* `Ledger`, `Ledger.replay`: the reactions of a node to one task after the other, without any queue;
* `Session.ledger_after`: a session keeps that account;
* `Session.movesUntil`, `Session.after_movesUntil`: a run up to some instant as a list of moves.
-/

namespace Command

/-- What comes of a node upon a command, and what it sends: it forgets the neighbors whose time has
    come, and then does what is asked. -/
def reaction (n : Node) (now : Nat) : Command → Reaction
  | originate value => ((n.sweep now).originate value now).1
  | setRole role => (n.sweep now).setRole role
  | powerDown delay =>
    match (n.sweep now).powerDown delay now with
    | .ok r => r
    | .error _ => { node := n.sweep now }
  | status => { node := n.sweep now }

/-- What the operator is told. -/
def answer (n : Node) (now : Nat) : Command → Except Refusal Reply
  | originate value => ((n.sweep now).originate value now).2.map .token
  | setRole _ => .ok .done
  | powerDown delay => ((n.sweep now).powerDown delay now).map fun _ => .done
  | status => .ok (.status (n.sweep now).status)

/-- Beside what is reported, nothing else comes of a command that is served. -/
theorem serve_eq (c : Command) (n : Node) (now : Nat) :
    (c.serve n now).1.node = (c.reaction n now).node ∧
      (c.serve n now).1.sends = (c.reaction n now).sends ∧
      (c.serve n now).2 = c.answer n now := by
  cases c with
  | originate value =>
    rcases ho : (n.sweep now).originate value now with ⟨r, e | t⟩ <;>
      simp [serve, run, reaction, answer, ho, Except.map]
  | setRole role => exact ⟨rfl, rfl, rfl⟩
  | powerDown delay =>
    cases hp : (n.sweep now).powerDown delay now <;>
      simp [serve, run, reaction, answer, hp, Except.map]
  | status => exact ⟨rfl, rfl, rfl⟩

end Command

namespace Session

/-- What may happen to a session. -/
inductive Move
  | arrival (d : Datagram)
  | request (r : Request)
  | closeInbox
  | closeRequests
  | pass (span : Nat)
  | turn
deriving DecidableEq, Repr

/-- A turn of a controller. -/
structure Turn where
  time : Nat
  task : Task
deriving DecidableEq, Repr

namespace Task

/-- The datagrams that a task takes from the queue. -/
def datagrams : Task → List Datagram
  | datagram d => [d]
  | breakOff lost _ => lost
  | _ => []

/-- The requests that a task takes from the queue. -/
def requests : Task → List Request
  | request r => [r]
  | finish dropped => dropped
  | breakOff _ dropped => dropped
  | _ => []

/-- How a node reacts to a task. -/
def reaction (n : Node) (now : Nat) : Task → Reaction
  | datagram d => n.handleDatagram d.sender d.bytes now
  | request r => r.command.reaction n now
  | timer k => n.handle k.event now
  | hangUp | finish _ | breakOff _ _ => { node := n }

/-- The replies to the requests of a task. -/
def replies (n : Node) (now : Nat) : Task → List (Except Error Reply)
  | request r => [(r.command.answer n now).mapError .refusal]
  | finish dropped => dropped.map fun _ => .error droppedError
  | breakOff _ dropped => dropped.map fun _ => .error droppedError
  | _ => []

/-- The tickers of a controller after a task. -/
def rearm (c : Controller) (now : Nat) : Task → Controller
  | timer k => c.rearm k now
  | _ => c

/-- Whether a session is broken off by a task. -/
def breaksOff : Task → Bool
  | breakOff _ _ => true
  | _ => false

/-- Whether a session goes on after a task. -/
def goesOn : Task → Bool
  | finish _ | breakOff _ _ => false
  | _ => true

end Task

end Session

/-- The account of a node: what it is, what was sent for it and when, and what was replied. -/
structure Ledger where
  node : Node
  attempts : List (Nat × Outbound) := []
  replies : List (Except Error Reply) := []
deriving DecidableEq

namespace Ledger

open Session (Turn)

/-- One more turn is entered. -/
def enter (l : Ledger) (t : Turn) : Ledger :=
  let r := t.task.reaction l.node t.time
  { node := r.node
    attempts := l.attempts ++ r.sends.map (t.time, ·)
    replies := l.replies ++ t.task.replies l.node t.time }

/-- The account of a node to which one turn happens after the other. -/
def replay (n : Node) (turns : List Turn) : Ledger := turns.foldl enter { node := n }

end Ledger

/-- What was to be sent, and when, whether or not it was taken. -/
def Transmission.attempt (t : Transmission) : Nat × Outbound := (t.time, t.outbound)

namespace Session

/-! ### What happens -/

theorem wanted?_of_wants {s : Session} {t : Task} (h : s.Wants t) : s.wanted? = some t := by
  cases h with
  | datagram hr hi => simp [wanted?, hr, hi]
  | finish hr hi ho => simp [wanted?, hr, hi, ho]
  | request hr hi ho hq => simp [wanted?, hr, hi, ho, hq]
  | hangUp hr hi ho hq hl hc => simp [wanted?, hr, hi, ho, hq, hl, hc]
  | timer hr hi ho hq hl hk =>
    have hl' : (s.listening && !s.requestsOpen) = false := by simpa using hl
    simp [wanted?, hr, hi, ho, hq, hl', hk]

theorem task?_of_ready {s : Session} {t : Task} (h : s.Ready t) : s.task? = some t := by
  cases h with
  | inTime hw ht => rw [task?, wanted?_of_wants hw, Option.map_some, if_pos ht]
  | breakOff hw ht => rw [task?, wanted?_of_wants hw, Option.map_some, if_neg (by simp [ht])]

/-- One move.  Where the controller has nothing to do, its turn is void. -/
def move (s : Session) : Move → Session
  | .arrival d => s.enqueue d
  | .request r => s.ask r
  | .closeInbox => s.closeInbox
  | .closeRequests => s.closeRequests
  | .pass span => { s with clock := s.clock + span }
  | .turn => s.turn?.getD s

/-- All moves of a list, one after the other. -/
def after (s : Session) (ms : List Move) : Session := ms.foldl move s

@[simp] theorem after_nil (s : Session) : s.after [] = s := rfl

@[simp] theorem after_cons (s : Session) (m : Move) (ms : List Move) :
    s.after (m :: ms) = (s.move m).after ms := rfl

theorem after_append (s : Session) (ms later : List Move) :
    s.after (ms ++ later) = (s.after ms).after later := List.foldl_append ..

theorem move_turn_of_task? {s : Session} {t : Task} (h : s.task? = some t) :
    s.move .turn = s.carryOut t := by
  rw [move, turn?, h]
  rfl

theorem move_turn_of_idle {s : Session} (h : s.task? = none) : s.move .turn = s := by
  rw [move, turn?, h]
  rfl

/-! ### What is observed -/

/-- All that `f` observes at the moves of a list. -/
def observed {α : Type} (f : Session → Move → List α) (s : Session) : List Move → List α
  | [] => []
  | m :: ms => f s m ++ (s.move m).observed f ms

theorem observed_append {α : Type} (f : Session → Move → List α) (s : Session)
    (ms later : List Move) :
    s.observed f (ms ++ later) = s.observed f ms ++ (s.after ms).observed f later := by
  induction ms generalizing s with
  | nil => rfl
  | cons m ms ih => simp only [List.cons_append, observed, after_cons, ih, List.append_assoc]

/-- The request that a move adds to the queue, if any. -/
def askedBy (s : Session) : Move → List Request
  | .request r => if s.running && s.requestsOpen then [r] else []
  | _ => []

/-- The turn that is taken by a move, if any. -/
def takenBy (s : Session) : Move → List Turn
  | .turn => (s.task?.map (⟨s.clock, ·⟩)).toList
  | _ => []

/-- The requests that are made, in order. -/
def asked (s : Session) (ms : List Move) : List Request := s.observed askedBy ms

/-- The turns that are taken, in order. -/
def turns (s : Session) (ms : List Move) : List Turn := s.observed takenBy ms

@[simp] theorem turns_nil (s : Session) : s.turns [] = [] := rfl

@[simp] theorem turns_cons (s : Session) (m : Move) (ms : List Move) :
    s.turns (m :: ms) = s.takenBy m ++ (s.move m).turns ms := rfl

theorem turns_append (s : Session) (ms later : List Move) :
    s.turns (ms ++ later) = s.turns ms ++ (s.after ms).turns later := observed_append ..

theorem takenBy_of_task? {s : Session} {t : Task} (h : s.task? = some t) :
    s.takenBy .turn = [⟨s.clock, t⟩] := by
  simp [takenBy, h]

theorem takenBy_of_idle {s : Session} (h : s.task? = none) : s.takenBy .turn = [] := by
  simp [takenBy, h]

/-! ### The account of a session -/

/-- What the session tried to send, and when. -/
def attempts (s : Session) : List (Nat × Outbound) :=
  s.transmissions.toList.map Transmission.attempt

/-- The account that a session has kept of its node. -/
def ledger (s : Session) : Ledger := ⟨s.node, s.attempts, s.replies.toList⟩

/-- The transmissions of some messages, in order, after those that were there before.  Whether or
    not the transport takes one of them, the next one is offered too. -/
def sending (link : Nat → Bool) (time : Nat) (sent : Array Transmission)
    (outs : List Outbound) : Array Transmission :=
  outs.foldl (fun sent out => sent.push ⟨time, out, link sent.size⟩) sent

theorem offers_eq_sending (outs : List Outbound) (s : Session) :
    ∃ log, outs.foldl offer s =
      { s with transmissions := sending s.link s.clock s.transmissions outs, journal := log } := by
  induction outs generalizing s with
  | nil => exact ⟨s.journal, rfl⟩
  | cons o os ih =>
    have hoffer : ∃ log, s.offer o =
        { s with
          transmissions := s.transmissions.push ⟨s.clock, o, s.link s.transmissions.size⟩
          journal := log } := by
      unfold offer
      dsimp only
      split
      · exact ⟨s.journal, rfl⟩
      · exact ⟨_, rfl⟩
    obtain ⟨log, hlog⟩ := hoffer
    obtain ⟨log', h⟩ := ih (s.offer o)
    refine ⟨log', ?_⟩
    rw [List.foldl_cons, h, hlog]
    rfl

/-- Beside its reports, this is the session after a reaction. -/
theorem follow_eq_sending (s : Session) (r : Reaction) :
    ∃ log, s.follow r =
      { s with
        controller := { s.controller with node := r.node }
        transmissions := sending s.link s.clock s.transmissions r.sends
        journal := log } := by
  obtain ⟨log, h⟩ := offers_eq_sending r.sends
    ({ s with controller := { s.controller with node := r.node } }.tell r.notices)
  exact ⟨log, by rw [follow, h]; rfl⟩

theorem map_attempt_sending (link : Nat → Bool) (time : Nat) (outs : List Outbound)
    (sent : Array Transmission) :
    (sending link time sent outs).toList.map Transmission.attempt =
      sent.toList.map Transmission.attempt ++ outs.map (time, ·) := by
  induction outs generalizing sent with
  | nil => simp [sending]
  | cons o os ih =>
    rw [sending, List.foldl_cons, ← sending, ih]
    simp [Transmission.attempt]

theorem serve_eq_sending (s : Session) (r : Request) (rest : List Request) :
    ∃ log, s.serve r rest =
      { s with
        controller := { s.controller with node := (r.command.reaction s.node s.clock).node }
        requests := rest
        transmissions :=
          sending s.link s.clock s.transmissions (r.command.reaction s.node s.clock).sends
        replies := s.replies.push ((r.command.answer s.node s.clock).mapError .refusal)
        journal := log } := by
  obtain ⟨hnode, hsends, hanswer⟩ := r.command.serve_eq s.node s.clock
  obtain ⟨log, h⟩ := follow_eq_sending { s with requests := rest }
    (r.command.serve s.node s.clock).1
  unfold serve
  dsimp only
  rw [h, hnode, hsends, hanswer]
  split
  · exact ⟨log, rfl⟩
  · exact ⟨_, rfl⟩

/-- All that a task does to a session, beside what is reported: the node reacts, what it sends is
    offered, what the task takes is gone from the queues, and requests are replied to. -/
theorem carryOut_eq {s : Session} {t : Task} (h : s.Ready t) :
    ∃ log, s.carryOut t =
      { s with
        controller :=
          { t.rearm s.controller s.clock with node := (t.reaction s.node s.clock).node }
        inbox := s.inbox.drop t.datagrams.length
        inboxOpen := s.inboxOpen && !t.breaksOff
        requests := s.requests.drop t.requests.length
        listening := s.listening && t != .hangUp
        running := t.goesOn
        brokenOff := s.brokenOff || t.breaksOff
        transmissions :=
          sending s.link s.clock s.transmissions (t.reaction s.node s.clock).sends
        replies := s.replies.appendList (t.replies s.node s.clock)
        journal := log } := by
  cases h with
  | inTime hw ht =>
    have hr := hw.running
    cases hw with
    | @datagram d rest _ hi =>
      obtain ⟨log, hfollow⟩ := follow_eq_sending { s with inbox := s.inbox.tail }
        (s.node.handleDatagram d.sender d.bytes s.clock)
      refine ⟨log, ?_⟩
      rw [carryOut, handleDatagram, hfollow]
      simp [Task.rearm, Task.reaction, Task.datagrams, Task.requests, Task.replies, Task.goesOn,
        Task.breaksOff, hr, node]
    | @request r rest _ hi ho hq =>
      obtain ⟨log, hserve⟩ := serve_eq_sending s r s.requests.tail
      refine ⟨log, ?_⟩
      rw [carryOut, hserve]
      simp [Task.rearm, Task.reaction, Task.datagrams, Task.requests, Task.replies, Task.goesOn,
        Task.breaksOff, hr]
    | hangUp _ hi ho hq hl hc =>
      refine ⟨(s.tell [s.node.report .commandsClosed]).journal, ?_⟩
      rw [carryOut, hangUp]
      simp [tell, Task.rearm, Task.reaction, Task.datagrams, Task.requests, Task.replies,
        Task.goesOn, Task.breaksOff, hr, node, sending]
    | @timer k _ hi ho hq hl hk =>
      obtain ⟨log, hfollow⟩ := follow_eq_sending
        { s with controller := s.controller.rearm k s.clock } (s.node.handle k.event s.clock)
      refine ⟨log, ?_⟩
      rw [carryOut, fire, hfollow]
      simp [Task.rearm, Task.reaction, Task.datagrams, Task.requests, Task.replies, Task.goesOn,
        Task.breaksOff, hr]
    | finish _ hi ho =>
      refine ⟨(s.tell [s.node.report .loopEnded]).journal, ?_⟩
      rw [carryOut, finish]
      simp [tell, Task.rearm, Task.reaction, Task.datagrams, Task.requests, Task.replies,
        Task.goesOn, Task.breaksOff, node, sending]
  | breakOff hw ht =>
    refine ⟨s.breakOff.journal, ?_⟩
    rw [carryOut, breakOff]
    simp [tell, Task.rearm, Task.reaction, Task.datagrams, Task.requests, Task.replies,
      Task.goesOn, Task.breaksOff, node, sending]

/-- The task that a session carries out is entered in its account. -/
theorem ledger_carryOut {s : Session} {t : Task} (h : s.Ready t) :
    (s.carryOut t).ledger = s.ledger.enter ⟨s.clock, t⟩ := by
  obtain ⟨log, ht⟩ := carryOut_eq h
  rw [ht]
  simp [ledger, Ledger.enter, node, attempts, map_attempt_sending]

/-- What the outside does is no part of the account. -/
theorem ledger_move {s : Session} {m : Move} (h : m ≠ .turn) :
    (s.move m).ledger = s.ledger := by
  cases m with
  | arrival d => simp only [move, enqueue]; split <;> rfl
  | request r => simp only [move, ask]; split <;> rfl
  | closeInbox | closeRequests | pass span => rfl
  | turn => exact absurd rfl h

/-- The account of a session is that of a node to which its turns happen one after the other. -/
theorem ledger_after (s : Session) (ms : List Move) :
    (s.after ms).ledger = (s.turns ms).foldl Ledger.enter s.ledger := by
  induction ms generalizing s with
  | nil => rfl
  | cons m ms ih =>
    rw [after_cons, ih, turns_cons, List.foldl_append]
    congr 1
    by_cases hm : m = .turn
    · subst hm
      cases ht : s.task? with
      | none => rw [move_turn_of_idle ht, takenBy_of_idle ht]; rfl
      | some t =>
        rw [move_turn_of_task? ht, takenBy_of_task? ht, ledger_carryOut (ready_of_task? ht)]
        rfl
    · rw [ledger_move hm]
      cases m with
      | turn => exact absurd rfl hm
      | _ => rfl

/-! ### Runs as moves -/

theorem runUntil_of_next? {limit : Nat} {s t : Session} (h : s.next? limit = some t) :
    s.runUntil limit = t.runUntil limit := by
  rw [runUntil]
  split
  · next u hu => rw [Option.some.inj (hu.symm.trans h)]
  · next hn => rw [h] at hn; cases hn

theorem runUntil_of_rest {limit : Nat} {s : Session} (h : s.next? limit = none) :
    s.runUntil limit = { s with clock := max s.clock limit } := by
  rw [runUntil]
  split
  · next u hu => rw [h] at hu; cases hu
  · rfl

/-- The moves of a run up to some instant: turns, and between them the clock. -/
def movesUntil (limit : Nat) (s : Session) : List Move :=
  match _h : s.next? limit with
  | some t =>
    (if s.task?.isSome then .turn else .pass (t.clock - s.clock)) :: movesUntil limit t
  | none => [.pass (limit - s.clock)]
termination_by (s.pending, s.node.isDown.toNat, s.remaining limit)
decreasing_by exact next?_lt ‹_›

theorem movesUntil_of_rest {limit : Nat} {s : Session} (h : s.next? limit = none) :
    s.movesUntil limit = [.pass (limit - s.clock)] := by
  rw [movesUntil]
  split
  · next u hu => rw [h] at hu; cases hu
  · rfl

/-- While there is something to do, the next move of a run is a turn. -/
theorem movesUntil_of_task? {limit : Nat} {s : Session} {t : Task} (h : s.task? = some t) :
    s.movesUntil limit = .turn :: (s.carryOut t).movesUntil limit := by
  have hnext : s.next? limit = some (s.carryOut t) := by
    rw [next?, turn?, h]
    rfl
  rw [movesUntil]
  split
  · next u hu => rw [← Option.some.inj (hnext.symm.trans hu), h]; rfl
  · next hn => rw [hnext] at hn; cases hn

/-- While there is nothing to do, the clock moves to the next deadline. -/
theorem movesUntil_of_idle {limit : Nat} {s : Session} (h : s.task? = none)
    (hr : s.running = true) (hle : s.controller.deadline ≤ limit) :
    s.movesUntil limit = .pass (s.controller.deadline - s.clock) ::
      ({ s with clock := max s.clock s.controller.deadline } : Session).movesUntil limit := by
  have hnext : s.next? limit =
      some { s with clock := max s.clock s.controller.deadline } := by
    simp [next?, turn?, h, hr, hle]
  have hspan : max s.clock s.controller.deadline - s.clock = s.controller.deadline - s.clock := by
    omega
  rw [movesUntil]
  split
  · next u hu => rw [← Option.some.inj (hnext.symm.trans hu), h, hspan]; rfl
  · next hn => rw [hnext] at hn; cases hn

/-- A run up to some instant is what comes of its moves. -/
theorem after_movesUntil (limit : Nat) (s : Session) :
    s.after (s.movesUntil limit) = s.runUntil limit := by
  induction s using runUntil.induct limit with
  | case1 s t h ih =>
    rw [runUntil_of_next? h, ← ih]
    cases ht : s.task? with
    | some task =>
      rw [movesUntil_of_task? ht, after_cons, move_turn_of_task? ht]
      simp only [next?, turn?, ht, Option.map_some, Option.some.injEq] at h
      rw [h]
    | none =>
      simp only [next?, turn?, ht, Option.map_none, Bool.and_eq_true, decide_eq_true_eq,
        Option.ite_none_right_eq_some, Option.some.injEq] at h
      obtain ⟨⟨hr, hle⟩, rfl⟩ := h
      have hclock : s.clock + (s.controller.deadline - s.clock) =
          max s.clock s.controller.deadline := by omega
      rw [movesUntil_of_idle ht hr hle, after_cons, move, hclock]
  | case2 s h =>
    have hclock : s.clock + (limit - s.clock) = max s.clock limit := by omega
    rw [runUntil_of_rest h, movesUntil_of_rest h, after_cons, move, hclock, after_nil]

/-- At its start a session has sent and replied nothing. -/
@[simp] theorem ledger_start (n : Node) (before : List Notice) :
    (start n before).ledger = { node := n } := rfl

end Session

end TokenMesh
