import TokenMesh.Proofs.Controller.Moves
import Mathlib.Data.List.Basic

namespace TokenMesh

/-!
# Sends that fail

Whether the transport takes a message makes no difference to anything but what it takes: a session
never looks at what has become of its messages, and goes on to the next one.

* `Session.core`: a session without its transport;
* `Session.core_after`, `Session.core_runUntil`: the transport has no influence on it;
* `Session.letThrough`, `Session.delivered_after`: what the transport takes;
* `Session.failures_change_nothing`: two sessions that differ in what the transport takes.
-/

namespace Session

/-! ### Without the transport -/

/-- A session without its transport, what was sent, and what was reported. -/
def core (s : Session) : Session :=
  { s with link := fun _ => true, transmissions := #[], journal := #[] }

theorem eq_of_core {a b : Session} (h : a.core = b.core) :
    ∃ link sent log, a = { b with link := link, transmissions := sent, journal := log } := by
  refine ⟨a.link, a.transmissions, a.journal, ?_⟩
  calc a = { a.core with
        link := a.link, transmissions := a.transmissions, journal := a.journal } := rfl
    _ = { b with
        link := a.link, transmissions := a.transmissions, journal := a.journal } := by
      rw [h]
      rfl

section core

variable {a b : Session}

/-- What to do next does not depend on the transport. -/
theorem task?_of_core (h : a.core = b.core) : a.task? = b.task? := by
  obtain ⟨link, sent, log, rfl⟩ := eq_of_core h
  rfl

theorem core_carryOut (h : a.core = b.core) {t : Task} (ha : a.Ready t) (hb : b.Ready t) :
    (a.carryOut t).core = (b.carryOut t).core := by
  obtain ⟨link, sent, log, rfl⟩ := eq_of_core h
  obtain ⟨_, hcarry⟩ := carryOut_eq ha
  obtain ⟨_, hcarry'⟩ := carryOut_eq hb
  rw [hcarry, hcarry']
  rfl

/-- Nor does what comes of it. -/
theorem core_move (h : a.core = b.core) (m : Move) :
    (a.move m).core = (b.move m).core ∧ a.takenBy m = b.takenBy m := by
  have hclock : a.clock = b.clock := by
    obtain ⟨link, sent, log, rfl⟩ := eq_of_core h
    rfl
  by_cases hm : m = .turn
  · subst hm
    have htask := task?_of_core h
    cases hb : b.task? with
    | none =>
      rw [hb] at htask
      rw [move_turn_of_idle htask, move_turn_of_idle hb, takenBy_of_idle htask, takenBy_of_idle hb]
      exact ⟨h, rfl⟩
    | some t =>
      rw [hb] at htask
      rw [move_turn_of_task? htask, move_turn_of_task? hb, takenBy_of_task? htask,
        takenBy_of_task? hb, hclock]
      exact ⟨core_carryOut h (ready_of_task? htask) (ready_of_task? hb), rfl⟩
  · obtain ⟨link, sent, log, rfl⟩ := eq_of_core h
    cases m with
    | arrival d =>
      simp only [move, enqueue]
      split <;> exact ⟨rfl, rfl⟩
    | request r =>
      simp only [move, ask]
      split <;> exact ⟨rfl, rfl⟩
    | closeInbox | closeRequests | pass span => exact ⟨rfl, rfl⟩
    | turn => exact absurd rfl hm

/-- Nor does anything that happens later. -/
theorem core_after (h : a.core = b.core) (ms : List Move) :
    (a.after ms).core = (b.after ms).core ∧ a.turns ms = b.turns ms := by
  induction ms generalizing a b with
  | nil => exact ⟨h, rfl⟩
  | cons m ms ih =>
    obtain ⟨hmove, htaken⟩ := core_move h m
    obtain ⟨hafter, hturns⟩ := ih hmove
    exact ⟨hafter, by rw [turns_cons, turns_cons, htaken, hturns]⟩

theorem core_next? (limit : Nat) (h : a.core = b.core) :
    (a.next? limit).map core = (b.next? limit).map core := by
  have htask := task?_of_core h
  unfold next?
  rw [turn?, turn?, htask]
  cases hb : b.task? with
  | some t =>
    rw [hb] at htask
    exact congrArg some (core_carryOut h (ready_of_task? htask) (ready_of_task? hb))
  | none =>
    obtain ⟨link, sent, log, rfl⟩ := eq_of_core h
    dsimp only [Option.map_none]
    split <;> rfl

/-- Nor does a whole run up to some instant. -/
theorem core_runUntil (limit : Nat) (h : a.core = b.core) :
    (a.runUntil limit).core = (b.runUntil limit).core := by
  induction a using runUntil.induct limit generalizing b with
  | case1 a a' ha ih =>
    have hnext := core_next? limit h
    rw [ha, Option.map_some, eq_comm, Option.map_eq_some_iff] at hnext
    obtain ⟨b', hb, hcore⟩ := hnext
    rw [runUntil_of_next? ha, runUntil_of_next? hb]
    exact ih hcore.symm
  | case2 a ha =>
    have hnext := core_next? limit h
    rw [ha, Option.map_none, eq_comm, Option.map_eq_none_iff] at hnext
    rw [runUntil_of_rest ha, runUntil_of_rest hnext]
    obtain ⟨link, sent, log, rfl⟩ := eq_of_core h
    rfl

end core

/-! ### What the transport takes -/

/-- The elements of a list that a transport lets through, by their place. -/
def letThrough {α : Type} (link : Nat → Bool) (l : List α) : List α :=
  (l.zipIdx.filter fun p => link p.2).map Prod.fst

theorem letThrough_concat {α : Type} (link : Nat → Bool) (l : List α) (x : α) :
    letThrough link (l ++ [x]) = letThrough link l ++ if link l.length then [x] else [] := by
  simp only [letThrough, List.zipIdx_append, List.filter_append, List.map_append, Nat.zero_add,
    List.zipIdx_singleton]
  split <;> simp_all

/-- The messages that the transport took, and when. -/
def delivered (s : Session) : List (Nat × Outbound) :=
  (s.transmissions.toList.filter (·.taken)).map Transmission.attempt

/-- The transport takes what it lets through, in order. -/
theorem delivered_sending {link : Nat → Bool} {sent : Array Transmission}
    (h : (sent.toList.filter (·.taken)).map Transmission.attempt =
      letThrough link (sent.toList.map Transmission.attempt)) (time : Nat) (outs : List Outbound) :
    ((sending link time sent outs).toList.filter (·.taken)).map Transmission.attempt =
      letThrough link ((sending link time sent outs).toList.map Transmission.attempt) := by
  induction outs generalizing sent with
  | nil => exact h
  | cons o os ih =>
    rw [sending, List.foldl_cons, ← sending]
    refine ih ?_
    rw [Array.toList_push, List.filter_append, List.map_append, List.map_append, h,
      List.map_singleton, letThrough_concat, List.length_map, Array.length_toList]
    cases link sent.size <;> rfl

theorem delivered_move {s : Session} (h : s.delivered = letThrough s.link s.attempts) (m : Move) :
    (s.move m).link = s.link ∧ (s.move m).delivered = letThrough s.link (s.move m).attempts := by
  cases m with
  | arrival d =>
    simp only [move, enqueue]
    split <;> exact ⟨rfl, h⟩
  | request r =>
    simp only [move, ask]
    split <;> exact ⟨rfl, h⟩
  | closeInbox | closeRequests | pass span => exact ⟨rfl, h⟩
  | turn =>
    cases ht : s.task? with
    | none =>
      rw [move_turn_of_idle ht]
      exact ⟨rfl, h⟩
    | some t =>
      obtain ⟨log, hlog⟩ := carryOut_eq (ready_of_task? ht)
      rw [move_turn_of_task? ht, hlog]
      exact ⟨rfl, delivered_sending h s.clock _⟩

/-- Of what a session attempts, the transport takes what it lets through. -/
theorem delivered_after {s : Session} (h : s.delivered = letThrough s.link s.attempts)
    (ms : List Move) : (s.after ms).delivered = letThrough s.link (s.after ms).attempts := by
  induction ms generalizing s with
  | nil => exact h
  | cons m ms ih =>
    obtain ⟨hlink, hmove⟩ := delivered_move h m
    rw [after_cons, ← hlink]
    exact ih (hlink ▸ hmove)

/-- **Sends that fail change nothing.**  Let the same happen to two sessions that differ in what the
    transport takes.  Then all but the transport itself, what it has taken and what was reported is
    the same in both: the node, its tickers, the queues, the replies, and the turns of the
    controller with their instants; and it stays the same if both are left to themselves.  Both
    attempt the same messages at the same instants, and these are all that the node wants sent at
    each turn, in order.  What a transport has taken is what it lets through of them. -/
theorem failures_change_nothing (n : Node) (before : List Notice) (link link' : Nat → Bool)
    (ms : List Move) :
    let s : Session := { start n before with link := link }
    let s' : Session := { start n before with link := link' }
    (s.after ms).core = (s'.after ms).core ∧
    (∀ limit, ((s.after ms).runUntil limit).core = ((s'.after ms).runUntil limit).core) ∧
    s.turns ms = s'.turns ms ∧
    (s.after ms).attempts = (Ledger.replay n (s.turns ms)).attempts ∧
    (s'.after ms).attempts = (Ledger.replay n (s.turns ms)).attempts ∧
    (s.after ms).delivered = letThrough link (s.after ms).attempts ∧
    (s'.after ms).delivered = letThrough link' (s'.after ms).attempts := by
  intro s s'
  have hcore : s.core = s'.core := rfl
  obtain ⟨hafter, hturns⟩ := core_after hcore ms
  have hattempts : ∀ {t : Session}, t.ledger = { node := n } →
      (t.after ms).attempts = (Ledger.replay n (t.turns ms)).attempts := by
    intro t ht
    have h := congrArg Ledger.attempts (t.ledger_after ms)
    rw [ht] at h
    exact h
  exact ⟨hafter, fun limit => core_runUntil limit hafter, hturns, hattempts rfl,
    hturns ▸ hattempts rfl, delivered_after rfl ms, delivered_after rfl ms⟩

end Session

end TokenMesh
