import TokenMesh.Controller.Session

namespace TokenMesh

/-!
# Sessions in time

The clock of a session stands still while the controller has something to do.  Once it is idle, the
clock moves to the next deadline, and so on up to the end of the run.

* `Session.next?`: the next turn, or the next move of the clock;
* `Session.runUntil`: all turns up to a given instant;
* `Session.settle`, `Session.sleep`, `Session.call`: all turns of this instant, of a span of time,
  and those that lead to the reply to a request.

A run ends because every turn uses up something: a datagram, a request, a power failure, or a part
of the time that is left before the end of the run.
-/

namespace Session

/-- The next turn up to a given time; if there is none at this instant, a move of the clock to the
    next deadline. -/
def next? (limit : Nat) (s : Session) : Option Session :=
  match s.turn? with
  | some t => some t
  | none =>
    if s.running && s.controller.deadline ≤ limit then
      some { s with clock := max s.clock s.controller.deadline }
    else none

/-! ### What is next -/

/-- What comes when: datagrams come first, then the end of the datagrams, then requests and their
    end, and timers last. -/
inductive Wants (s : Session) : Task → Prop
  | datagram {d : Datagram} {rest : List Datagram} (hr : s.running = true)
      (hi : s.inbox = d :: rest) : Wants s (.datagram d)
  | finish (hr : s.running = true) (hi : s.inbox = []) (ho : s.inboxOpen = false) :
      Wants s (.finish s.requests)
  | request {r : Request} {rest : List Request} (hr : s.running = true) (hi : s.inbox = [])
      (ho : s.inboxOpen = true) (hq : s.requests = r :: rest) : Wants s (.request r)
  | hangUp (hr : s.running = true) (hi : s.inbox = []) (ho : s.inboxOpen = true)
      (hq : s.requests = []) (hl : s.listening = true) (hc : s.requestsOpen = false) :
      Wants s .hangUp
  | timer {k : TimerKind} (hr : s.running = true) (hi : s.inbox = []) (ho : s.inboxOpen = true)
      (hq : s.requests = []) (hl : s.listening = true → s.requestsOpen = true)
      (hk : s.controller.due? s.clock = some k) : Wants s (.timer k)

/-- What a controller does: what comes next, if clocks can show all instants that it sets, and else
    it is gone. -/
inductive Ready (s : Session) : Task → Prop
  | inTime {t : Task} (hw : s.Wants t) (ht : s.inTime t = true) : Ready s t
  | breakOff {t : Task} (hw : s.Wants t) (ht : s.inTime t = false) :
      Ready s (.breakOff s.inbox s.requests)

theorem Wants.running {s : Session} {t : Task} (h : s.Wants t) : s.running = true := by
  cases h <;> assumption

theorem wants_of_wanted? {s : Session} {t : Task} (h : s.wanted? = some t) : s.Wants t := by
  unfold wanted? at h
  split at h
  · cases h
  · next hr =>
    simp only [Bool.not_eq_true', Bool.not_eq_false] at hr
    split at h
    · next hi => obtain rfl := Option.some.inj h; exact .datagram hr hi
    · next hi =>
      split at h
      · next ho => obtain rfl := Option.some.inj h; exact .finish hr hi (by simpa using ho)
      · next ho =>
        simp only [Bool.not_eq_true', Bool.not_eq_false] at ho
        split at h
        · next hq => obtain rfl := Option.some.inj h; exact .request hr hi ho hq
        · next hq =>
          split at h
          · next hl =>
            simp only [Bool.and_eq_true, Bool.not_eq_true'] at hl
            obtain rfl := Option.some.inj h
            exact .hangUp hr hi ho hq hl.1 hl.2
          · next hl =>
            obtain ⟨k, hk, rfl⟩ := Option.map_eq_some_iff.1 h
            exact .timer hr hi ho hq (by simpa using hl) hk

theorem ready_of_task? {s : Session} {t : Task} (h : s.task? = some t) : s.Ready t := by
  obtain ⟨u, hu, rfl⟩ := Option.map_eq_some_iff.1 h
  have hw := wants_of_wanted? hu
  split
  · next ht => exact .inTime hw ht
  · next ht => exact .breakOff hw (by simpa using ht)

/-- A turn is a task that the controller is ready for. -/
theorem exists_ready_of_turn? {s t : Session} (h : s.turn? = some t) :
    ∃ task, s.Ready task ∧ t = s.carryOut task := by
  obtain ⟨task, htask, rfl⟩ := Option.map_eq_some_iff.1 h
  exact ⟨task, ready_of_task? htask, rfl⟩

/-! ### What a turn uses up -/

/-- How much there is in front of the controller, counting the two ends it may still come to. -/
def pending (s : Session) : Nat :=
  s.inbox.length + s.requests.length + s.listening.toNat + s.running.toNat

/-- The time until the end of a run, for the clock and for both tickers. -/
def remaining (limit : Nat) (s : Session) : Nat :=
  let stop := max limit s.clock + 1
  (stop - s.controller.announce.deadline) + (stop - s.controller.beacon.deadline) + (stop - s.clock)

theorem offers_eq (outs : List Outbound) (s : Session) :
    ∃ sent log, outs.foldl offer s = { s with transmissions := sent, journal := log } := by
  induction outs generalizing s with
  | nil => exact ⟨s.transmissions, s.journal, rfl⟩
  | cons o os ih =>
    obtain ⟨sent, log, h⟩ := ih (s.offer o)
    rw [List.foldl_cons, h]
    unfold offer
    simp only
    split
    · exact ⟨sent, log, rfl⟩
    · exact ⟨sent, log, rfl⟩

/-- Beside the node itself, a reaction changes only what was sent and reported. -/
theorem follow_eq (s : Session) (r : Reaction) :
    ∃ sent log, s.follow r =
      { s with
        controller := { s.controller with node := r.node }
        transmissions := sent
        journal := log } := by
  obtain ⟨sent, log, h⟩ := offers_eq r.sends
    ({ s with controller := { s.controller with node := r.node } }.tell r.notices)
  exact ⟨sent, log, by rw [follow, h]; rfl⟩

@[simp] theorem pending_follow (s : Session) (r : Reaction) :
    (s.follow r).pending = s.pending := by
  obtain ⟨_, _, h⟩ := follow_eq s r
  rw [h]; rfl

@[simp] theorem remaining_follow (limit : Nat) (s : Session) (r : Reaction) :
    (s.follow r).remaining limit = s.remaining limit := by
  obtain ⟨_, _, h⟩ := follow_eq s r
  rw [h]; rfl

@[simp] theorem node_follow (s : Session) (r : Reaction) : (s.follow r).node = r.node := by
  obtain ⟨_, _, h⟩ := follow_eq s r
  rw [h]; rfl

theorem pending_handleDatagram {s : Session} {d : Datagram} {rest : List Datagram}
    (h : s.inbox = d :: rest) : (s.handleDatagram d rest).pending < s.pending := by
  rw [handleDatagram, pending_follow]
  simp only [pending, h, List.length_cons]; omega

theorem pending_serve {s : Session} {r : Request} {rest : List Request}
    (h : s.requests = r :: rest) : (s.serve r rest).pending < s.pending := by
  have key : (s.serve r rest).pending = { s with requests := rest }.pending := by
    unfold serve
    simp only
    split <;> exact pending_follow ..
  rw [key]
  simp only [pending, h, List.length_cons]; omega

theorem pending_finish {s : Session} (h : s.running = true) : s.finish.pending < s.pending := by
  simp only [finish, tell, pending, h, List.length_nil, Bool.toNat_true, Bool.toNat_false]; omega

theorem pending_breakOff {s : Session} (h : s.running = true) :
    s.breakOff.pending < s.pending := by
  simp only [breakOff, tell, pending, h, List.length_nil, Bool.toNat_true, Bool.toNat_false]; omega

theorem pending_hangUp {s : Session} (h : s.listening = true) : s.hangUp.pending < s.pending := by
  simp only [hangUp, tell, pending, h, Bool.toNat_true, Bool.toNat_false]; omega

@[simp] theorem pending_fire (s : Session) (k : TimerKind) : (s.fire k).pending = s.pending := by
  rw [fire, pending_follow]; rfl

/-- The periodic timers of a node leave its power alone. -/
theorem isDown_handle_announce (n : Node) (now : Nat) :
    (n.handle .announceTimer now).node.isDown = n.isDown := by
  simp only [Node.handle, Node.react, Node.onAnnounceTimer, Reaction.swept]
  split <;> rfl

theorem isDown_handle_beacon (n : Node) (now : Nat) :
    (n.handle .beaconTimer now).node.isDown = n.isDown := by
  simp only [Node.handle, Node.react, Node.onBeaconTimer, Reaction.swept]
  split <;> rfl

/-- A node without power has it again once its restart timer has fired. -/
theorem isDown_handle_restart {n : Node} (now : Nat) (h : n.isDown = true) :
    (n.handle .restartTimer now).node.isDown = false := by
  simp only [Node.handle, Node.react, Node.onRestartTimer, h, ↓reduceIte]
  rfl

/-- A timer that fires on time uses up the power failure it ends, or a part of the time left. -/
theorem fire_lt {limit : Nat} {s : Session} {k : TimerKind}
    (h : s.controller.due? s.clock = some k) :
    Prod.Lex (· < ·) (· < ·)
      ((s.fire k).node.isDown.toNat, (s.fire k).remaining limit)
      (s.node.isDown.toNat, s.remaining limit) := by
  unfold Controller.due? at h
  split at h
  · next hd =>
    obtain rfl := Option.some.inj h
    rw [fire, node_follow, remaining_follow, TimerKind.event, isDown_handle_announce]
    refine .right _ ?_
    have := s.controller.announce.deadline_lt_tick s.clock
    have := s.controller.announce.deadline_le_due
    simp only [remaining, Controller.rearm]; omega
  · split at h
    · next hd =>
      obtain rfl := Option.some.inj h
      rw [fire, node_follow, remaining_follow, TimerKind.event, isDown_handle_beacon]
      refine .right _ ?_
      have := s.controller.beacon.deadline_lt_tick s.clock
      have := s.controller.beacon.deadline_le_due
      simp only [remaining, Controller.rearm]; omega
    · split at h
      · next hd =>
        obtain rfl := Option.some.inj h
        have hdown : s.node.isDown = true := by
          unfold Controller.restartDue? Node.restartDeadline? at hd
          unfold Node.isDown node
          cases hp : s.controller.node.power with
          | on => simp [hp] at hd
          | down t => rfl
        -- the restart ends the power failure
        refine .left _ _ ?_
        rw [fire, node_follow, TimerKind.event, isDown_handle_restart _ hdown, hdown]
        decide
      · cases h

/-- A turn uses up something. -/
theorem turn?_lt {limit : Nat} {s t : Session} (h : s.turn? = some t) :
    Prod.Lex (· < ·) (Prod.Lex (· < ·) (· < ·))
      (t.pending, t.node.isDown.toNat, t.remaining limit)
      (s.pending, s.node.isDown.toNat, s.remaining limit) := by
  obtain ⟨task, hready, rfl⟩ := exists_ready_of_turn? h
  cases hready with
  | inTime hw ht =>
    cases hw with
    | datagram hr hi =>
      refine .left _ _ (pending_handleDatagram (d := _) ?_)
      rw [hi]
      rfl
    | finish hr hi ho => exact .left _ _ (pending_finish hr)
    | request hr hi ho hq =>
      refine .left _ _ (pending_serve ?_)
      rw [hq]
      rfl
    | hangUp hr hi ho hq hl hc => exact .left _ _ (pending_hangUp hl)
    | timer hr hi ho hq hl hk =>
      -- only a timer takes nothing that is pending
      rw [carryOut, pending_fire]
      exact .right _ (fire_lt hk)
  | breakOff hw ht => exact .left _ _ (pending_breakOff hw.running)

/-- Where a running session has no turn to take, no timer is due. -/
theorem due?_eq_none_of_turn? {s : Session} (h : s.turn? = none) (hr : s.running = true) :
    s.controller.due? s.clock = none := by
  have hw : s.wanted? = none := Option.map_eq_none_iff.1 (Option.map_eq_none_iff.1 h)
  simp only [wanted?, hr, Bool.not_true, Bool.false_eq_true, ↓reduceIte] at hw
  split at hw
  · cases hw
  · split at hw
    · cases hw
    · split at hw
      · cases hw
      · split at hw
        · cases hw
        · exact Option.map_eq_none_iff.1 hw

/-- A turn, or a move of the clock, uses up something. -/
theorem next?_lt {limit : Nat} {s t : Session} (h : s.next? limit = some t) :
    Prod.Lex (· < ·) (Prod.Lex (· < ·) (· < ·))
      (t.pending, t.node.isDown.toNat, t.remaining limit)
      (s.pending, s.node.isDown.toNat, s.remaining limit) := by
  unfold next? at h
  split at h
  · next u hu => obtain rfl := Option.some.inj h; exact turn?_lt hu
  · next hu =>
    split at h
    · next hd =>
      simp only [Bool.and_eq_true, decide_eq_true_eq] at hd
      have := Controller.lt_deadline_of_due?_eq_none (due?_eq_none_of_turn? hu hd.1)
      obtain rfl := Option.some.inj h
      -- the clock moves to a deadline that still lies ahead
      refine .right _ (.right _ ?_)
      simp only [remaining]; omega
    · cases h

/-! ### Runs -/

/-- All turns up to a given instant, at which the clock then stands. -/
def runUntil (limit : Nat) (s : Session) : Session :=
  match _h : s.next? limit with
  | some t => runUntil limit t
  | none => { s with clock := max s.clock limit }
termination_by (s.pending, s.node.isDown.toNat, s.remaining limit)
decreasing_by exact next?_lt ‹_›

/-- All turns that are due at this instant. -/
def settle (s : Session) : Session := s.runUntil s.clock

/-- All turns of a span of time. -/
def sleep (s : Session) (span : Nat) : Session := s.runUntil (s.clock + span)

/-- The failure of a request that no controller is there to take. -/
def stoppedError : Error := .concurrency "Node controller stopped: channel closed"

/-- A request is made, and the reply awaited. -/
def call (s : Session) (c : Command) : Session × Except Error Reply :=
  if s.running && s.requestsOpen then
    let s := (s.ask ⟨c, true⟩).settle
    (s, s.replies.back?.getD (.error droppedError))
  else (s, .error stoppedError)

/-- A request is made by an operator who does not wait for the reply. -/
def abandon (s : Session) (c : Command) : Session := (s.ask ⟨c, false⟩).settle

end Session

end TokenMesh
