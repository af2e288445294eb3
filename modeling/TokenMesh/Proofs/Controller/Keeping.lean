import TokenMesh.Proofs.Chronicle
import TokenMesh.Proofs.Controller.Moves
import TokenMesh.Proofs.Node.Timers

namespace TokenMesh

/-!
# A controller that is in time

A controller whose node is cut off from power again and again, and that takes its turns in time,
keeps to the chronicle of the cuts with every turn.

* `Time.Whole`, `ProtocolSettings.Exact`: instants and spans that timers hit exactly;
* `Cut.rounded`: what a controller makes of a cut that does not end at a whole millisecond;
* `Session.sentAt`, `Session.coldStarts`: when messages were multicast, and power came back;
* `Session.Abides`: a session that has kept to a chronicle so far;
* `Session.Abides.serve`, `Session.Abides.fire`, `Session.Abides.wait`: a request, a timer, and a
  pause.
-/

/-- Whole milliseconds. -/
def Time.Whole (t : Nat) : Prop := t % Time.ofMillis 1 = 0

instance (t : Nat) : Decidable (Time.Whole t) := by unfold Time.Whole; infer_instance

namespace Time

theorem Whole.add {t u : Nat} (ht : Whole t) (hu : Whole u) : Whole (t + u) := by
  simp only [Whole, ofMillis] at *
  omega

theorem whole_ceilMillis (t : Nat) : Whole (ceilMillis t) := by
  simp only [Whole, ceilMillis, millis, ofMillis]
  omega

theorem ceilMillis_of_whole {t : Nat} (h : Whole t) : ceilMillis t = t := by
  simp only [Whole, ceilMillis, millis, ofMillis] at *
  omega

end Time

/-- Settings with which the timers of a node always fire at whole milliseconds. -/
structure ProtocolSettings.Exact (s : ProtocolSettings) : Prop where
  announcePeriod : Time.Whole s.announcePeriod
  initialAnnounceDelay : Time.Whole s.initialAnnounceDelay
  beaconPeriod : Time.Whole s.beaconPeriod

namespace Ticker

/-- A ticker set to whole milliseconds is due at its deadline. -/
theorem due_of_whole {t : Ticker} (h : Time.Whole t.deadline) : t.due = t.deadline :=
  Time.ceilMillis_of_whole h

theorem deadline_tick {t : Ticker} {now : Nat} (h : now ≤ t.deadline) :
    (t.tick now).deadline = t.deadline + t.period := by
  simp only [tick]
  split
  · omega
  · rfl

end Ticker

/-- A timer that fires is due. -/
theorem Controller.le_of_due? {c : Controller} {now : Nat} {k : TimerKind}
    (h : c.due? now = some k) :
    match k with
    | .announce => c.announce.due ≤ now
    | .beacon => c.beacon.due ≤ now
    | .restart => ∃ t ∈ c.restartDue?, t ≤ now := by
  unfold due? at h
  split at h
  · next ha => obtain rfl := Option.some.inj h; exact ha
  · split at h
    · next hb => obtain rfl := Option.some.inj h; exact hb
    · split at h
      · next hr =>
        obtain rfl := Option.some.inj h
        obtain ⟨t, ht, hle⟩ := (Option.any_eq_true _ _).1 hr
        exact ⟨t, ht, of_decide_eq_true hle⟩
      · cases h

/-- The next deadline is that of the timer that fires first. -/
theorem Controller.deadline_le (c : Controller) :
    c.deadline ≤ c.announce.due ∧ c.deadline ≤ c.beacon.due ∧
      ∀ t ∈ c.restartDue?, c.deadline ≤ t := by
  unfold deadline
  cases c.restartDue? with
  | none => exact ⟨Nat.min_le_left .., Nat.min_le_right .., by simp⟩
  | some t => simp only [Option.mem_def, Option.some.injEq, forall_eq']; omega

/-- A request to cut the power is granted to a node with power and refused to one without.  Nothing
    is sent. -/
theorem Command.reaction_powerDown (n : Node) (delay now : Nat) :
    let c := Command.powerDown delay
    (c.reaction n now).sends = [] ∧ (c.reaction n now).node.settings = n.settings ∧
      (n.isDown = false → (c.reaction n now).node.power = .down (now + delay) ∧
        c.answer n now = .ok .done) ∧
      (n.isDown = true → (c.reaction n now).node.power = n.power ∧
        c.answer n now = .error .restartPending) := by
  have hsweep : (n.sweep now).isDown = n.isDown := rfl
  cases hd : n.isDown with
  | false =>
    obtain ⟨r, hr, hnode, hsends, -⟩ := Node.powerDown_of_up (hsweep.trans hd) delay now
    simp only [reaction, answer, hr]
    simp [hnode, hsends, Except.map]
  | true =>
    simp only [reaction, answer, Node.powerDown_of_down (hsweep.trans hd)]
    simp [Except.map]

namespace Cut

/-- The cut that a controller makes of one: power comes back at a whole millisecond. -/
def rounded (x : Cut) : Cut := ⟨x.time, Time.ceilMillis (x.time + x.length) - x.time⟩

@[simp] theorem time_rounded (x : Cut) : x.rounded.time = x.time := rfl

/-- The end of a cut is put off to the next whole millisecond. -/
theorem end_rounded (x : Cut) :
    x.rounded.time + x.rounded.length = Time.ceilMillis (x.time + x.length) := by
  have := Time.le_ceilMillis (x.time + x.length)
  simp only [rounded]
  omega

theorem end_le_rounded (x : Cut) : x.time + x.length ≤ x.rounded.time + x.rounded.length := by
  rw [end_rounded]
  exact Time.le_ceilMillis _

end Cut

/-- The request for a cut. -/
def Cut.request (x : Cut) : Request := ⟨.powerDown x.length, true⟩

namespace Session

/-! ### What is observed -/

/-- The instants at which messages of a kind were multicast. -/
def sentAt (kind : Message.Kind) (attempts : List (Nat × Outbound)) : List Nat :=
  (attempts.filter fun p => p.2.isMulticast && p.2.message.kind = kind).map Prod.fst

/-- The instants at which the node was switched on again. -/
def coldStarts (turns : List Turn) : List Nat :=
  (turns.filter fun t => t.task = .timer .restart).map (·.time)

/-- The reply to the request for a cut. -/
def replyTo (granted : Bool) : Except Error Reply :=
  if granted then .ok .done else .error (.refusal .restartPending)

@[simp] theorem sentAt_append (kind : Message.Kind) (l l' : List (Nat × Outbound)) :
    sentAt kind (l ++ l') = sentAt kind l ++ sentAt kind l' := by
  simp [sentAt]

@[simp] theorem sentAt_nil (kind : Message.Kind) : sentAt kind [] = [] := rfl

@[simp] theorem sentAt_multicast (kind : Message.Kind) (time : Nat) (m : Message) :
    sentAt kind [(time, .multicast m)] = if m.kind = kind then [time] else [] := by
  by_cases h : m.kind = kind <;> simp [sentAt, Outbound.isMulticast, Outbound.message, h]

@[simp] theorem coldStarts_append (l l' : List Turn) :
    coldStarts (l ++ l') = coldStarts l ++ coldStarts l' := by
  simp [coldStarts]

/-! ### Keeping to a chronicle -/

/-- A session has kept to a chronicle so far, taking these turns, and all that it has sent it has
    sent before `seen`. -/
structure Abides (s : ProtocolSettings) (c : Chronicle) (seen : Nat) (x : Session)
    (turns : List Turn) : Prop where
  running : x.running = true
  inbox : x.inbox = []
  inboxOpen : x.inboxOpen = true
  requestsOpen : x.requestsOpen = true
  settings : x.node.settings = s
  announcePeriod : x.controller.announce.period = s.announcePeriod
  beaconPeriod : x.controller.beacon.period = s.beaconPeriod
  seen_le : seen ≤ x.clock + 1
  on : ∀ since, c.phase = .on since → x.node.power = .on ∧
    Time.Whole x.controller.announce.deadline ∧ Time.Whole x.controller.beacon.deadline ∧
    x.clock ≤ x.controller.announce.deadline ∧ x.clock ≤ x.controller.beacon.deadline
  off : ∀ till, c.phase = .off till →
    (∃ exact, x.node.power = .down exact ∧ Time.ceilMillis exact = till) ∧ x.clock ≤ till
  keeps : c.Keeps s seen x.controller.announce.deadline x.controller.beacon.deadline
    (sentAt .announce x.attempts) (sentAt .beacon x.attempts)
  starts : coldStarts turns = c.starts
  replies : x.replies.toList = c.answers.map replyTo

section abides

variable {s : ProtocolSettings} {c c' : Chronicle} {seen seen' : Nat} {x : Session}
  {turns : List Turn}

theorem announcePeriod_rearm (t : Task) (k : Controller) (now : Nat) :
    (t.rearm k now).announce.period = k.announce.period := by
  cases t with
  | timer kind => cases kind <;> rfl
  | _ => rfl

theorem beaconPeriod_rearm (t : Task) (k : Controller) (now : Nat) :
    (t.rearm k now).beacon.period = k.beacon.period := by
  cases t with
  | timer kind => cases kind <;> rfl
  | _ => rfl

/-- What has to be shown of a task: all else about a session stays as it is. -/
theorem Abides.carryOut {t : Task} (h : Abides s c seen x turns) (ht : x.Ready t)
    (hgo : t.goesOn = true) (hset : (t.reaction x.node x.clock).node.settings = s)
    (hseen : seen' ≤ x.clock + 1)
    (hon : ∀ since, c'.phase = .on since → (t.reaction x.node x.clock).node.power = .on ∧
      Time.Whole (t.rearm x.controller x.clock).announce.deadline ∧
      Time.Whole (t.rearm x.controller x.clock).beacon.deadline ∧
      x.clock ≤ (t.rearm x.controller x.clock).announce.deadline ∧
      x.clock ≤ (t.rearm x.controller x.clock).beacon.deadline)
    (hoff : ∀ till, c'.phase = .off till →
      (∃ exact, (t.reaction x.node x.clock).node.power = .down exact ∧
        Time.ceilMillis exact = till) ∧ x.clock ≤ till)
    (hkeeps : c'.Keeps s seen' (t.rearm x.controller x.clock).announce.deadline
      (t.rearm x.controller x.clock).beacon.deadline
      (sentAt .announce x.attempts ++
        sentAt .announce ((t.reaction x.node x.clock).sends.map (x.clock, ·)))
      (sentAt .beacon x.attempts ++
        sentAt .beacon ((t.reaction x.node x.clock).sends.map (x.clock, ·))))
    (hstarts : c.starts ++ coldStarts [⟨x.clock, t⟩] = c'.starts)
    (hreplies : c.answers.map replyTo ++ t.replies x.node x.clock = c'.answers.map replyTo) :
    Abides s c' seen' (x.carryOut t) (turns ++ [⟨x.clock, t⟩]) := by
  obtain ⟨log, hlog⟩ := carryOut_eq ht
  rw [hlog]
  exact
    { running := hgo
      inbox := by simp [h.inbox]
      inboxOpen := by
        have hnever : t.breaksOff = false := by
          cases t with
          | breakOff => cases hgo
          | _ => rfl
        simp [h.inboxOpen, hnever]
      requestsOpen := h.requestsOpen
      settings := hset
      announcePeriod := (announcePeriod_rearm ..).trans h.announcePeriod
      beaconPeriod := (beaconPeriod_rearm ..).trans h.beaconPeriod
      seen_le := hseen
      on := hon
      off := hoff
      keeps := by
        simp only [attempts, map_attempt_sending, sentAt_append]
        exact hkeeps
      starts := by rw [coldStarts_append, h.starts, hstarts]
      replies := by
        rw [← hreplies, ← h.replies]
        simp }

/-- A request for a cut has nothing sent. -/
theorem sentAt_request (kind : Message.Kind) (q : Cut) (n : Node) (now : Nat) :
    sentAt kind (((Task.request q.request).reaction n now).sends.map (now, ·)) = [] := by
  have hnone : ((Task.request q.request).reaction n now).sends = [] :=
    (Command.reaction_powerDown n q.length now).1
  rw [hnone]
  rfl

/-- A request is served while power is on, at an instant at which no timer is due. -/
theorem Abides.granted {q : Cut} {since : Nat} (h : Abides s c seen x turns)
    (hs : 0 < s.announcePeriod ∧ 0 < s.beaconPeriod) (hready : x.Ready (.request q.request))
    (htime : q.time = x.clock) (hphase : c.phase = .on since)
    (hlate : x.clock < x.controller.announce.deadline)
    (hlate' : x.clock < x.controller.beacon.deadline) :
    Abides s (c.cut q.rounded) seen (x.carryOut (.request q.request))
      (turns ++ [⟨x.clock, .request q.request⟩]) := by
  obtain ⟨-, hset, hup, -⟩ := Command.reaction_powerDown x.node q.length x.clock
  obtain ⟨hoff, hreply⟩ := hup (Node.isDown_eq_false_iff.2 (h.on since hphase).1)
  have hkeeps := h.keeps.granted (x := q.rounded) hs hphase
    (by rw [Cut.time_rounded, htime]; exact h.seen_le)
    (by rw [Cut.time_rounded, htime]; exact hlate)
    (by rw [Cut.time_rounded, htime]; exact hlate') seen
    x.controller.announce.deadline x.controller.beacon.deadline
  have hcut := Chronicle.cut_of_on hphase q.rounded
  refine h.carryOut hready rfl (hset.trans h.settings) h.seen_le ?_ ?_ ?_ ?_ ?_
  · intro since' hon
    rw [hcut] at hon
    cases hon
  · intro till hoff'
    rw [hcut] at hoff'
    obtain rfl := Phase.off.inj hoff'
    refine ⟨⟨_, hoff, ?_⟩, ?_⟩
    · rw [Cut.end_rounded, htime]
    · rw [Cut.time_rounded, htime]
      exact Nat.le_add_right ..
  · rw [sentAt_request, sentAt_request, List.append_nil, List.append_nil]
    exact hkeeps
  · rw [hcut]
    exact List.append_nil _
  · rw [hcut]
    simp only [Task.replies, Cut.request, hreply, List.map_append]
    rfl

/-- A request is served while power is off. -/
theorem Abides.refused {q : Cut} {till : Nat} (h : Abides s c seen x turns)
    (hready : x.Ready (.request q.request)) (htime : q.time = x.clock)
    (hphase : c.phase = .off till) :
    Abides s (c.cut q.rounded) seen (x.carryOut (.request q.request))
      (turns ++ [⟨x.clock, .request q.request⟩]) := by
  obtain ⟨⟨exact, hpower, hceil⟩, hle⟩ := h.off till hphase
  obtain ⟨-, hset, -, hdown⟩ := Command.reaction_powerDown x.node q.length x.clock
  obtain ⟨hsame, hreply⟩ := hdown (Node.isDown_of_power hpower)
  rw [← htime] at hle
  have hcut := Chronicle.cut_of_off hphase (x := q.rounded) hle
  have hkeeps := h.keeps.refused (x := q.rounded) hphase hle seen x.controller.announce.deadline
    x.controller.beacon.deadline
  refine h.carryOut hready rfl (hset.trans h.settings) h.seen_le ?_ ?_ ?_ ?_ ?_
  · intro since hon
    rw [hcut, hphase] at hon
    cases hon
  · intro till' hoff
    rw [hcut, hphase] at hoff
    obtain rfl := Phase.off.inj hoff
    exact ⟨⟨exact, hsame.trans hpower, hceil⟩, htime ▸ hle⟩
  · rw [sentAt_request, sentAt_request, List.append_nil, List.append_nil]
    exact hkeeps
  · rw [hcut]
    exact List.append_nil _
  · rw [hcut]
    simp only [Task.replies, Cut.request, hreply, List.map_append]
    rfl

/-- A request is served at an instant at which no timer is due unless power is off. -/
theorem Abides.serve {q : Cut} (h : Abides s c seen x turns)
    (hs : 0 < s.announcePeriod ∧ 0 < s.beaconPeriod) (hready : x.Ready (.request q.request))
    (htime : q.time = x.clock)
    (hclear : ∀ since, c.phase = .on since →
      x.clock < x.controller.announce.deadline ∧ x.clock < x.controller.beacon.deadline) :
    Abides s (c.cut q.rounded) seen (x.carryOut (.request q.request))
      (turns ++ [⟨x.clock, .request q.request⟩]) := by
  cases hphase : c.phase with
  | on since =>
    obtain ⟨hlate, hlate'⟩ := hclear since hphase
    exact h.granted hs hready htime hphase hlate hlate'
  | off till => exact h.refused hready htime hphase

/-- A periodic timer fires while power is on: what it has sent, and when the tickers are set to,
    has to keep to the chronicle. -/
theorem Abides.periodic {since : Nat} {k : TimerKind} (h : Abides s c seen x turns)
    (hready : x.Ready (.timer k)) (hne : k ≠ .restart) (hphase : c.phase = .on since)
    (hon : Time.Whole (x.controller.rearm k x.clock).announce.deadline ∧
      Time.Whole (x.controller.rearm k x.clock).beacon.deadline ∧
      x.clock ≤ (x.controller.rearm k x.clock).announce.deadline ∧
      x.clock ≤ (x.controller.rearm k x.clock).beacon.deadline)
    (hkeeps : c.Keeps s (x.clock + 1) (x.controller.rearm k x.clock).announce.deadline
      (x.controller.rearm k x.clock).beacon.deadline
      (sentAt .announce x.attempts ++
        sentAt .announce ((x.node.handle k.event x.clock).sends.map (x.clock, ·)))
      (sentAt .beacon x.attempts ++
        sentAt .beacon ((x.node.handle k.event x.clock).sends.map (x.clock, ·)))) :
    Abides s c (x.clock + 1) (x.carryOut (.timer k)) (turns ++ [⟨x.clock, .timer k⟩]) := by
  have hsteady := x.node.steady_handle (TimerKind.event_ne_restartTimer hne) x.clock
  have hset := ((x.node.lawful_handle k.event x.clock).settings).trans h.settings
  refine h.carryOut hready rfl hset (Nat.le_refl _) ?_ ?_ hkeeps ?_ (List.append_nil _)
  · exact fun _ _ => ⟨hsteady.power.trans (h.on since hphase).1, hon⟩
  · intro till hoff
    rw [hphase] at hoff
    cases hoff
  · cases k with
    | restart => exact absurd rfl hne
    | _ => exact List.append_nil _

theorem Abides.announce {since : Nat} (h : Abides s c seen x turns) (hs : s.Exact)
    (hready : x.Ready (.timer .announce)) (hdue : x.controller.announce.due ≤ x.clock)
    (hphase : c.phase = .on since) :
    Abides s c (x.clock + 1) (x.carryOut (.timer .announce))
      (turns ++ [⟨x.clock, .timer .announce⟩]) := by
  obtain ⟨hpower, hwhole, hwhole', hle, hle'⟩ := h.on since hphase
  rw [Ticker.due_of_whole hwhole] at hdue
  have hnow : x.clock = x.controller.announce.deadline := Nat.le_antisymm hle hdue
  have hnext : (x.controller.rearm .announce x.clock).announce.deadline =
      x.controller.announce.deadline + s.announcePeriod := by
    rw [← h.announcePeriod]
    exact Ticker.deadline_tick hle
  have hsends := x.node.sends_timer .announce x.clock
  rw [if_neg (by simp [Node.isDown_eq_false_iff.2 hpower])] at hsends
  have hkeeps := h.keeps.announced hphase (by rw [← hnow]; exact h.seen_le)
  rw [← hnow] at hkeeps
  refine h.periodic hready (by simp) hphase ?_ ?_
  · rw [hnext]
    exact ⟨hwhole.add hs.announcePeriod, hwhole', by omega, hle'⟩
  · rw [hnext, ← hnow, hsends]
    simpa [Message.kind, Controller.rearm] using hkeeps

theorem Abides.beacon {since : Nat} (h : Abides s c seen x turns) (hs : s.Exact)
    (hready : x.Ready (.timer .beacon)) (hdue : x.controller.beacon.due ≤ x.clock)
    (hphase : c.phase = .on since) :
    Abides s c (x.clock + 1) (x.carryOut (.timer .beacon))
      (turns ++ [⟨x.clock, .timer .beacon⟩]) := by
  obtain ⟨hpower, hwhole, hwhole', hle, hle'⟩ := h.on since hphase
  rw [Ticker.due_of_whole hwhole'] at hdue
  have hnow : x.clock = x.controller.beacon.deadline := Nat.le_antisymm hle' hdue
  have hnext : (x.controller.rearm .beacon x.clock).beacon.deadline =
      x.controller.beacon.deadline + s.beaconPeriod := by
    rw [← h.beaconPeriod]
    exact Ticker.deadline_tick hle'
  have hsends := x.node.sends_timer .beacon x.clock
  rw [if_neg (by simp [Node.isDown_eq_false_iff.2 hpower])] at hsends
  have hkeeps := h.keeps.beaconed hphase (by rw [← hnow]; exact h.seen_le)
  rw [← hnow] at hkeeps
  refine h.periodic hready (by simp) hphase ?_ ?_
  · rw [hnext]
    exact ⟨hwhole, hwhole'.add hs.beaconPeriod, hle, by omega⟩
  · rw [hnext, ← hnow, hsends]
    simpa [Message.kind, Controller.rearm] using hkeeps

/-- A periodic timer fires in time while power is on: its message is sent. -/
theorem Abides.beat {since : Nat} {k : TimerKind} (h : Abides s c seen x turns) (hs : s.Exact)
    (hready : x.Ready (.timer k)) (hk : x.controller.due? x.clock = some k) (hne : k ≠ .restart)
    (hphase : c.phase = .on since) :
    Abides s c (x.clock + 1) (x.carryOut (.timer k)) (turns ++ [⟨x.clock, .timer k⟩]) := by
  have hdue := Controller.le_of_due? hk
  cases k with
  | restart => exact absurd rfl hne
  | announce => exact h.announce hs hready hdue hphase
  | beacon => exact h.beacon hs hready hdue hphase

/-- A periodic timer fires while power is off: nothing is sent. -/
theorem Abides.swallow {till : Nat} {k : TimerKind} (h : Abides s c seen x turns)
    (hready : x.Ready (.timer k)) (hne : k ≠ .restart) (hphase : c.phase = .off till) :
    Abides s c seen (x.carryOut (.timer k)) (turns ++ [⟨x.clock, .timer k⟩]) := by
  obtain ⟨⟨exact, hpower, hceil⟩, hle⟩ := h.off till hphase
  have hsteady := x.node.steady_handle (TimerKind.event_ne_restartTimer hne) x.clock
  have hset := ((x.node.lawful_handle k.event x.clock).settings).trans h.settings
  have hsends := x.node.sends_timer k x.clock
  rw [if_pos (Node.isDown_of_power hpower)] at hsends
  refine h.carryOut hready rfl hset h.seen_le ?_ ?_ ?_ ?_ (List.append_nil _)
  · intro since hon
    rw [hphase] at hon
    cases hon
  · intro till' hoff
    rw [hphase] at hoff
    obtain rfl := Phase.off.inj hoff
    exact ⟨⟨exact, hsteady.power.trans hpower, hceil⟩, hle⟩
  · simp only [Task.reaction, hsends, List.map_nil, sentAt_nil, List.append_nil]
    exact h.keeps.idle hphase ..
  · cases k with
    | restart => exact absurd rfl hne
    | _ => exact List.append_nil _

/-- A session without power is to be switched on again when the chronicle says so. -/
theorem Abides.restartDue? {till : Nat} (h : Abides s c seen x turns)
    (hphase : c.phase = .off till) : x.controller.restartDue? = some till := by
  obtain ⟨⟨exact, hpower, hceil⟩, -⟩ := h.off till hphase
  have hdeadline : x.controller.node.restartDeadline? = some exact := by
    have hpower : x.controller.node.power = .down exact := hpower
    unfold Node.restartDeadline?
    rw [hpower]
  rw [Controller.restartDue?, hdeadline, Option.map_some, hceil]

/-- The restart timer fires in time: power comes back, and both tickers are set anew. -/
theorem Abides.restart (h : Abides s c seen x turns) (hs : s.Exact)
    (hready : x.Ready (.timer .restart)) (hk : x.controller.due? x.clock = some .restart) :
    c.phase = .off x.clock ∧
      Abides s (c.restore x.clock) seen (x.carryOut (.timer .restart))
        (turns ++ [⟨x.clock, .timer .restart⟩]) := by
  obtain ⟨t, ht, hdue⟩ := Controller.le_of_due? hk
  cases hphase : c.phase with
  | on since =>
    have hdeadline : x.controller.node.restartDeadline? = none :=
      Node.restartDeadline?_of_up (Node.isDown_eq_false_iff.2 (h.on since hphase).1)
    rw [Controller.restartDue?, hdeadline] at ht
    cases ht
  | off till =>
    obtain ⟨⟨exact, hpower, hceil⟩, hle⟩ := h.off till hphase
    rw [h.restartDue? hphase] at ht
    obtain rfl := Option.some.inj ht
    have hwhole : Time.Whole till := hceil ▸ Time.whole_ceilMillis exact
    obtain rfl : x.clock = till := Nat.le_antisymm hle hdue
    have hup := Node.power_restart (Node.isDown_of_power hpower) x.clock
    have hset := ((x.node.lawful_handle .restartTimer x.clock).settings).trans h.settings
    have hsends := x.node.sends_timer .restart x.clock
    rw [if_pos (Node.isDown_of_power hpower)] at hsends
    have hrearm : x.controller.rearm .restart x.clock =
        { x.controller with
          announce := x.controller.announce.reset (x.clock + s.initialAnnounceDelay)
          beacon := x.controller.beacon.reset (x.clock + s.beaconPeriod) } := by
      rw [← h.settings]
      rfl
    refine ⟨rfl, h.carryOut hready rfl hset h.seen_le ?_ ?_ ?_ rfl (List.append_nil _)⟩
    · intro since _
      simp only [Task.rearm]
      rw [hrearm]
      exact ⟨hup.1, hwhole.add hs.initialAnnounceDelay, hwhole.add hs.beaconPeriod,
        Nat.le_add_right .., Nat.le_add_right ..⟩
    · intro till' hoff
      cases hoff
    · have hkeeps := h.keeps.restored hphase seen
      simp only [Task.rearm, Task.reaction, hsends]
      rw [hrearm]
      simpa [Ticker.reset] using hkeeps

/-- A timer fires in time. -/
theorem Abides.fire {k : TimerKind} (h : Abides s c seen x turns) (hs : s.Exact)
    (hready : x.Ready (.timer k)) (hk : x.controller.due? x.clock = some k) :
    ∃ c' seen', Abides s c' seen' (x.carryOut (.timer k)) (turns ++ [⟨x.clock, .timer k⟩]) ∧
      ∀ limit, x.clock ≤ limit → c'.before (limit + 1) = c.before (limit + 1) := by
  by_cases hrestart : k = .restart
  · subst hrestart
    obtain ⟨hphase, hrestored⟩ := h.restart hs hready hk
    refine ⟨_, _, hrestored, ?_⟩
    intro limit hle
    rw [Chronicle.before_of_on rfl, Chronicle.before_of_lt hphase (Nat.lt_succ_of_le hle)]
  · cases hphase : c.phase with
    | on since => exact ⟨c, _, h.beat hs hready hk hrestart hphase, fun _ _ => rfl⟩
    | off till => exact ⟨c, _, h.swallow hready hrestart hphase, fun _ _ => rfl⟩

/-- Time passes, but not beyond what is due. -/
theorem Abides.wait {t : Nat} (h : Abides s c seen x turns) (hle : x.clock ≤ t)
    (hon : ∀ since, c.phase = .on since →
      t ≤ x.controller.announce.deadline ∧ t ≤ x.controller.beacon.deadline)
    (hoff : ∀ till, c.phase = .off till → t ≤ till) :
    Abides s c seen { x with clock := t } turns where
  running := h.running
  inbox := h.inbox
  inboxOpen := h.inboxOpen
  requestsOpen := h.requestsOpen
  settings := h.settings
  announcePeriod := h.announcePeriod
  beaconPeriod := h.beaconPeriod
  seen_le := Nat.le_trans h.seen_le (Nat.succ_le_succ hle)
  on since hphase :=
    have ⟨hpower, hwhole, hwhole', _, _⟩ := h.on since hphase
    ⟨hpower, hwhole, hwhole', hon since hphase⟩
  off till hphase := ⟨(h.off till hphase).1, hoff till hphase⟩
  keeps := h.keeps
  starts := h.starts
  replies := h.replies

/-- No timer that matters is due before the controller's next deadline. -/
theorem Abides.deadline_le (h : Abides s c seen x turns) :
    (∀ since, c.phase = .on since → x.controller.deadline ≤ x.controller.announce.deadline ∧
      x.controller.deadline ≤ x.controller.beacon.deadline) ∧
    ∀ till, c.phase = .off till → x.controller.deadline ≤ till := by
  obtain ⟨ha, hb, hr⟩ := x.controller.deadline_le
  constructor
  · intro since hphase
    obtain ⟨-, hwhole, hwhole', -, -⟩ := h.on since hphase
    rw [Ticker.due_of_whole hwhole] at ha
    rw [Ticker.due_of_whole hwhole'] at hb
    exact ⟨ha, hb⟩
  · exact fun till hphase => hr till (h.restartDue? hphase)

/-- What was sent before an instant was sent before any later one. -/
theorem Abides.mono (h : Abides s c seen x turns) (hle : seen ≤ seen')
    (hclock : seen' ≤ x.clock + 1) : Abides s c seen' x turns :=
  { h with
    seen_le := hclock
    keeps := h.keeps.wait hle }

/-- A controller that has nothing to do up to `limit` still abides at that instant, and both
    tickers are set to later ones. -/
theorem Abides.rest {limit : Nat} (h : Abides s c seen x turns) (hle : x.clock ≤ limit)
    (hlate : limit < x.controller.deadline) :
    Abides s (c.before (limit + 1)) (limit + 1) { x with clock := limit } turns ∧
      ∀ since, (c.before (limit + 1)).phase = .on since →
        limit < x.controller.announce.deadline ∧ limit < x.controller.beacon.deadline := by
  obtain ⟨hon, hoff⟩ := h.deadline_le
  have hbefore : c.before (limit + 1) = c := by
    cases hphase : c.phase with
    | on since => exact Chronicle.before_of_on hphase _
    | off till => exact Chronicle.before_of_le hphase (Nat.lt_of_lt_of_le hlate (hoff till hphase))
  have hseen : seen ≤ limit + 1 := Nat.le_trans h.seen_le (Nat.succ_le_succ hle)
  rw [hbefore]
  refine ⟨(h.wait hle ?_ ?_).mono hseen (Nat.le_refl _), ?_⟩
  · intro since hphase
    have := hon since hphase
    omega
  · intro till hphase
    have := hoff till hphase
    omega
  · intro since hphase
    have := hon since hphase
    omega

/-- At the start. -/
theorem Abides.start {n : Node} (hn : n.settings = s) (hpower : n.power = .on) (hs : s.Exact)
    (hperiods : 0 < s.announcePeriod ∧ 0 < s.beaconPeriod)
    (hboot : ∀ span ∈ s.bootSpans, span < Time.horizon) (before : List Notice) :
    Abides s {} 0 (start n before) [] := by
  subst hn
  obtain ⟨ha, hb⟩ := hperiods
  have hstarts : canStart n.settings = true := by
    simp only [canStart, ha, hb, decide_true, Bool.true_and, List.all_eq_true, decide_eq_true_eq]
    exact hboot
  have hkeeps := Chronicle.Keeps.start n.settings
  exact
    { running := hstarts
      inbox := rfl
      inboxOpen := hstarts
      requestsOpen := rfl
      settings := rfl
      announcePeriod := Nat.max_eq_right ha
      beaconPeriod := Nat.max_eq_right hb
      seen_le := Nat.zero_le _
      on := by
        intro since _
        simp only [Session.start, Controller.start, Ticker.every, Nat.zero_add]
        exact ⟨hpower, hs.initialAnnounceDelay, hs.beaconPeriod, Nat.zero_le _, Nat.zero_le _⟩
      off := by
        intro till hoff
        cases hoff
      keeps := by
        simpa [Session.start, Controller.start, Ticker.every, attempts, sentAt] using hkeeps
      starts := rfl
      replies := rfl }

end abides

end Session

end TokenMesh
