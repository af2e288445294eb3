import TokenMesh.Proofs.Controller.Keeping

namespace TokenMesh

/-!
# The schedule of a controller

A controller to which power cuts are requested, and that always takes its turns in time, keeps to
the chronicle of the cuts, each of them put off to end at a whole millisecond.

* `Session.attend`: the moves of a session to which cuts are requested;
* `Session.Faces`: a session in front of which requests for cuts wait;
* `Session.Faces.movesUntil`, `Session.Faces.attend`: it keeps to the chronicle that it has kept to
  so far;
* `Session.attend_eq`: it does so from the start.
-/

namespace Session

/-! ### What is requested -/

/-- The moves from now to an instant, with all turns before that instant and none at it. -/
def movesBefore (time : Nat) (s : Session) : List Move :=
  if s.clock < time then s.movesUntil (time - 1) ++ [.pass 1] else []

/-- The moves of a session up to `stop`, if cuts are requested in this order. -/
def attend (stop : Nat) : List Cut → Session → List Move
  | [], s => s.movesUntil stop
  | x :: xs, s =>
    let ms := s.movesBefore x.time ++ [.request x.request]
    ms ++ attend stop xs (s.after ms)

/-! ### Requests that wait -/

section faces

variable {s : ProtocolSettings} {c : Chronicle} {seen : Nat} {x : Session} {turns : List Turn}

/-- A session that abides, and in front of which requests for some cuts wait.  They were made at
    this instant.  Unless power is off, no ticker is due by now, and clocks can show the end of the
    cut that is granted. -/
structure Faces (s : ProtocolSettings) (c : Chronicle) (seen : Nat) (x : Session)
    (turns : List Turn) (queue : List Cut) : Prop where
  abides : Abides s c seen x turns
  requests : x.requests = queue.map Cut.request
  now : ∀ q ∈ queue, q.time = x.clock
  clear : queue ≠ [] → ∀ since, c.phase = .on since →
    x.clock < x.controller.announce.deadline ∧ x.clock < x.controller.beacon.deadline
  granted : ∀ q ∈ queue.head?, ∀ since, c.phase = .on since → q.time + q.length < Time.horizon

/-- Clocks can show what comes of the first request that waits. -/
theorem Faces.inTime_request {q : Cut} {qs : List Cut} (h : Faces s c seen x turns (q :: qs)) :
    x.inTime (.request q.request) = true := by
  cases hphase : c.phase with
  | on since =>
    have hend := h.granted q rfl since hphase
    rw [h.now q List.mem_cons_self] at hend
    exact Node.inTime_powerDown hend
  | off till =>
    obtain ⟨⟨exact, hpower, -⟩, -⟩ := h.abides.off till hphase
    exact Node.inTime_powerDown_of_down (Node.isDown_of_power hpower) _ _

/-- Where the controller does not turn to a request, none waits. -/
theorem Faces.eq_nil {queue : List Cut} (h : Faces s c seen x turns queue)
    (ht : ∀ r, x.task? ≠ some (.request r)) : queue = [] := by
  have hidle := h.abides
  cases queue with
  | nil => rfl
  | cons q qs =>
    have hready : x.Ready (.request q.request) :=
      .inTime (.request hidle.running hidle.inbox hidle.inboxOpen h.requests) h.inTime_request
    exact absurd (task?_of_ready hready) (ht _)

/-- Clocks can show all instants that come next. -/
theorem Faces.inTime {queue : List Cut} (h : Faces s c seen x turns queue)
    (hboot : ∀ span ∈ s.bootSpans, x.clock + span < Time.horizon) {t : Task} (hw : x.Wants t) :
    x.inTime t = true := by
  cases hw with
  | datagram hr hi => rw [h.abides.inbox] at hi; cases hi
  | @request r rest hr hi ho hq =>
    cases queue with
    | nil => rw [h.requests] at hq; cases hq
    | cons q qs =>
      obtain ⟨rfl, rfl⟩ := List.cons.inj (h.requests.symm.trans hq)
      exact h.inTime_request
  | @timer k hr hi ho hq hl hk =>
    cases k with
    | restart =>
      rw [← h.abides.settings] at hboot
      simpa [Session.inTime] using hboot
    | _ => rfl
  | finish hr hi ho => rfl
  | hangUp hr hi ho hq hl hc => rfl

/-- Without requests, what counts is that the session abides. -/
theorem Abides.faces (h : Abides s c seen x turns) (hr : x.requests = []) :
    Faces s c seen x turns [] :=
  ⟨h, hr, by simp, by simp, by simp⟩

/-- One turn: what waits in front of the controller is less, and the rest of the chronicle is as it
    would have been. -/
theorem Faces.turn {t : Task} {queue : List Cut} (h : Faces s c seen x turns queue) (hs : s.Exact)
    (hperiods : 0 < s.announcePeriod ∧ 0 < s.beaconPeriod)
    (hboot : ∀ span ∈ s.bootSpans, x.clock + span < Time.horizon) (ht : x.task? = some t) :
    ∃ c' seen' queue', Faces s c' seen' (x.carryOut t) (turns ++ [⟨x.clock, t⟩]) queue' ∧
      (x.carryOut t).clock = x.clock ∧ ∀ limit, x.clock ≤ limit →
        ((queue'.map Cut.rounded).foldl Chronicle.cut c').before (limit + 1) =
          ((queue.map Cut.rounded).foldl Chronicle.cut c).before (limit + 1) := by
  have habides := h.abides
  have hready := ready_of_task? ht
  obtain ⟨log, hlog⟩ := carryOut_eq hready
  have hclock : (x.carryOut t).clock = x.clock := by rw [hlog]
  have hrequests : (x.carryOut t).requests = x.requests.drop t.requests.length := by rw [hlog]
  cases hready with
  | breakOff hw hlate => rw [h.inTime hboot hw] at hlate; cases hlate
  | inTime hw htime =>
    cases hw with
    | datagram hr hi => rw [habides.inbox] at hi; cases hi
    | finish hr hi ho => rw [habides.inboxOpen] at ho; cases ho
    | hangUp hr hi ho hq hl hc => rw [habides.requestsOpen] at hc; cases hc
    | @request r rest hr hi ho hq =>
      cases queue with
      | nil => rw [h.requests] at hq; cases hq
      | cons q qs =>
        obtain ⟨rfl, rfl⟩ := List.cons.inj (h.requests.symm.trans hq)
        have hserved := habides.serve hperiods (.inTime (.request hr hi ho hq) htime)
          (h.now q List.mem_cons_self) (h.clear (by simp))
        -- power is off by now
        have hdown : ∀ since, (c.cut q.rounded).phase ≠ .on since := by
          intro since hon
          obtain ⟨till, hoff, _⟩ := c.exists_off_of_cut q.rounded
          rw [hoff] at hon
          cases hon
        refine ⟨_, _, qs, ⟨hserved, ?_, ?_, ?_, ?_⟩, hclock, fun _ _ => rfl⟩
        · rw [hrequests, h.requests]
          rfl
        · rw [hclock]
          exact fun q' hq' => h.now q' (List.mem_cons_of_mem _ hq')
        · exact fun _ since hon => absurd hon (hdown since)
        · exact fun _ _ since hon => absurd hon (hdown since)
    | @timer k hr hi ho hq hl hk =>
      obtain rfl := h.eq_nil (by rw [ht]; simp)
      obtain ⟨c', seen', hfired, hbefore⟩ :=
        habides.fire hs (.inTime (.timer hr hi ho hq hl hk) htime) hk
      exact ⟨c', seen', [], hfired.faces (by rw [hrequests, hq]; rfl), hclock, hbefore⟩

/-- **A run keeps to the chronicle.**  The controller serves what waits in front of it and then
    takes all turns up to `limit` in time. -/
theorem Faces.movesUntil {limit : Nat} {queue : List Cut} (h : Faces s c seen x turns queue)
    (hs : s.Exact) (hperiods : 0 < s.announcePeriod ∧ 0 < s.beaconPeriod)
    (hboot : ∀ span ∈ s.bootSpans, limit + span < Time.horizon) (hle : x.clock ≤ limit) :
    let c' := ((queue.map Cut.rounded).foldl Chronicle.cut c).before (limit + 1)
    let y := x.after (x.movesUntil limit)
    Faces s c' (limit + 1) y (turns ++ x.turns (x.movesUntil limit)) [] ∧ y.clock = limit ∧
      ∀ since, c'.phase = .on since →
        limit < y.controller.announce.deadline ∧ limit < y.controller.beacon.deadline := by
  -- the induction is on the turns and the moves of the clock
  induction x using runUntil.induct limit generalizing c seen turns queue with
  | case2 x hrest =>
    have hturn : x.turn? = none := by
      cases ht : x.turn? with
      | none => rfl
      | some y => rw [next?, ht] at hrest; cases hrest
    have htask : x.task? = none := Option.map_eq_none_iff.1 hturn
    obtain rfl := h.eq_nil (by rw [htask]; simp)
    have hlate : limit < x.controller.deadline := by
      rw [next?, hturn] at hrest
      simpa [h.abides.running] using hrest
    have hclock : x.clock + (limit - x.clock) = limit := by omega
    obtain ⟨hrested, hbeats⟩ := h.abides.rest hle hlate
    rw [movesUntil_of_rest hrest]
    simp only [after_cons, after_nil, move, turns_cons, turns_nil, takenBy, hclock,
      List.append_nil, List.map_nil, List.foldl_nil]
    exact ⟨hrested.faces h.requests, trivial, hbeats⟩
  | case1 x y hnext ih =>
    cases ht : x.task? with
    | none =>
      obtain rfl := h.eq_nil (by rw [ht]; simp)
      have hturn : x.turn? = none := by rw [turn?, ht]; rfl
      have hrun := h.abides.running
      have hlt := Controller.lt_deadline_of_due?_eq_none (due?_eq_none_of_turn? hturn hrun)
      have hmax : max x.clock x.controller.deadline = x.controller.deadline := by omega
      have hclock : x.clock + (x.controller.deadline - x.clock) = x.controller.deadline := by omega
      have hdeadline : x.controller.deadline ≤ limit ∧
          ({ x with clock := max x.clock x.controller.deadline } : Session) = y := by
        simpa [next?, hturn, hrun] using hnext
      obtain ⟨hdeadline, rfl⟩ := hdeadline
      obtain ⟨hon, hoff⟩ := h.abides.deadline_le
      have hwaited := (h.abides.wait (Nat.le_of_lt hlt) hon hoff).faces h.requests
      rw [movesUntil_of_idle ht hrun hdeadline]
      rw [hmax] at ih ⊢
      simp only [after_cons, move, turns_cons, takenBy, List.nil_append, hclock]
      exact ih hwaited hdeadline
    | some t =>
      obtain rfl : x.carryOut t = y := by simpa [next?, turn?, ht] using hnext
      have hboot' : ∀ span ∈ s.bootSpans, x.clock + span < Time.horizon := fun span hspan =>
        Nat.lt_of_le_of_lt (Nat.add_le_add_right hle span) (hboot span hspan)
      obtain ⟨c', seen', queue', hfaces, hclock, hbefore⟩ := h.turn hs hperiods hboot' ht
      have hlater := ih hfaces (by rwa [hclock])
      rw [hbefore limit hle] at hlater
      rw [movesUntil_of_task? ht]
      simpa only [after_cons, turns_cons, move_turn_of_task? ht, takenBy_of_task? ht,
        ← List.append_assoc] using hlater

/-- Up to an instant, with all that is due before it and nothing that is due then. -/
theorem Faces.movesBefore {time : Nat} {queue : List Cut} (h : Faces s c seen x turns queue)
    (hs : s.Exact) (hperiods : 0 < s.announcePeriod ∧ 0 < s.beaconPeriod)
    (hboot : ∀ span ∈ s.bootSpans, time + span < Time.horizon) (hlt : x.clock < time) :
    let y := x.after (x.movesBefore time)
    Faces s (((queue.map Cut.rounded).foldl Chronicle.cut c).before time) time y
        (turns ++ x.turns (x.movesBefore time)) [] ∧
      y.clock = time := by
  have hboot' : ∀ span ∈ s.bootSpans, time - 1 + span < Time.horizon := by
    intro span hspan
    have := hboot span hspan
    omega
  obtain ⟨hfaces, hclock, hlate⟩ := h.movesUntil hs hperiods hboot' (Nat.le_sub_one_of_lt hlt)
  have htime : time - 1 + 1 = time := by omega
  rw [htime] at hfaces hlate
  have hpass : x.after (x.movesBefore time) =
      { x.after (x.movesUntil (time - 1)) with clock := time } := by
    rw [Session.movesBefore, if_pos hlt, after_append]
    simp only [after_cons, after_nil, move, hclock, htime]
  have hturns : x.turns (x.movesBefore time) = x.turns (x.movesUntil (time - 1)) := by
    rw [Session.movesBefore, if_pos hlt, turns_append]
    simp [takenBy]
  refine ⟨?_, by rw [hpass]⟩
  rw [hpass, hturns]
  refine (hfaces.abides.wait (by omega) ?_ ?_).faces hfaces.requests
  · intro since hon
    have := hlate since hon
    omega
  · exact fun till hoff => Chronicle.le_of_before_off hoff

/-- A request for a cut is made at an instant at which no timer beats. -/
theorem Faces.ask {q : Cut} {qs queue : List Cut} (h : Faces s c seen x turns queue)
    (hperiods : 0 < s.announcePeriod ∧ 0 < s.beaconPeriod) (htime : x.clock = q.time)
    (hclear : ((queue.map Cut.rounded).foldl Chronicle.cut c).Clear s
      ((q :: qs).map Cut.rounded)) :
    Faces s c seen (x.ask q.request) turns (queue ++ [q]) := by
  have hlate : ∀ since, c.phase = .on since →
      x.clock < x.controller.announce.deadline ∧ x.clock < x.controller.beacon.deadline := by
    intro since hphase
    cases queue with
    | nil =>
      obtain ⟨hne, hne'⟩ := h.abides.keeps.ne_of_clear hperiods hphase hclear
      obtain ⟨-, -, -, hle, hle'⟩ := h.abides.on since hphase
      rw [Cut.time_rounded] at hne hne'
      omega
    | cons => exact h.clear (by simp) since hphase
  have hask : x.ask q.request = { x with requests := x.requests ++ [q.request] } := by
    rw [Session.ask, h.abides.running, h.abides.requestsOpen]
    rfl
  rw [hask]
  refine ⟨{ h.abides with }, by simp [h.requests], ?_, fun _ => hlate, ?_⟩
  · intro q' hq'
    rcases List.mem_append.1 hq' with hq' | hq'
    · exact h.now q' hq'
    · obtain rfl := List.mem_singleton.1 hq'
      exact htime.symm
  · cases queue with
    | nil =>
      rintro q' hq' since hphase
      obtain rfl := Option.some.inj hq'
      exact Nat.lt_of_le_of_lt q.end_le_rounded (Chronicle.Clear.end_lt hclear hphase)
    | cons => exact h.granted

/-- All that is due before the instant of a cut happens, and then the cut is requested. -/
theorem Faces.request {q : Cut} {qs queue : List Cut} (h : Faces s c seen x turns queue)
    (hs : s.Exact) (hperiods : 0 < s.announcePeriod ∧ 0 < s.beaconPeriod)
    (hboot : ∀ span ∈ s.bootSpans, q.time + span < Time.horizon) (hle : x.clock ≤ q.time)
    (hclear : ((queue.map Cut.rounded).foldl Chronicle.cut c).Clear s
      ((q :: qs).map Cut.rounded)) :
    let ms := x.movesBefore q.time ++ [.request q.request]
    ∃ c' seen' queue', Faces s c' seen' (x.after ms) (turns ++ x.turns ms) queue' ∧
      (x.after ms).clock = q.time ∧
      (queue'.map Cut.rounded).foldl Chronicle.cut c' =
        ((queue.map Cut.rounded).foldl Chronicle.cut c).cut q.rounded := by
  -- the session at that instant, and the chronicle that it has kept to
  obtain ⟨c₁, seen₁, queue₁, hreached, hclock, hsame⟩ :
      ∃ c₁ seen₁ queue₁, Faces s c₁ seen₁ (x.after (x.movesBefore q.time))
        (turns ++ x.turns (x.movesBefore q.time)) queue₁ ∧
        (x.after (x.movesBefore q.time)).clock = q.time ∧
        ((queue₁.map Cut.rounded).foldl Chronicle.cut c₁).before q.time =
          ((queue.map Cut.rounded).foldl Chronicle.cut c).before q.time := by
    rcases Nat.lt_or_eq_of_le hle with hlt | heq
    · obtain ⟨hreached, hclock⟩ := h.movesBefore hs hperiods hboot hlt
      exact ⟨_, _, _, hreached, hclock, Chronicle.before_before (Nat.le_refl _)⟩
    · have hnone : x.movesBefore q.time = [] := by
        rw [Session.movesBefore, if_neg (Nat.not_lt.2 (Nat.le_of_eq heq.symm))]
      refine ⟨c, seen, queue, ?_, by rw [hnone]; exact heq, rfl⟩
      rwa [hnone, after_nil, turns_nil, List.append_nil]
  have hcut : ((queue₁ ++ [q]).map Cut.rounded).foldl Chronicle.cut c₁ =
      ((queue.map Cut.rounded).foldl Chronicle.cut c).cut q.rounded := by
    have hnow : q.time ≤ q.rounded.time := Nat.le_refl _
    rw [List.map_append, List.foldl_append, List.map_singleton, List.foldl_cons, List.foldl_nil,
      ← Chronicle.cut_before hnow, hsame, Chronicle.cut_before hnow]
  have hturns : x.turns (x.movesBefore q.time ++ [.request q.request]) =
      x.turns (x.movesBefore q.time) := by
    rw [turns_append]
    simp [takenBy]
  refine ⟨c₁, seen₁, queue₁ ++ [q], ?_, ?_, hcut⟩
  · rw [hturns, after_append]
    exact hreached.ask hperiods hclock (Chronicle.Clear.congr hclear hsame)
  · rw [after_append, after_cons, after_nil, move, Session.ask]
    split <;> exact hclock

/-- **A controller keeps to the chronicle.**  Cuts are requested one after the other, each where no
    timer beats. -/
theorem Faces.attend {stop : Nat} {cuts queue : List Cut} (h : Faces s c seen x turns queue)
    (hs : s.Exact) (hperiods : 0 < s.announcePeriod ∧ 0 < s.beaconPeriod)
    (hboot : ∀ span ∈ s.bootSpans, stop + span < Time.horizon) (hle : x.clock ≤ stop)
    (hsorted : cuts.Pairwise (·.time ≤ ·.time))
    (hcuts : ∀ q ∈ cuts, x.clock ≤ q.time ∧ q.time ≤ stop)
    (hclear : ((queue.map Cut.rounded).foldl Chronicle.cut c).Clear s (cuts.map Cut.rounded)) :
    let c' := ((cuts.map Cut.rounded).foldl Chronicle.cut
      ((queue.map Cut.rounded).foldl Chronicle.cut c)).before (stop + 1)
    let y := x.after (attend stop cuts x)
    Faces s c' (stop + 1) y (turns ++ x.turns (attend stop cuts x)) [] ∧
      ∀ since, c'.phase = .on since →
        stop < y.controller.announce.deadline ∧ stop < y.controller.beacon.deadline := by
  induction cuts generalizing c seen x turns queue with
  | nil =>
    obtain ⟨hfaces, -, hlate⟩ := h.movesUntil hs hperiods hboot hle
    exact ⟨hfaces, hlate⟩
  | cons q qs ih =>
    obtain ⟨hnow, hstop⟩ := hcuts q List.mem_cons_self
    obtain ⟨hfirst, hsorted⟩ := List.pairwise_cons.1 hsorted
    have hboot' : ∀ span ∈ s.bootSpans, q.time + span < Time.horizon := fun span hspan =>
      Nat.lt_of_le_of_lt (Nat.add_le_add_right hstop span) (hboot span hspan)
    obtain ⟨c₁, seen₁, queue₁, hfaces, hclock, hcut⟩ :=
      h.request hs hperiods hboot' hnow hclear
    simp only [List.map_cons, List.foldl_cons, Session.attend, after_append _ (_ ++ _),
      turns_append _ (_ ++ _), ← List.append_assoc]
    generalize x.after (x.movesBefore q.time ++ [.request q.request]) = y at *
    have hlater : ∀ r ∈ qs, y.clock ≤ r.time ∧ r.time ≤ stop :=
      fun r hr => ⟨hclock ▸ hfirst r hr, (hcuts r (List.mem_cons_of_mem _ hr)).2⟩
    have hlast := ih hfaces (hclock ▸ hstop) hsorted hlater (hcut ▸ hclear.2.2)
    rwa [hcut] at hlast

end faces

end Session

end TokenMesh
