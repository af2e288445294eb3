import Mathlib.Data.List.Nodup
import TokenMesh.Proofs.Network.Frame
import TokenMesh.Proofs.Network.Pauses
import TokenMesh.Proofs.Network.Plans

namespace TokenMesh

/-!
# The order of events

Runs take events out of the queue by their times, and at one time by their numbers, which say in
what order they were planned.  No event is lost and none is processed twice, whatever is planned
between two runs, and be it for a time that has passed.

* `Scheduled.priority_eq_iff`: the order of priorities is total, and no two events of a queue tie;
* `Network.Numbered`: every number so far belongs to one event that waits or is done;
* `Network.History`: a network with all events that runs have processed;
* `Network.Takes`: a run takes its next event;
* `Network.Orderly`: a history that is in order;
* `Network.queue_discipline`: all histories are, and so are the runs that go on from them.
-/

namespace Scheduled

variable {ε : Type} {a b : Scheduled ε}

/-! ### Priorities -/

/-- What may be handled before something else does not have the lower priority. -/
theorem isLE_priority_iff : (a.priority b).isLE = true ↔ b.isBefore a = true := by
  rw [isBefore_iff, priority, Ordering.isLE_then_iff_or, Nat.compare_eq_lt, Nat.compare_eq_eq,
    Nat.isLE_compare]

/-- Two events tie if and only if they have the same time and the same number. -/
theorem priority_eq_iff : a.priority b = .eq ↔ a.time = b.time ∧ a.seq = b.seq := by
  rw [priority, Ordering.then_eq_eq, Nat.compare_eq_eq, Nat.compare_eq_eq, eq_comm,
    eq_comm (a := b.seq)]

instance : Std.TransCmp (@priority ε) where
  eq_swap {a b} := by
    unfold priority
    rw [Ordering.swap_then, Nat.compare_swap, Nat.compare_swap]
  isLE_trans {a b c} hab hbc := by
    rw [isLE_priority_iff] at *
    exact isBefore_trans hbc hab

end Scheduled

namespace Network

variable {net net' : Network}

/-! ### Numbers -/

/-- The events that wait and those that are done bear all numbers so far, each number once. -/
def Numbered (net : Network) (done : List Nat) : Prop :=
  (net.pending.map (·.seq) ++ done).Perm (List.range net.nextSeq)

section Numbered

variable {done : List Nat}

/-- Each event that is planned gets the next number. -/
theorem Numbered.of_plans {P : Nat → Occurrence → Prop} (hplans : Plans P net net')
    (h : net.Numbered done) : net'.Numbered done := by
  induction hplans with
  | none _ _ hp hn => rwa [Numbered, hp, hn]
  | @one net time e he =>
    have hnew := (pending_schedule net time e).map (·.seq)
    have hnumbers : (List.range (net.nextSeq + 1)).Perm
        (net.nextSeq :: List.range net.nextSeq) := by
      rw [List.range_succ]
      exact List.perm_append_singleton ..
    exact ((hnew.append_right done).trans (.cons _ h)).trans hnumbers.symm
  | trans _ _ ih ih' => exact ih' (ih h)

/-- The event at hand waits no longer, and is done from now on. -/
theorem Numbered.turnTo {e : Scheduled Occurrence} {rest : EventQueue Occurrence}
    (hp : net.queue.pop? = some (e, rest)) (h : net.Numbered done) :
    (net.turnTo e rest).Numbered (e.seq :: done) := by
  have hall := (pending_of_pop? hp).map (·.seq)
  exact List.perm_middle.trans ((hall.append_right done).symm.trans h)

theorem numbered_build (t : Topology) (s : ProtocolSettings) (seed : UInt64) :
    (build t s seed).Numbered [] :=
  build_induction t s seed (fun _ net => net.Numbered []) (.refl _)
    fun k net _ h => h.of_plans (plans_addNode seed net k)

theorem Numbered.nodup (h : net.Numbered done) : (net.pending.map (·.seq) ++ done).Nodup :=
  h.nodup_iff.2 List.nodup_range

theorem Numbered.nodup_pending (h : net.Numbered done) : (net.pending.map (·.seq)).Nodup :=
  h.nodup.of_append_left

/-- No number is used again. -/
theorem Numbered.notMem (h : net.Numbered done) {x : Scheduled Occurrence}
    (hx : x ∈ net.pending) : x.seq ∉ done := fun hdone =>
  (List.nodup_append.1 h.nodup).2.2 x.seq (List.mem_map_of_mem hx) x.seq hdone rfl

theorem Numbered.lt (h : net.Numbered done) {x : Scheduled Occurrence} (hx : x ∈ net.pending) :
    x.seq < net.nextSeq :=
  List.mem_range.1 (h.mem_iff.1 (List.mem_append_left _ (List.mem_map_of_mem hx)))

end Numbered

/-! ### The next event -/

/-- A run up to `limit` takes an event out of the queue and processes it. -/
structure Takes (limit : Nat) (net : Network) (e : Scheduled Occurrence) (net' : Network) :
    Prop where
  waits : e ∈ net.pending
  due : e.time ≤ limit
  /-- No other event has an earlier time, or a lower number at the same time. -/
  least : ∀ x ∈ net.pending, x ≠ e → e.time < x.time ∨ (e.time = x.time ∧ e.seq < x.seq)
  /-- No event has a higher priority. -/
  greatest : ∀ x ∈ net.pending, (x.priority e).isLE = true
  /-- The clock shows the time of the event, or a later one that it already shows, before and after
      the event is processed. -/
  processed : ∃ rest done, net.queue.pop? = some (e, rest) ∧
    (net.turnTo e rest).clock = max net.clock e.time ∧
    (net.turnTo e rest).process e.event = .ok done ∧ net' = done.watch ∧
    net'.clock = max net.clock e.time
  kept : ∀ x ∈ net.pending, x ≠ e → x ∈ net'.pending
  gone : ∀ x ∈ net'.pending, x.seq ≠ e.seq

/-- Whenever a run goes on, it takes an event, which is done from then on. -/
theorem takes_of_next {done : List Nat} (hnum : net.Numbered done) {limit : Nat}
    (hn : net.next limit = .moved net') :
    ∃ e, net.Takes limit e net' ∧ net'.Numbered (e.seq :: done) := by
  obtain ⟨e, rest, net₁, hp, hle, hpr, rfl⟩ := exists_process_of_next hn
  have hext := extends_effect (effect_of_process hpr)
  have hnum' : net₁.watch.Numbered (e.seq :: done) := by
    have hplans := plans_effect (effect_of_process hpr)
    exact (hnum.turnTo hp).of_plans (hplans.trans (.watch net₁))
  have hclock : net₁.watch.clock = max net.clock e.time := (clock_watch net₁).trans hext.clock
  have hwaits : e ∈ net.pending := (pending_of_pop? hp).mem_iff.2 List.mem_cons_self
  refine ⟨e, ⟨hwaits, hle, ?_, ?_, ⟨rest, net₁, hp, rfl, hpr, rfl, hclock⟩, ?_, ?_⟩, hnum'⟩
  · intro x hx hne
    have hseq : e.seq ≠ x.seq := fun h =>
      hne (List.inj_on_of_nodup_map hnum.nodup_pending hwaits hx h).symm
    have hbefore := Scheduled.isBefore_iff.1 (isBefore_of_pop? hp hx)
    omega
  · exact fun x hx => Scheduled.isLE_priority_iff.2 (isBefore_of_pop? hp hx)
  · intro x hx hne
    rw [pending_watch]
    refine hext.kept x ?_
    exact (List.mem_cons.1 ((pending_of_pop? hp).mem_iff.1 hx)).resolve_left hne
  · intro x hx heq
    exact hnum'.notMem hx (heq ▸ List.mem_cons_self)

/-- The clock never goes back. -/
theorem clock_le_of_step (hs : Step net net') : net.clock ≤ net'.clock := by
  cases hs with
  | plan time a => exact Nat.le_refl _
  | setRole i role => exact Nat.le_of_eq (extends_effect (effect_setRole net i role)).clock.symm
  | withFailures f =>
    unfold withFailures
    split <;> exact Nat.le_refl _
  | event limit hn =>
    obtain ⟨e, rest, net₁, _, _, he, rfl⟩ := exists_effect_of_next hn
    rw [clock_watch, (extends_effect he).clock]
    exact Nat.le_max_left ..
  | rest limit hn => exact Nat.le_max_left ..

/-! ### Histories -/

/-- An event that a run up to `limit` has processed. -/
structure Processed where
  event : Scheduled Occurrence
  limit : Nat
  /-- What the clock showed before the event. -/
  before : Nat
  /-- What the clock showed after it. -/
  after : Nat

/-- What has come of a network, and all events that were processed on the way, the latest first. -/
inductive History (start : Network) : List Processed → Network → Prop
  | start : History start [] start
  | outside {log : List Processed} {net net' : Network} (h : History start log net)
      (ho : Outside net net') : History start log net'
  | rest {log : List Processed} {net : Network} {limit : Nat} (h : History start log net)
      (hn : net.next limit = .resting net) : History start log (net.advanceTo limit)
  | event {log : List Processed} {net net' : Network} {e : Scheduled Occurrence} {limit : Nat}
      (h : History start log net) (hn : net.next limit = .moved net')
      (hp : net.queue.peek? = some e) :
      History start (⟨e, limit, net.clock, net'.clock⟩ :: log) net'

/-- All that was processed was processed in order. -/
structure Orderly (net : Network) (log : List Processed) : Prop where
  /-- Every number so far belongs to one event, which waits or has been processed. -/
  numbered : net.Numbered (log.map (·.event.seq))
  distinct : (net.pending.map (·.seq)).Nodup
  below : ∀ x ∈ net.pending, x.seq < net.nextSeq
  once : (log.map (·.event.seq)).Nodup
  due : ∀ p ∈ log, p.event.time ≤ p.limit
  clock : ∀ p ∈ log, p.after = max p.before p.event.time ∧ p.after ≤ net.clock
  forward : log.Pairwise fun later earlier => earlier.after ≤ later.before

theorem Orderly.of_numbered {log : List Processed} (hnum : net.Numbered (log.map (·.event.seq)))
    (due : ∀ p ∈ log, p.event.time ≤ p.limit)
    (clock : ∀ p ∈ log, p.after = max p.before p.event.time ∧ p.after ≤ net.clock)
    (forward : log.Pairwise fun later earlier => earlier.after ≤ later.before) :
    net.Orderly log where
  numbered := hnum
  distinct := hnum.nodup_pending
  below _ hx := hnum.lt hx
  once := hnum.nodup.of_append_right
  due := due
  clock := clock
  forward := forward

/-- Whatever is done with a network that has been built, its events are processed in order. -/
theorem orderly_of_history {t : Topology} {s : ProtocolSettings} {seed : UInt64}
    {log : List Processed} (h : History (build t s seed) log net) : net.Orderly log := by
  induction h with
  | start => exact .of_numbered (numbered_build t s seed) (by simp) (by simp) .nil
  | outside _ ho ih =>
    refine .of_numbered (ih.numbered.of_plans (plans_outside ho)) ih.due ?_ ih.forward
    intro p hp
    obtain ⟨hafter, hle⟩ := ih.clock p hp
    exact ⟨hafter, Nat.le_trans hle (clock_le_of_step ho.step)⟩
  | rest _ hn ih =>
    refine .of_numbered ih.numbered ih.due ?_ ih.forward
    intro p hp
    obtain ⟨hafter, hle⟩ := ih.clock p hp
    exact ⟨hafter, Nat.le_trans hle (Nat.le_max_left ..)⟩
  | @event log net net' e limit _ hn hp ih =>
    obtain ⟨e', htakes, hnum⟩ := takes_of_next ih.numbered hn
    obtain ⟨rest, done, hp', _, _, _, hclock⟩ := htakes.processed
    -- the event that the log names is the one that the run has taken
    obtain rfl : e' = e := by
      rw [EventQueue.peek?_eq, hp'] at hp
      exact Option.some.inj hp
    refine .of_numbered hnum ?_ ?_ (List.pairwise_cons.2 ⟨?_, ih.forward⟩)
    · exact List.forall_mem_cons.2 ⟨htakes.due, ih.due⟩
    · refine List.forall_mem_cons.2 ⟨⟨hclock, Nat.le_refl _⟩, ?_⟩
      intro p hp
      obtain ⟨hafter, hle⟩ := ih.clock p hp
      exact ⟨hafter, Nat.le_trans hle (hclock ▸ Nat.le_max_left ..)⟩
    · exact fun p hp => (ih.clock p hp).2

/-- The history of a run that comes to its end goes on from the one before it. -/
theorem History.returns {start : Network} {log : List Processed} {limit : Nat} {said : Summary}
    (h : History start log net) (hr : net.Returns limit net' said) :
    ∃ new, History start (new ++ log) net' ∧ ∀ p ∈ new, p.limit = limit := by
  suffices hall : ∀ log, History start log net →
      ∃ new, History start (new ++ log) net' ∧ ∀ p ∈ new, p.limit = limit from hall log h
  refine hr.induction_next ?_ ?_
  · rintro net hn rfl log h
    exact ⟨[], h.rest hn, by simp⟩
  · intro net mid hn _ ih log h
    obtain ⟨e, rest, _, hp, _⟩ := exists_process_of_next hn
    have hpeek : net.queue.peek? = some e := by rw [EventQueue.peek?_eq, hp]; rfl
    obtain ⟨new, hnew, hlimit⟩ := ih _ (h.event hn hpeek)
    refine ⟨new ++ [⟨e, limit, net.clock, mid.clock⟩], ?_, ?_⟩
    · rwa [List.append_assoc]
    · intro p hp
      rcases List.mem_append.1 hp with hp | hp
      · exact hlimit p hp
      · rw [List.mem_singleton.1 hp]

/-- **The queue is kept in order.**  Whatever is planned and set between runs, and be it for a time
    that has passed: the numbers of the events that wait are distinct and below the next one, and
    every event is processed once at most, by a run up to its time or later, while the clock shows
    its time or a later one that it has already shown.  Runs take the least event by time and
    number and lose no other, no step turns the clock back, and a run that comes to its end leaves
    nothing to do up to its limit and the clock at its limit or later.  The order of priorities is
    a total order, in which only events with the same time and number tie. -/
theorem queue_discipline {t : Topology} {s : ProtocolSettings} {seed : UInt64}
    {log : List Processed} (h : History (build t s seed) log net) :
    net.Orderly log ∧
    (∀ limit net', net.next limit = .moved net' → ∃ e, net.Takes limit e net') ∧
    (∀ net', Step net net' → net.clock ≤ net'.clock) ∧
    (∀ limit net' said, net.Returns limit net' said →
      (∃ new, History (build t s seed) (new ++ log) net' ∧ ∀ p ∈ new, p.limit = limit) ∧
        (∀ x ∈ net'.pending, limit < x.time) ∧ limit ≤ net'.clock) ∧
    Std.TransCmp (@Scheduled.priority Occurrence) ∧
    ∀ a b : Scheduled Occurrence, a.priority b = .eq ↔ a.time = b.time ∧ a.seq = b.seq := by
  have horderly := orderly_of_history h
  refine ⟨horderly, ?_, fun _ => clock_le_of_step, ?_, inferInstance, ?_⟩
  · intro limit net' hn
    obtain ⟨e, htakes, _⟩ := takes_of_next horderly.numbered hn
    exact ⟨e, htakes⟩
  · exact fun limit net' said hr => ⟨h.returns hr, hr.late⟩
  · exact fun a b => Scheduled.priority_eq_iff

/-- Three seconds into an experiment a crash is planned for a time that has passed.  A run up to the
    present processes it, and the clock stands still. -/
theorem queue_discipline_pair : ∃ mid net log, History (build (.build .line 2) {} 7) log net ∧
    pair.Returns (Time.ofSecs 3) mid mid.summary ∧
    (mid.plan (Time.ofSecs 1) (.crash 0 (Time.ofSecs 2))).Returns (Time.ofSecs 3) net net.summary ∧
    mid.clock = Time.ofSecs 3 ∧ net.clock = Time.ofSecs 3 ∧
    (net.node? 0).map (·.isDown) = some true ∧
    net.Orderly log := by
  obtain ⟨mid, hmid, hp⟩ := exists_of_endsWith
    (p := fun mid => mid.clock = Time.ofSecs 3 ∧
      (mid.plan (Time.ofSecs 1) (.crash 0 (Time.ofSecs 2))).endsWith (Time.ofSecs 3) 100
        fun net => net.clock = Time.ofSecs 3 ∧ (net.node? 0).map (·.isDown) = some true)
    (by decide +kernel : pair.endsWith (Time.ofSecs 3) 100 _ = true)
  obtain ⟨hclock, hlate⟩ := of_decide_eq_true hp
  obtain ⟨net, hnet, hp⟩ := exists_of_endsWith hlate
  obtain ⟨hstill, hdown⟩ := of_decide_eq_true hp
  have hfirst : pair.Returns (Time.ofSecs 3) mid mid.summary := ⟨⟨100, hmid⟩, rfl⟩
  have hsecond : (mid.plan (Time.ofSecs 1) (.crash 0 (Time.ofSecs 2))).Returns (Time.ofSecs 3) net
      net.summary := ⟨⟨100, hnet⟩, rfl⟩
  have hpair : History (build (.build .line 2) {} 7) [] pair :=
    (History.start.outside (.setRole ..)).outside (.plan ..)
  obtain ⟨log, hlog, _⟩ := hpair.returns hfirst
  obtain ⟨new, hnew, _⟩ := (hlog.outside (.plan ..)).returns hsecond
  exact ⟨mid, net, _, hnew, hfirst, hsecond, hclock, hstill, hdown, (queue_discipline hnew).1⟩

end Network

end TokenMesh
