import TokenMesh.Proofs.Network.Plans
import TokenMesh.Proofs.Network.Victim
import TokenMesh.Proofs.Random
import TokenMesh.Proofs.Topology.Shape

namespace TokenMesh

/-!
# Nothing fails but the clock

Nodes are looked up by the indices that events, links and choices carry.  As long as no link leads
out of the network, all of them belong to nodes that are there, and nothing is chosen from an empty
list.  All that can keep an event from being processed is that clocks cannot show an instant.

* `Network.InTime`: clocks can show all instants that an event reckons with;
* `Network.Settles`: a computation has a result, or comes to an instant that clocks cannot show;
* `Network.settles_process`: an event settles if its node is there;
* `Network.housed_of_run`: all events that wait are for nodes that are there;
* `Network.act_stray`: an action on a node that is not there only leaves a report;
* `Network.Intact`: whatever is looked up in a network is there;
* `Network.only_clocks_fail`: whatever is planned, runs fail for no other reason.
-/

/-- The node that an action is about. -/
def Action.index? : Action → Option Nat
  | originate i _ | crash i _ | setRole i _ => some i
  | setLossRate _ => none

namespace Network

variable {net net' : Network}

/-- What is sent over a link now arrives within the longest span from the start. -/
def CarriesInTime (net : Network) : Prop :=
  ∀ i j, net.topology.isLinked i j = true → net.clock + net.topology.delay < Time.spanLimit

/-- Clocks can show all instants that an event reckons with: the present, the end of a neighbor's
    lease, the arrival of what is sent, the timers that are set again, the next failure tick, and
    the end of a crash. -/
def InTime (net : Network) : Occurrence → Prop
  | .deliver i _ _ => net.clock < Time.horizon ∧ net.CarriesInTime ∧
      ∀ n, net.node? i = some n → net.clock + n.neighbors.timeout < Time.horizon
  | .timer _ kind _ => net.clock < Time.horizon ∧ net.CarriesInTime ∧
      ∀ span ∈ spans net.settings kind, net.clock + span < Time.spanLimit
  | .failureTick => ∀ f, net.failures = some f →
      net.clock + f.tick < Time.spanLimit ∧ net.clock + f.recoveryDelay < Time.horizon
  | .action (.originate _ _) => net.clock < Time.horizon ∧ net.CarriesInTime
  | .action (.crash _ recovery) => net.clock + recovery < Time.horizon
  | .action _ => net.clock < Time.horizon

/-! ### Computations that settle -/

/-- A computation has a result, or it comes to an instant that clocks cannot show, and then they
    cannot show all those that `inTime` is about. -/
def Settles {α : Type} (inTime : Prop) (x : Except Fault α) : Prop :=
  (∃ a, x = .ok a) ∨ x = .error .clockOverflow ∧ ¬ inTime

section Settles

variable {α β : Type} {inTime : Prop}

theorem settles_ok (a : α) : Settles inTime (.ok a) := .inl ⟨a, rfl⟩

/-- There is a result if clocks can show all instants. -/
theorem Settles.exists_ok {x : Except Fault α} (h : Settles inTime x) (htime : inTime) :
    ∃ a, x = .ok a :=
  h.resolve_right fun hover => hover.2 htime

theorem settles_overflow (h : ¬ inTime) : Settles inTime (.error .clockOverflow : Except Fault α) :=
  .inr ⟨rfl, h⟩

theorem Settles.bind {x : Except Fault α} {f : α → Except Fault β} (h : Settles inTime x)
    (hf : ∀ a, x = .ok a → Settles inTime (f a)) : Settles inTime (x >>= f) := by
  obtain ⟨a, rfl⟩ | ⟨rfl, hlate⟩ := h
  · exact hf a rfl
  · exact settles_overflow hlate

/-- What comes after a result settles where it settles for that result. -/
theorem Settles.of_ok {x : Except Fault α} {f : α → Except Fault β} {a : α} (hx : x = .ok a)
    (h : Settles inTime (f a)) : Settles inTime (x >>= f) := by
  rw [hx]
  exact h

theorem settles_shown {t : Nat} (h : inTime → t < Time.horizon) : Settles inTime (shown t) := by
  unfold shown
  split
  · exact settles_ok t
  · next hlate => exact settles_overflow fun htime => hlate (h htime)

theorem settles_ensure {ok : Bool} (h : inTime → ok = true) : Settles inTime (ensure ok) := by
  unfold ensure
  split
  · exact settles_ok ()
  · next hlate => exact settles_overflow fun htime => hlate (h htime)

/-- An instant that is shown is the one that was to be shown. -/
theorem eq_of_shown {t now : Nat} (h : shown t = .ok now) : now = t := by
  unfold shown at h
  split at h
  · exact (Except.ok.inj h).symm
  · cases h

end Settles

/-! ### Arrivals, timers and actions -/

section events

variable {i recovery : Nat} {inTime : Prop}

/-- All that an event has planned settles: timers that are in time, and arrivals, if something is on
    the air. -/
theorem settles_commit {after : Network} {timers : List Nat}
    (htimers : inTime → ∀ span ∈ timers, net.clock + span < Time.spanLimit)
    (harrivals : inTime → net.nextSeq + timers.length < after.nextSeq →
      net.clock + net.topology.delay < Time.spanLimit) :
    Settles inTime (net.commit after timers) := by
  refine (settles_ensure fun htime => ?_).bind fun _ _ => settles_ok _
  refine List.all_eq_true.2 fun span hspan => decide_eq_true ?_
  unfold ahead at hspan
  split at hspan
  · next hsending =>
    rcases List.mem_cons.1 hspan with rfl | hspan
    · exact harrivals htime hsending
    · exact htimers htime span hspan
  · exact htimers htime span hspan

/-- Only over links is anything put on the air. -/
theorem exists_isLinked_of_route (net : Network) {i : Nat} {sends : List Outbound}
    (h : net.nextSeq < (net.route i sends).nextSeq) : ∃ j, net.topology.isLinked i j = true := by
  obtain ⟨as, has, harrive⟩ := net.airs_route i sends
  rw [has.nextSeq] at h
  obtain ⟨e, he⟩ := List.exists_mem_of_length_pos (by omega : 0 < as.length)
  obtain ⟨_, _, hx⟩ := harrive e he
  obtain ⟨j, hl, _⟩ := hx.event
  exact ⟨j, hl⟩

/-- So it is in time where messages are carried in time. -/
theorem CarriesInTime.of_follow (h : net.CarriesInTime) {r : Reaction}
    (hsent : net.nextSeq < (net.follow i r).nextSeq) :
    net.clock + net.topology.delay < Time.spanLimit := by
  obtain ⟨j, hl⟩ := exists_isLinked_of_route (net.absorb i r) hsent
  exact h i j hl

theorem settles_deliver {n : Node} (hn : net.node? i = some n) (sender : Address)
    (bytes : List UInt8) (hnow : inTime → net.clock < Time.horizon)
    (hcarries : inTime → net.CarriesInTime)
    (hlease : inTime → net.clock + n.neighbors.timeout < Time.horizon) :
    Settles inTime (net.deliver i sender bytes) := by
  refine (settles_shown hnow).bind fun now hshown => ?_
  obtain rfl := eq_of_shown hshown
  simp only [hn]
  refine (settles_ensure fun htime => Node.inTime_datagram (hlease htime) sender bytes).bind
    fun _ _ => settles_commit (by simp) fun htime hsent => ?_
  have hcount : net.countDelivery.CarriesInTime := hcarries htime
  exact hcount.of_follow hsent

/-- Beside its messages, a timer that fires plans the timers that are set again. -/
theorem nextSeq_fireTimer (net : Network) (i : Nat) (m : Member) (kind : TimerKind) :
    (net.fireTimer i m kind).nextSeq =
      (net.follow i (m.node.handle kind.event net.clock)).nextSeq +
        (spans net.settings kind).length := by
  cases kind <;> rfl

theorem settles_fire (hi : i < net.size) (kind : TimerKind) (generation : Nat)
    (hnow : inTime → net.clock < Time.horizon) (hcarries : inTime → net.CarriesInTime)
    (htimers : inTime → ∀ span ∈ spans net.settings kind, net.clock + span < Time.spanLimit) :
    Settles inTime (net.fire i kind generation) := by
  unfold fire
  rw [Array.getElem?_eq_getElem hi]
  simp only
  split
  · exact settles_ok _
  · refine (settles_shown hnow).bind fun _ _ => settles_commit htimers fun htime hsent => ?_
    rw [nextSeq_fireTimer] at hsent
    exact (hcarries htime).of_follow (Nat.lt_of_add_lt_add_right hsent)

theorem settles_originate (net : Network) (i : Nat) (value : Option Int32)
    (hnow : inTime → net.clock < Time.horizon) (hcarries : inTime → net.CarriesInTime) :
    Settles inTime (net.originate i value) := by
  refine (settles_shown hnow).bind fun now hshown => ?_
  obtain rfl := eq_of_shown hshown
  simp only
  split
  · exact settles_ok _
  · split
    · next r t _ =>
      refine settles_commit (by simp) fun htime hsent => ?_
      obtain ⟨j, hl⟩ := exists_isLinked_of_route (net.noted i r t) hsent
      exact hcarries htime i j hl
    · exact settles_ok _

/-- A crash reckons with the present and, unless it is refused, with its own end. -/
theorem settles_crash (net : Network) (i : Nat) (hnow : inTime → net.clock < Time.horizon)
    (hend : inTime → ∀ m, net.members[i]? = some m →
      m.node.inTime (.powerDown recovery net.clock) = true) :
    Settles inTime (net.crash i recovery) := by
  refine (settles_shown hnow).bind fun now hshown => ?_
  obtain rfl := eq_of_shown hshown
  simp only
  split
  · exact settles_ok _
  · next m hm =>
    refine (settles_ensure fun htime => hend htime m hm).bind fun _ _ => ?_
    split <;> exact settles_ok _

/-- So whether it is refused does not matter if clocks can show its end. -/
theorem settles_crash_of_end (net : Network) (i : Nat)
    (hend : inTime → net.clock + recovery < Time.horizon) :
    Settles inTime (net.crash i recovery) :=
  settles_crash net i (fun htime => Nat.lt_of_le_of_lt (Nat.le_add_right ..) (hend htime))
    fun htime _ _ => Node.inTime_powerDown (hend htime)

end events

/-! ### Failure injection -/

/-- The nodes next to a node without power are nodes. -/
theorem exists_candidates (hsize : net.topology.nodeCount = net.size) (hc : net.topology.Closed)
    (mode : FailureMode) : ∃ cs, net.candidates mode = .ok cs := by
  cases mode with
  | random => exact ⟨_, rfl⟩
  | location =>
    have hinside : ¬ (net.besideDown.any (net.size ≤ ·)) = true := by
      rw [List.any_eq_true]
      rintro ⟨i, hi, hout⟩
      obtain ⟨j, _, _, _, hl⟩ := mem_besideDown.1 hi
      have hlt := Topology.lt_of_isLinked hc hl
      rw [hsize] at hlt
      exact absurd hlt (by simpa using hout)
    unfold candidates
    simp only [if_neg hinside]
    split <;> exact ⟨_, rfl⟩

/-- There is a mark for every candidate. -/
theorem lt_of_mem_candidates {mode : FailureMode} {cs : List Nat} (h : net.candidates mode = .ok cs)
    {i : Nat} (hi : i ∈ cs) : i < net.downFlags.length := by
  obtain ⟨n, hn, _⟩ := mem_failable.1 (of_mem_candidates h hi).1
  rw [length_downFlags]
  exact lt_size_of_node? hn

theorem exists_draw {bound : Nat} (hb : 0 < bound) (net : Network) :
    ∃ k g, net.draw bound = .ok (k, { net with generator := g }) ∧ k < bound := by
  obtain ⟨k, g, hk, hlt⟩ := Generator.exists_below? hb net.generator
  exact ⟨k, g, by rw [draw, hk], hlt⟩

theorem settles_failNode {i recovery : Nat} {inTime : Prop} (hc : net.topology.Closed)
    (hend : inTime → net.clock + recovery < Time.horizon) :
    Settles inTime (net.failNode i recovery) := by
  obtain ⟨answer, hanswer⟩ := Topology.exists_isConnectedWithout? hc (net.downFlags.set i true)
  unfold failNode
  rw [hanswer]
  cases answer with
  | false => exact settles_ok _
  | true => exact settles_crash_of_end _ i hend

theorem settles_injectFailure {f : FailureConfig} {inTime : Prop}
    (hsize : net.topology.nodeCount = net.size) (hc : net.topology.Closed)
    (hend : inTime → net.clock + f.recoveryDelay < Time.horizon) :
    Settles inTime (net.injectFailure f) := by
  obtain ⟨cs, hcs⟩ := exists_candidates hsize hc f.mode
  refine .of_ok hcs ?_
  split
  · exact settles_ok _
  next hsome =>
  -- one of the candidates is drawn, and there is one under its number
  have hpos : 0 < cs.length := List.length_pos_iff.2 fun h => hsome (by rw [h]; rfl)
  obtain ⟨k, g, hdraw, hlt⟩ := exists_draw hpos net
  refine .of_ok hdraw ?_
  simp only [List.getElem?_eq_getElem hlt]
  have hc' : ({ net with generator := g } : Network).topology.Closed := hc
  exact settles_failNode hc' hend

theorem settles_considerFailure (hsize : net.topology.nodeCount = net.size)
    (hc : net.topology.Closed) : Settles (net.InTime .failureTick) net.considerFailure := by
  unfold considerFailure
  cases hf : net.failures with
  | none => exact settles_ok _
  | some f =>
    have htime : net.InTime .failureTick →
        net.clock + f.tick < Time.spanLimit ∧ net.clock + f.recoveryDelay < Time.horizon :=
      fun h => h f hf
    simp only
    split
    · next hlate => exact settles_overflow fun h => Nat.not_lt.2 hlate (htime h).1
    split
    · exact settles_ok _
    split
    · exact settles_ok _
    next hodds =>
    let planned := net.schedule (net.clock + f.tick) .failureTick
    obtain ⟨k, g, hdraw, _⟩ := exists_draw (Nat.pos_of_ne_zero hodds) planned
    refine .of_ok hdraw ?_
    split
    · have hsize' : ({ planned with generator := g } : Network).topology.nodeCount =
          ({ planned with generator := g } : Network).size := hsize
      have hc' : ({ planned with generator := g } : Network).topology.Closed := hc
      exact settles_injectFailure hsize' hc' fun h => (htime h).2
    · exact settles_ok _

/-- In a closed network an event settles if the node that it is for is there. -/
theorem settles_process (hsize : net.topology.nodeCount = net.size) (hc : net.topology.Closed)
    {e : Occurrence} (he : ∀ i, e.place? = some i → i < net.size) :
    Settles (net.InTime e) (net.process e) := by
  cases e with
  | deliver i sender bytes =>
    have hi : i < net.members.size := he i rfl
    have hn : net.node? i = some net.members[i].node := by
      rw [node?, Array.getElem?_eq_getElem hi]
      rfl
    exact settles_deliver hn sender bytes (fun h => h.1) (fun h => h.2.1) fun h => h.2.2 _ hn
  | timer i kind generation =>
    exact settles_fire (he i rfl) kind generation (fun h => h.1) (fun h => h.2.1) fun h => h.2.2
  | failureTick => exact settles_considerFailure hsize hc
  | action a =>
    cases a with
    | originate i value => exact settles_originate net i value (fun h => h.1) fun h => h.2
    | crash i recovery => exact settles_crash_of_end net i id
    | setRole i role => exact settles_ok _
    | setLossRate rate => exact settles_ok _

/-! ### Nodes that are there -/

/-- In a closed network, whatever a node, a link or an event names is one of its nodes. -/
theorem Names.lt {t : Topology} {s : ProtocolSettings} (hplaced : Placed t s net) (hc : t.Closed)
    {e : Occurrence} (h : net.Names e) {i : Nat} (hi : e.place? = some i) : i < t.nodeCount := by
  rcases h i hi with hlt | ⟨j, hl⟩
  · rwa [hplaced.size] at hlt
  · rw [hplaced.linked] at hl
    exact Topology.lt_of_isLinked hc hl

/-- All events that wait are for nodes of the topology. -/
def Housed (t : Topology) (net : Network) : Prop :=
  ∀ x ∈ net.pending, ∀ i, x.event.place? = some i → i < t.nodeCount

section Housed

variable {t : Topology} {s : ProtocolSettings}

/-- What is planned for nodes of the topology leaves all events with such nodes. -/
theorem Housed.of_plans {Q : Occurrence → Prop} (h : Housed t net)
    (hplans : Plans (fun _ => Q) net net')
    (hQ : ∀ e, Q e → ∀ i, e.place? = some i → i < t.nodeCount) : Housed t net' := by
  intro x hx i hi
  obtain hx | hx := hplans.mem_pending hx
  · exact h x hx i hi
  · exact hQ _ hx i hi

theorem housed_step (hs : Step net net') (hc : t.Closed) (hplaced : Placed t s net)
    (h : Housed t net) : Housed t net' := by
  have hnames : ∀ e, net.Names e → ∀ i, e.place? = some i → i < t.nodeCount :=
    fun e he i hi => he.lt hplaced hc hi
  have houtside : Outside net net' → Housed t net' := fun ho => h.of_plans (plans_outside ho) hnames
  cases hs with
  | plan time a => exact houtside (.plan ..)
  | setRole i role => exact houtside (.setRole ..)
  | withFailures f => exact houtside (.withFailures ..)
  | event limit hn =>
    obtain ⟨e, rest, net₁, hp, _, he, rfl⟩ := exists_effect_of_next hn
    have hturn : Housed t (net.turnTo e rest) := fun x hx =>
      h x ((pending_of_pop? hp).mem_iff.2 (List.mem_cons_of_mem _ hx))
    have hplans : Plans (fun _ => (net.turnTo e rest).Names) (net.turnTo e rest) net₁ :=
      (plans_effect he).mono fun _ _ h => h.names
    exact hturn.of_plans (hplans.trans (.watch net₁)) hnames
  | rest limit hn => exact h

theorem housed_build (t : Topology) (s : ProtocolSettings) (seed : UInt64) :
    Housed t (build t s seed) := by
  refine build_induction t s seed (fun _ net => Housed t net) ?_ ?_
  · intro x hx
    cases hx
  · intro k net hk h
    refine h.of_plans (plans_addNode seed net k) ?_
    intro e he i hi
    rw [he] at hi
    obtain rfl := Option.some.inj hi
    exact hk

theorem housed_of_run {P : Network → Prop} {seed : UInt64} (hc : t.Closed)
    (hr : Run P (build t s seed) net) : Housed t net := by
  have hboth := hr.invariant (fun net => Placed t s net ∧ Housed t net)
    (fun _ => ⟨placed_build t s seed, housed_build t s seed⟩)
    fun _ _ _ _ h hs => ⟨placed_step hs h.1, housed_step hs hc h.1 h.2⟩
  exact hboth.2

end Housed

/-! ### Nodes that are not there -/

/-- An action on a node that is not there leaves nothing but a report. -/
theorem act_stray {a : Action} {i : Nat} (ha : a.index? = some i) (hi : net.size ≤ i)
    (h : net.act a = .ok net') : net' = { net with journal := net'.journal } := by
  have hnode : ∀ n, net.node? i ≠ some n := fun n hn => Nat.not_lt.2 hi (lt_size_of_node? hn)
  have hmember : ∀ m, net.members[i]? ≠ some m := fun m hm =>
    hnode m.node (node?_eq_some_iff.2 ⟨m, hm, rfl⟩)
  have hact : net.process (.action a) = .ok net' := h
  cases a with
  | originate j value =>
    obtain rfl := Option.some.inj ha
    cases effect_of_process hact with
    | originated hn _ => exact absurd hn (hnode _)
    | notOriginated hn _ => exact absurd hn (hnode _)
    | nowhere _ _ => rfl
  | crash j recovery =>
    obtain rfl := Option.some.inj ha
    cases effect_of_process hact with
    | crashed hm _ => exact absurd hm (hmember _)
    | notCrashed hm _ => exact absurd hm (hmember _)
    | noCrash _ _ => rfl
  | setRole j role =>
    obtain rfl := Option.some.inj ha
    cases effect_of_process hact with
    | roleSet _ hn => exact absurd hn (hnode _)
    | noRole _ _ => rfl
  | setLossRate rate => cases ha

theorem setRole_stray {i : Nat} (hi : net.size ≤ i) (role : Role) : net.setRole i role = net := by
  have hnone : net.node? i = none :=
    Option.eq_none_iff_forall_ne_some.2 fun n hn => Nat.not_lt.2 hi (lt_size_of_node? hn)
  unfold setRole
  rw [hnone]

/-- As an event, such an action leaves the queue and a report, and all nodes and counts as they
    are. -/
theorem next_stray {limit i : Nat} {e : Scheduled Occurrence} {rest : EventQueue Occurrence}
    {a : Action} (hp : net.queue.pop? = some (e, rest)) (he : e.event = .action a)
    (ha : a.index? = some i) (hi : net.size ≤ i) (hn : net.next limit = .moved net') :
    net' = { net.turnTo e rest with journal := net'.journal, convergedAt := net'.convergedAt } := by
  obtain ⟨e', rest', net₁, hp', _, hpr, rfl⟩ := exists_process_of_next hn
  obtain ⟨rfl, rfl⟩ := Prod.mk.inj (Option.some.inj (hp.symm.trans hp'))
  rw [he] at hpr
  have hact : (net.turnTo e rest).act a = .ok net₁ := hpr
  have hsame := act_stray ha (show (net.turnTo e rest).size ≤ i from hi) hact
  rw [watch_eq, hsame]

/-! ### Runs -/

/-- Whatever is looked up in a network is there. -/
structure Intact (net : Network) : Prop where
  /-- An event that waits is for a node. -/
  housed : ∀ x ∈ net.pending, ∀ i, x.event.place? = some i → i < net.size
  /-- The ends of links are nodes. -/
  linked : ∀ i j, net.topology.isLinked i j = true → i < net.size ∧ j < net.size
  /-- The search for what is connected comes to nodes only. -/
  searched : ∀ down, ∃ answer, net.topology.isConnectedWithout? down = some answer
  /-- Failures find candidates, all of which are nodes with a mark. -/
  marked : ∀ mode, ∃ cs, net.candidates mode = .ok cs ∧ ∀ i ∈ cs, i < net.downFlags.length
  /-- A peer is drawn where one is known, and nothing is drawn where none is. -/
  picked : ∀ n ∈ net.nodes, ∀ g, (n.neighbors.entries = [] ∧ n.neighbors.pick g = (none, g)) ∨
    ∃ peer ∈ n.neighbors.entries, (n.neighbors.pick g).1 = some peer

section run

variable {P : Network → Prop} {t : Topology} {s : ProtocolSettings} {seed : UInt64} {limit : Nat}

theorem intact_of_run (hc : t.Closed) (hr : Run P (build t s seed) net) : net.Intact where
  housed x hx i hi := by
    rw [(placed_of_run hr).size]
    exact housed_of_run hc hr x hx i hi
  linked i j hl := by
    have hclosed := closed_of_run hr hc
    rw [← nodeCount_eq_size hr]
    refine ⟨Topology.lt_of_isLinked hclosed (a := j) ?_, Topology.lt_of_isLinked hclosed hl⟩
    rwa [Topology.isLinked_comm]
  searched := Topology.exists_isConnectedWithout? (closed_of_run hr hc)
  marked mode := by
    obtain ⟨cs, hcs⟩ := exists_candidates (nodeCount_eq_size hr) (closed_of_run hr hc) mode
    exact ⟨cs, hcs, fun i => lt_of_mem_candidates hcs⟩
  picked n _ := n.neighbors.pick_cases

/-- The next event settles. -/
theorem settles_of_pop? (hc : t.Closed) (hr : Run P (build t s seed) net)
    {e : Scheduled Occurrence} {rest : EventQueue Occurrence}
    (hp : net.queue.pop? = some (e, rest)) :
    Settles ((net.turnTo e rest).InTime e.event) ((net.turnTo e rest).process e.event) := by
  have hsize := nodeCount_eq_size hr
  have hclosed := closed_of_run hr hc
  have hmem : e ∈ net.pending := (pending_of_pop? hp).mem_iff.2 List.mem_cons_self
  have hhoused := (intact_of_run hc hr).housed e hmem
  have hturn : (net.turnTo e rest).topology.nodeCount = (net.turnTo e rest).size := hsize
  exact settles_process hturn hclosed hhoused

/-- A run breaks off only before an event that is not in time. -/
theorem overflow_of_runUntil (hc : t.Closed) {start : Network}
    (hstart : Run (fun _ => True) (build t s seed) start) (hr : Run (fun _ => True) start net)
    {budget : Nat} {b : Breakdown} (h : net.runUntil limit budget = .error b) :
    b.fault = .unfinished ∨ b.fault = .clockOverflow ∧ ∃ mid e rest,
      Run (fun _ => True) start mid ∧ mid.queue.pop? = some (e, rest) ∧ e.time ≤ limit ∧
        ¬ (mid.turnTo e rest).InTime e.event := by
  induction budget generalizing net with
  | zero =>
    obtain rfl := Except.error.inj h
    exact .inl rfl
  | succ budget ih =>
    unfold runUntil at h
    split at h
    · cases h
    · next net' hn => exact ih (.step hr (.event limit hn) trivial) h
    · next b' hn =>
      obtain rfl := Except.error.inj h
      obtain ⟨e, rest, hp, hle, hpr⟩ := exists_process_of_broken hn
      rcases settles_of_pop? hc (hstart.trans hr) hp with ⟨_, hok⟩ | ⟨hover, hlate⟩
      · rw [hok] at hpr
        cases hpr
      · rw [hover] at hpr
        exact .inr ⟨(Except.error.inj hpr).symm, net, e, rest, hr, hp, hle, hlate⟩

end run

/-- **Nothing fails but the clock.**  In a network of one of the shapes, or of any other topology
    whose links lead to nodes only, whatever is looked up is there in all states that can be
    reached, whatever actions are planned on nodes that may not be there.  The next event is
    processed if it is in time, and a run that does not come to its end has used up its budget or
    has come to an event that is not in time.  An action on a node that is not there leaves the
    nodes, the counts and the rest of the queue as they are. -/
theorem only_clocks_fail {t : Topology} {s : ProtocolSettings} {seed : UInt64}
    (ht : (∃ k n, t = .build k n) ∨ t.Closed)
    (hr : Run (fun _ => True) (build t s seed) net) :
    net.Intact ∧
    (∀ limit e rest, net.queue.pop? = some (e, rest) → e.time ≤ limit →
      (net.turnTo e rest).InTime e.event → ∃ net', net.next limit = .moved net') ∧
    (∀ limit budget b, net.runUntil limit budget = .error b →
      b.fault = .unfinished ∨ b.fault = .clockOverflow ∧ ∃ mid e rest,
        Run (fun _ => True) net mid ∧ mid.queue.pop? = some (e, rest) ∧ e.time ≤ limit ∧
          ¬ (mid.turnTo e rest).InTime e.event) ∧
    (∀ limit e rest a i net', net.queue.pop? = some (e, rest) → e.event = .action a →
      a.index? = some i → net.size ≤ i → net.next limit = .moved net' →
        net' = { net.turnTo e rest with
          journal := net'.journal, convergedAt := net'.convergedAt }) ∧
    ∀ i role, net.size ≤ i → net.setRole i role = net := by
  have hc : t.Closed := by
    rcases ht with ⟨k, n, rfl⟩ | hc
    · exact Topology.closed_build k n
    · exact hc
  refine ⟨intact_of_run hc hr, ?_, ?_, ?_, fun i role hi => setRole_stray hi role⟩
  · intro limit e rest hp hle htime
    obtain ⟨net', hok⟩ := (settles_of_pop? hc hr hp).exists_ok htime
    exact ⟨net'.watch, next_of_process hp hle hok⟩
  · intro limit budget b h
    exact overflow_of_runUntil hc hr (.start trivial) h
  · intro limit e rest a i net' hp he ha hi hn
    exact next_stray hp he ha hi hn

/-- A line of three relays, with failures, in which a tenth node is to crash. -/
def strayCrash : Network := faultyLine.plan 0 (.crash 9 (Time.ofSecs 2))

/-- The crash comes first and is in time, and leaves the line as it is. -/
theorem only_clocks_fail_strayCrash : ∃ e rest net',
    Run (fun _ => True) (build (.build .line 3) {} 7) strayCrash ∧
      strayCrash.queue.pop? = some (e, rest) ∧ e.event = .action (.crash 9 (Time.ofSecs 2)) ∧
      (strayCrash.turnTo e rest).InTime e.event ∧ strayCrash.size ≤ 9 ∧
      strayCrash.next 0 = .moved net' ∧ net'.members = strayCrash.members ∧
      net'.metrics = strayCrash.metrics ∧ net'.queue = rest := by
  have hpop : (strayCrash.queue.pop?.any fun p =>
      p.1.time = 0 ∧ p.1.event = .action (.crash 9 (Time.ofSecs 2))) = true := by
    decide
  obtain ⟨⟨e, rest⟩, hp, he⟩ := (Option.any_eq_true _ _).1 hpop
  obtain ⟨htime, he⟩ := of_decide_eq_true he
  have hrun : Run (fun _ => True) (build (.build .line 3) {} 7) strayCrash :=
    .step (run_faultyLine.mono fun _ _ => trivial) (.plan ..) trivial
  have hclock : strayCrash.clock = 0 := by decide
  have hsize : strayCrash.size ≤ 9 := by decide
  have hin : (strayCrash.turnTo e rest).InTime e.event := by
    rw [he, InTime, clock_turnTo, hclock, htime]
    decide
  obtain ⟨_, hnext, _, hstray, _⟩ := only_clocks_fail (.inl ⟨.line, 3, rfl⟩) hrun
  obtain ⟨net', hn⟩ := hnext 0 e rest hp (Nat.le_of_eq htime) hin
  have hsame := hstray 0 e rest _ 9 net' hp he rfl hsize hn
  exact ⟨e, rest, net', hrun, hp, he, hin, hsize, hn, by rw [hsame]; rfl, by rw [hsame]; rfl,
    by rw [hsame]; rfl⟩

end Network

end TokenMesh
