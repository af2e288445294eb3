import TokenMesh.Proofs.Network.Effect
import TokenMesh.Topology.Shape

namespace TokenMesh

/-!
# Runs of a network

All that can be done with a network, from the outside or by its own events, and what can come of
many such steps.

* `Network.Step`: something is planned, set or switched on, an event is processed, or the clock
  moves on to the end of a run;
* `Network.Run P start`: what comes of steps from `start` that never leave the states with `P`;
* `Network.Reachable`: what can come of a network that has just been built;
* `Network.exists_effect_of_next`: a processed event is the first one in the queue, and has one of
  the effects of events;
* `Network.build_induction`: what holds of a network that is built node by node;
* `Network.pair`, `Network.crashingPair`: two experiments with two nodes.
-/

namespace Network

/-- The network in which the next event is processed: the event has left the queue, and the clock
    shows its time. -/
def turnTo (net : Network) (e : Scheduled Occurrence) (rest : EventQueue Occurrence) : Network :=
  { net with queue := rest }.advanceTo e.time

/-- One thing that can be done with a network. -/
inductive Step : Network → Network → Prop
  | plan (net : Network) (time : Nat) (a : Action) : Step net (net.plan time a)
  | setRole (net : Network) (i : Nat) (role : Role) : Step net (net.setRole i role)
  | withFailures (net : Network) (f : FailureConfig) : Step net (net.withFailures f)
  | event {net net' : Network} (limit : Nat) (h : net.next limit = .moved net') : Step net net'
  | rest {net : Network} (limit : Nat) (h : net.next limit = .resting net) :
      Step net (net.advanceTo limit)

/-- What can come of a network through states that all have a property. -/
inductive Run (P : Network → Prop) (start : Network) : Network → Prop
  | start (h : P start) : Run P start start
  | step {net net' : Network} (hr : Run P start net) (hs : Step net net') (h : P net') :
      Run P start net'

/-- The states that a network can get into. -/
def Reachable (net : Network) : Prop :=
  ∃ t s seed, Run (fun _ => True) (build t s seed) net

/-! ### The next event -/

section turnTo

variable (net : Network) (e : Scheduled Occurrence) (rest : EventQueue Occurrence)

@[simp] theorem clock_turnTo : (net.turnTo e rest).clock = max net.clock e.time := rfl
@[simp] theorem members_turnTo : (net.turnTo e rest).members = net.members := rfl
@[simp] theorem topology_turnTo : (net.turnTo e rest).topology = net.topology := rfl
@[simp] theorem settings_turnTo : (net.turnTo e rest).settings = net.settings := rfl
@[simp] theorem failures_turnTo : (net.turnTo e rest).failures = net.failures := rfl
@[simp] theorem metrics_turnTo : (net.turnTo e rest).metrics = net.metrics := rfl
@[simp] theorem journal_turnTo : (net.turnTo e rest).journal = net.journal := rfl
@[simp] theorem lastBegin_turnTo : (net.turnTo e rest).lastBegin = net.lastBegin := rfl

end turnTo

/-- The event at hand and the rest of the queue are all that waits. -/
theorem pending_of_pop? {net : Network} {e : Scheduled Occurrence} {rest : EventQueue Occurrence}
    (h : net.queue.pop? = some (e, rest)) :
    net.pending.Perm (e :: (net.turnTo e rest).pending) :=
  EventQueue.toList_of_pop? h

/-- The event at hand may be handled before all that wait. -/
theorem isBefore_of_pop? {net : Network} {e : Scheduled Occurrence} {rest : EventQueue Occurrence}
    (h : net.queue.pop? = some (e, rest)) {x : Scheduled Occurrence} (hx : x ∈ net.pending) :
    e.isBefore x = true := by
  rcases List.mem_cons.1 ((pending_of_pop? h).mem_iff.1 hx) with rfl | hx
  · exact Scheduled.isBefore_iff.2 (.inr ⟨rfl, Nat.le_refl _⟩)
  · exact EventQueue.isBefore_of_pop? h hx

/-- No event waits for an earlier time than the event at hand. -/
theorem time_le_of_pop? {net : Network} {e : Scheduled Occurrence} {rest : EventQueue Occurrence}
    (h : net.queue.pop? = some (e, rest)) {x : Scheduled Occurrence} (hx : x ∈ net.pending) :
    e.time ≤ x.time :=
  Scheduled.time_le_of_isBefore (isBefore_of_pop? h hx)

/-- A processed event is the first one in the queue and lies within the limit.  Then the watch on
    convergence takes its turn. -/
theorem exists_process_of_next {net net' : Network} {limit : Nat}
    (h : net.next limit = .moved net') :
    ∃ e rest net₁, net.queue.pop? = some (e, rest) ∧ e.time ≤ limit ∧
      (net.turnTo e rest).process e.event = .ok net₁ ∧ net' = net₁.watch := by
  unfold next at h
  cases hp : net.queue.pop? with
  | none => rw [hp] at h; cases h
  | some p =>
    obtain ⟨e, rest⟩ := p
    rw [hp] at h
    simp only at h
    split at h
    · cases h
    · next hle =>
      split at h
      · next net₁ hpr =>
        obtain rfl := Progress.moved.inj h
        exact ⟨e, rest, net₁, rfl, Nat.not_lt.1 hle, hpr, rfl⟩
      · cases h

/-- An event at which a run breaks off is the first one in the queue, too. -/
theorem exists_process_of_broken {net : Network} {limit : Nat} {b : Breakdown}
    (h : net.next limit = .broken b) :
    ∃ e rest, net.queue.pop? = some (e, rest) ∧ e.time ≤ limit ∧
      (net.turnTo e rest).process e.event = .error b.fault := by
  unfold next at h
  split at h
  · cases h
  · next e rest hp =>
    split at h
    · cases h
    · next hle =>
      simp only at h
      split at h
      · cases h
      · next f hpr =>
        obtain rfl := Progress.broken.inj h
        exact ⟨e, rest, hp, Nat.not_lt.1 hle, hpr⟩

/-- A processed event has one of the effects of events. -/
theorem exists_effect_of_next {net net' : Network} {limit : Nat}
    (h : net.next limit = .moved net') :
    ∃ e rest net₁, net.queue.pop? = some (e, rest) ∧ e.time ≤ limit ∧
      Effect (net.turnTo e rest) e.event net₁ ∧ net' = net₁.watch := by
  obtain ⟨e, rest, net₁, hp, hle, hpr, hw⟩ := exists_process_of_next h
  exact ⟨e, rest, net₁, hp, hle, effect_of_process hpr, hw⟩

/-- An event within the limit that can be processed is processed. -/
theorem next_of_process {net net' : Network} {limit : Nat} {e : Scheduled Occurrence}
    {rest : EventQueue Occurrence} (hp : net.queue.pop? = some (e, rest)) (hle : e.time ≤ limit)
    (h : (net.turnTo e rest).process e.event = .ok net') :
    net.next limit = .moved net'.watch := by
  have h : ({ net with queue := rest }.advanceTo e.time).process e.event = .ok net' := h
  unfold next
  rw [hp]
  simp only [if_neg (Nat.not_lt.2 hle), h]

/-- A network that rests has not changed, and nothing waits within the limit. -/
theorem of_next_eq_resting {net net' : Network} {limit : Nat}
    (h : net.next limit = .resting net') :
    net' = net ∧ ∀ x ∈ net.pending, limit < x.time := by
  unfold next at h
  cases hp : net.queue.pop? with
  | none =>
    rw [hp] at h
    obtain rfl := Progress.resting.inj h
    refine ⟨rfl, ?_⟩
    intro x hx
    have hempty : net.pending = [] := EventQueue.pop?_eq_none_iff.1 hp
    rw [hempty] at hx
    cases hx
  | some p =>
    obtain ⟨e, rest⟩ := p
    rw [hp] at h
    simp only at h
    split at h
    · next hlt =>
      obtain rfl := Progress.resting.inj h
      exact ⟨rfl, fun x hx => Nat.lt_of_lt_of_le hlt (time_le_of_pop? hp hx)⟩
    · split at h <;> cases h

/-! ### Many steps -/

namespace Run

variable {P : Network → Prop} {start net : Network}

/-- The last state of a run has the property of all of them. -/
theorem last (h : Run P start net) : P net := by
  cases h with
  | start h => exact h
  | step _ _ h => exact h

/-- What holds at the start and is kept by every step of the run holds at its end. -/
theorem invariant (Inv : Network → Prop) (hstart : P start → Inv start)
    (hstep : ∀ net net', P net → P net' → Inv net → Step net net' → Inv net')
    (h : Run P start net) : Inv net := by
  induction h with
  | start h => exact hstart h
  | step hr hs h ih => exact hstep _ _ hr.last h ih hs

/-- A run that has more than one property has any one of them. -/
theorem mono {Q : Network → Prop} (hPQ : ∀ net, P net → Q net) (h : Run P start net) :
    Run Q start net := by
  induction h with
  | start h => exact .start (hPQ _ h)
  | step _ hs h ih => exact .step ih hs (hPQ _ h)

/-- What holds at the end of every run holds all the way. -/
theorem of_invariant {Q : Network → Prop} (hQ : ∀ net, Run P start net → Q net)
    (h : Run P start net) : Run Q start net := by
  induction h with
  | start h => exact .start (hQ _ (.start h))
  | step hr hs h ih => exact .step ih hs (hQ _ (.step hr hs h))

/-- One run after another. -/
theorem trans {mid : Network} (h : Run P start mid) (h' : Run P mid net) : Run P start net := by
  induction h' with
  | start _ => exact h
  | step _ hs hP ih => exact .step ih hs hP

/-- A run up to a given time consists of steps, and leaves nothing that waits for that time or an
    earlier one. -/
theorem runUntil {limit : Nat}
    (hevent : ∀ net net', P net → net.next limit = .moved net' → P net')
    (hrest : ∀ net, P net → P (net.advanceTo limit)) {budget : Nat} {net' : Network}
    (h : Run P start net) (hr : net.runUntil limit budget = .ok net') :
    Run P start net' ∧ ∀ x ∈ net'.pending, limit < x.time := by
  -- the induction is on the budget; each event leads to a run from another network
  induction budget generalizing net with
  | zero => cases hr
  | succ budget ih =>
    unfold Network.runUntil at hr
    split at hr
    · next net₁ hn =>
      obtain ⟨rfl, hlate⟩ := of_next_eq_resting hn
      obtain rfl := Except.ok.inj hr
      exact ⟨.step h (.rest limit hn) (hrest _ h.last), hlate⟩
    · next net₁ hn => exact ih (.step h (.event limit hn) (hevent _ _ h.last hn)) hr
    · cases hr

end Run

theorem Reachable.step {net net' : Network} (h : Reachable net) (hs : Step net net') :
    Reachable net' := by
  obtain ⟨t, s, seed, h⟩ := h
  exact ⟨t, s, seed, .step h hs trivial⟩

/-- A run up to a given time leads from states that can be reached to such states. -/
theorem Reachable.runUntil {net net' : Network} {limit budget : Nat} (h : Reachable net)
    (hr : net.runUntil limit budget = .ok net') : Reachable net' := by
  obtain ⟨t, s, seed, h⟩ := h
  exact ⟨t, s, seed, (h.runUntil (fun _ _ _ _ => trivial) (fun _ _ => trivial) hr).1⟩

/-! ### Building a network -/

/-- A network before its first node is switched on. -/
def blank (t : Topology) (s : ProtocolSettings) (seed : UInt64) : Network where
  clock := 0
  members := #[]
  topology := t
  settings := s
  queue := .empty
  nextSeq := 0
  generator := .ofSeed seed
  metrics := {}
  failures := none
  lastBegin := none
  convergedAt := none
  journal := []

/-- What holds of a blank network, and goes on to hold with each node that is switched on, holds
    of a network that is built. -/
theorem build_induction (t : Topology) (s : ProtocolSettings) (seed : UInt64)
    (Inv : Nat → Network → Prop) (hblank : Inv 0 (blank t s seed))
    (hadd : ∀ k net, k < t.nodeCount → Inv k net → Inv (k + 1) (addNode seed net k)) :
    Inv t.nodeCount (build t s seed) := by
  show Inv t.nodeCount ((List.range t.nodeCount).foldl (addNode seed) (blank t s seed))
  -- the first `k` nodes come first
  suffices h : ∀ k, k ≤ t.nodeCount →
      Inv k ((List.range k).foldl (addNode seed) (blank t s seed)) from h _ (Nat.le_refl _)
  intro k hk
  induction k with
  | zero => exact hblank
  | succ k ih =>
    rw [List.range_succ, List.foldl_append, List.foldl_cons, List.foldl_nil]
    exact hadd k _ hk (ih (Nat.le_of_succ_le hk))

section addNode

variable (seed : UInt64) (net : Network) (i : Nat)

@[simp] theorem clock_addNode : (addNode seed net i).clock = net.clock := rfl
@[simp] theorem topology_addNode : (addNode seed net i).topology = net.topology := rfl
@[simp] theorem settings_addNode : (addNode seed net i).settings = net.settings := rfl
@[simp] theorem failures_addNode : (addNode seed net i).failures = net.failures := rfl
@[simp] theorem metrics_addNode : (addNode seed net i).metrics = net.metrics := rfl
@[simp] theorem lastBegin_addNode : (addNode seed net i).lastBegin = net.lastBegin := rfl

@[simp] theorem members_addNode : (addNode seed net i).members =
    net.members.push ⟨Node.fresh (addressOf i) (settingsOf net.settings seed i), 0⟩ := rfl

@[simp] theorem originations_addNode : (addNode seed net i).originations = net.originations := rfl

@[simp] theorem size_addNode : (addNode seed net i).size = net.size + 1 := Array.size_push _

/-- A new node comes after all others. -/
theorem nodes_addNode : (addNode seed net i).nodes =
    net.nodes ++ [Node.fresh (addressOf i) (settingsOf net.settings seed i)] := by
  simp [nodes]

/-- A new node sets its two boot timers. -/
theorem pending_addNode : (addNode seed net i).pending.Perm
    (⟨net.clock + net.settings.beaconPeriod, net.nextSeq + 1, .timer i .beacon 0⟩ ::
      ⟨net.clock + net.settings.initialAnnounceDelay, net.nextSeq, .timer i .announce 0⟩ ::
        net.pending) :=
  (pending_schedule ..).trans (.cons _ (pending_schedule ..))

end addNode

section build

variable (t : Topology) (s : ProtocolSettings) (seed : UInt64)

/-- What no node that is switched on touches is as it was in the beginning. -/
theorem build_eq_blank {α : Type} (f : Network → α)
    (hf : ∀ net k, f (addNode seed net k) = f net) : f (build t s seed) = f (blank t s seed) :=
  build_induction t s seed (fun _ net => f net = f (blank t s seed)) rfl
    fun k net _ h => (hf net k).trans h

@[simp] theorem topology_build : (build t s seed).topology = t :=
  build_eq_blank t s seed topology fun _ _ => rfl
@[simp] theorem settings_build : (build t s seed).settings = s :=
  build_eq_blank t s seed settings fun _ _ => rfl
@[simp] theorem failures_build : (build t s seed).failures = none :=
  build_eq_blank t s seed failures fun _ _ => rfl
@[simp] theorem lastBegin_build : (build t s seed).lastBegin = none :=
  build_eq_blank t s seed lastBegin fun _ _ => rfl
@[simp] theorem convergedAt_build : (build t s seed).convergedAt = none :=
  build_eq_blank t s seed convergedAt fun _ _ => rfl

/-- Nothing has been originated when a network is built. -/
@[simp] theorem originations_build : (build t s seed).originations = [] :=
  build_eq_blank t s seed originations fun net k => originations_addNode seed net k

@[simp] theorem size_build : (build t s seed).size = t.nodeCount :=
  build_induction t s seed (fun k net => net.size = k) rfl
    fun k net _ h => (size_addNode seed net k).trans (congrArg (· + 1) h)

end build

/-- All nodes of a network that has just been built have just been switched on. -/
theorem node?_build {t : Topology} {s : ProtocolSettings} {seed : UInt64} {i : Nat} {n : Node}
    (hn : (build t s seed).node? i = some n) :
    n = Node.fresh (addressOf i) (settingsOf s seed i) := by
  let Inv (k : Nat) (net : Network) : Prop :=
    net.settings = s ∧ net.size = k ∧
      ∀ i n, net.node? i = some n → n = Node.fresh (addressOf i) (settingsOf s seed i)
  suffices h : Inv t.nodeCount (build t s seed) from h.2.2 i n hn
  -- the next node is put in the first place that is free, and its address is that of the place
  refine build_induction t s seed Inv ⟨rfl, rfl, ?_⟩ ?_
  · intro i n hn
    simp [node?, blank] at hn
  · intro k net _ h
    obtain ⟨hs, hsize, hfresh⟩ := h
    refine ⟨hs, by rw [size_addNode, hsize], ?_⟩
    intro i n hn
    obtain ⟨m, hm, rfl⟩ := node?_eq_some_iff.1 hn
    rw [members_addNode, Array.getElem?_push] at hm
    split at hm
    · next hik =>
      obtain rfl := Option.some.inj hm
      rw [hik.trans hsize, hs]
    · exact hfresh i _ (node?_eq_some_iff.2 ⟨m, hm, rfl⟩)

/-- Nothing but the boot timers waits in a network that has just been built. -/
theorem mem_pending_build {t : Topology} {s : ProtocolSettings} {seed : UInt64}
    {x : Scheduled Occurrence} (hx : x ∈ (build t s seed).pending) :
    ∃ i kind, x.event = .timer i kind 0 := by
  suffices h : ∀ x ∈ (build t s seed).pending, ∃ i kind, x.event = .timer i kind 0 from h x hx
  refine build_induction t s seed
    (fun _ net => ∀ x ∈ net.pending, ∃ i kind, x.event = .timer i kind 0) ?_ ?_
  · intro x hx
    cases hx
  · intro k net _ h x hx
    rcases List.mem_cons.1 ((pending_addNode seed net k).mem_iff.1 hx) with rfl | hx
    · exact ⟨k, .beacon, rfl⟩
    rcases List.mem_cons.1 hx with rfl | hx
    · exact ⟨k, .announce, rfl⟩
    · exact h x hx

/-! ### Two experiments -/

/-- A run ends, in a state that passes a test. -/
def endsWith (net : Network) (limit budget : Nat) (p : Network → Bool) : Bool :=
  (net.runUntil limit budget).toOption.any p

theorem exists_of_endsWith {net : Network} {limit budget : Nat} {p : Network → Bool}
    (h : net.endsWith limit budget p = true) :
    ∃ net', net.runUntil limit budget = .ok net' ∧ p net' = true := by
  unfold endsWith at h
  cases hr : net.runUntil limit budget with
  | error b => rw [hr] at h; cases h
  | ok net' =>
    rw [hr] at h
    exact ⟨net', rfl, h⟩

/-- Two nodes that hear each other.  The first one originates a token at once. -/
def pair : Network :=
  ((build (.build .line 2) {} 7).setRole 0 .source).plan 0 (.originate 0 (some 5))

/-- The same, but the first node crashes after two seconds, and is switched on again two seconds
    later. -/
def crashingPair : Network := pair.plan (Time.ofSecs 2) (.crash 0 (Time.ofSecs 2))

theorem reachable_pair : Reachable pair :=
  ⟨_, _, _, .step (.step (.start trivial) (.setRole ..) trivial) (.plan ..) trivial⟩

theorem reachable_crashingPair : Reachable crashingPair := reachable_pair.step (.plan ..)

end Network

end TokenMesh
