import TokenMesh.Proofs.Network.Power
import TokenMesh.Proofs.Network.Timers

namespace TokenMesh

/-!
# The victims of failure injection

A failure tick draws one node at most.  That node has power and is a relay, and in location mode it
is next to a node without power, as long as there is one.  It fails if the others stay connected
without it, and if they do not, the only thing that happens is that a veto is counted.

* `Network.Eligible`: a node that failure injection may take the power of;
* `Network.eligible_of_victim?`: only such nodes are drawn;
* `Network.TickOutcome`, `Network.tickOutcome_of_tickCase`: all that comes of a tick;
* `Network.PowerStep`: what a step without planned crashes does to the power of the nodes;
* `Network.victim_selection`: what comes of the ticks of a run, and how many nodes are without
  power at once.
-/

namespace Network

variable {net net' : Network} {f : FailureConfig} {i j : Nat}

/-! ### Who is drawn -/

/-- A node that failure injection may take the power of. -/
structure Eligible (net : Network) (f : FailureConfig) (i : Nat) : Prop where
  room : net.downCount < f.maxConcurrent
  relay : ∃ n, net.node? i = some n ∧ n.isDown = false ∧ n.role = .relay
  /-- In location mode a failure comes next to another one. -/
  beside : f.mode = .location → 0 < net.downCount →
    ∃ j m, net.node? j = some m ∧ m.isDown = true ∧ net.topology.isLinked j i = true

theorem mem_failable :
    i ∈ net.failable ↔ ∃ n, net.node? i = some n ∧ n.isDown = false ∧ n.role = .relay := by
  unfold failable mayFail
  rw [List.mem_filter, List.mem_range, Option.any_eq_true]
  simp only [Bool.and_eq_true, Bool.not_eq_true', beq_iff_eq]
  constructor
  · rintro ⟨_, n, hn, h⟩
    exact ⟨n, hn, h⟩
  · rintro ⟨n, hn, h⟩
    exact ⟨lt_size_of_node? hn, n, hn, h⟩

theorem mem_besideDown :
    i ∈ net.besideDown ↔
      ∃ j m, net.node? j = some m ∧ m.isDown = true ∧ net.topology.isLinked j i = true := by
  unfold besideDown
  simp only [List.mem_flatMap, List.mem_filter, List.mem_range, Option.any_eq_true,
    Topology.mem_neighbors_iff]
  constructor
  · rintro ⟨j, ⟨_, m, hm, hd⟩, hl⟩
    exact ⟨j, m, hm, hd, hl⟩
  · rintro ⟨j, m, hm, hd, hl⟩
    exact ⟨j, ⟨lt_size_of_node? hm, m, hm, hd⟩, hl⟩

/-- Some node is marked if and only if not all have power. -/
theorem contains_downFlags : net.downFlags.contains true = true ↔ 0 < net.downCount := by
  rw [downCount_eq_count, List.count_pos_iff, List.contains_iff_mem]

/-- Candidates are relays with power, and in location mode they are next to a node without power, as
long as there is one. -/
theorem of_mem_candidates {mode : FailureMode} {cs : List Nat}
    (h : net.candidates mode = .ok cs) (hi : i ∈ cs) :
    i ∈ net.failable ∧ (mode = .location → 0 < net.downCount → i ∈ net.besideDown) := by
  cases mode with
  | random =>
    obtain rfl := Except.ok.inj h
    exact ⟨hi, by simp⟩
  | location =>
    unfold candidates at h
    simp only at h
    split at h
    · split at h
      · cases h
      · obtain rfl := Except.ok.inj h
        obtain ⟨hi, hb⟩ := List.mem_filter.1 hi
        exact ⟨hi, fun _ _ => List.contains_iff_mem.1 hb⟩
    · next hnone =>
      obtain rfl := Except.ok.inj h
      exact ⟨hi, fun _ hd => absurd (contains_downFlags.2 hd) hnone⟩

theorem mem_of_candidate? {mode : FailureMode} (h : net.candidate? mode = some i) :
    ∃ cs, net.candidates mode = .ok cs ∧ i ∈ cs := by
  unfold candidate? at h
  split at h
  · next cs hcs =>
    obtain ⟨⟨k, g⟩, _, hk⟩ := Option.bind_eq_some_iff.1 h
    exact ⟨cs, hcs, List.mem_of_getElem? hk⟩
  · cases h

/-- Only eligible nodes are drawn. -/
theorem eligible_of_victim? (h : net.victim? f = some i) : net.Eligible f i := by
  unfold victim? at h
  split at h
  · cases h
  next hroom =>
  rw [length_filter_downFlags] at hroom
  split at h
  · next g _ =>
    obtain ⟨cs, hcs, hi⟩ := mem_of_candidate? h
    have hcandidates : net.candidates f.mode = .ok cs := hcs
    obtain ⟨hrelay, hbeside⟩ := of_mem_candidates hcandidates hi
    exact ⟨Nat.not_le.1 hroom, mem_failable.1 hrelay, fun hm hd => mem_besideDown.1 (hbeside hm hd)⟩
  · cases h

/-! ### What comes of a tick -/

/-- A node with power crashes whenever it is told to, and loses nothing but its power. -/
theorem crashed_of_crash {m : Member} {recovery : Nat} (hm : net.members[i]? = some m)
    (hup : m.node.isDown = false) (h : net.crash i recovery = .ok net') :
    ∃ r, r.node = { m.node with power := .down (net.clock + recovery) } ∧
      net' = net.crashed i m.generation r recovery := by
  have he := effect_of_crash h
  cases he with
  | crashed hm' hp =>
    obtain rfl := Option.some.inj (hm.symm.trans hm')
    obtain ⟨_, hr, _⟩ := Node.powerDown_eq_ok hp
    exact ⟨_, hr, rfl⟩
  | notCrashed hm' hp =>
    obtain rfl := Option.some.inj (hm.symm.trans hm')
    unfold Node.powerDown at hp
    rw [hup] at hp
    cases hp
  | noCrash _ hm' => rw [hm] at hm'; cases hm'

/-- The three things that can come of a tick at a given time. -/
inductive TickCase (f : FailureConfig) (time : Nat) (net net' : Network) : Prop
  | nobody (hnone : net.victim? f = none) (hm : net'.members = net.members)
      (hc : net'.metrics = net.metrics)
  | vetoed (i : Nat) (hi : net.victim? f = some i)
      (hcut : net.topology.isConnectedWithout? (net.downFlags.set i true) = some false)
      (hm : net'.members = net.members)
      (hc : net'.metrics = { net.metrics with vetoed := net.metrics.vetoed + 1 })
  | failed (i : Nat) (m : Member) (hi : net.victim? f = some i)
      (hwhole : net.topology.isConnectedWithout? (net.downFlags.set i true) = some true)
      (hm : net.members[i]? = some m)
      (hset : net'.members = (net.setNode i
        { m.node with power := .down (time + f.recoveryDelay) }).members)
      (hc : net'.metrics = { net.metrics with crashes := net.metrics.crashes + 1 })
      (ht : net'.topology = net.topology)

/-- The next tick waits beside all that waited before. -/
theorem timesIn_ticked (net : Network) (f : FailureConfig) (g : Generator) (vetoes : Nat) :
    (timesIn (net.ticked f g vetoes).pending .failureTick).Perm
      ((net.clock + f.tick) :: timesIn net.pending .failureTick) := by
  have hp := pending_schedule net (net.clock + f.tick) .failureTick
  exact (timesIn_perm hp _).trans (.of_eq (timesIn_cons_self ..))

/-- A tick comes to one of the three things, and the next one is planned. -/
theorem tickCase_of_considerFailure (hf : net.failures = some f)
    (h : net.considerFailure = .ok net') :
    TickCase f net.clock net net' ∧ (timesIn net'.pending .failureTick).Perm
      ((net.clock + f.tick) :: timesIn net.pending .failureTick) := by
  obtain ⟨g, ⟨hnone, rfl⟩ | ⟨i, hi, ⟨hcut, rfl⟩ | ⟨hwhole, h⟩⟩⟩ := considerFailure_cases hf h
  · exact ⟨.nobody hnone rfl rfl, timesIn_ticked ..⟩
  · exact ⟨.vetoed i hi hcut rfl rfl, timesIn_ticked ..⟩
  · obtain ⟨n, hn, hup, _⟩ := (eligible_of_victim? hi).relay
    obtain ⟨m, hm, rfl⟩ := node?_eq_some_iff.1 hn
    let told := (net.ticked f g 0).tell [.failing i net.clock]
    have htold : told.members[i]? = some m := hm
    obtain ⟨r, hr, rfl⟩ := crashed_of_crash htold hup h
    refine ⟨.failed i m hi hwhole hm ?_ rfl rfl, ?_⟩
    · have hset : (told.crashed i m.generation r f.recoveryDelay).members =
          (net.setNode i r.node).members := rfl
      rw [hset, hr]
      rfl
    · -- the restart timer of the node waits as well
      have hp : (told.crashed i m.generation r f.recoveryDelay).pending.Perm
          (⟨told.clock + f.recoveryDelay, told.nextSeq, .timer i .restart m.generation⟩ ::
            told.pending) := pending_schedule ..
      have htimes := timesIn_perm hp .failureTick
      rw [timesIn_cons_of_ne (by simp)] at htimes
      exact htimes.trans (timesIn_ticked net f g 0)

/-- The same of a tick that is the next event.  It is never overdue, and the next tick takes its
place. -/
theorem tickCase_of_next {limit : Nat} {e : Scheduled Occurrence} {rest : EventQueue Occurrence}
    (ho : OnTime net) (hp : net.queue.pop? = some (e, rest)) (he : e.event = .failureTick)
    (hf : net.failures = some f) (hn : net.next limit = .moved net') :
    TickCase f e.time net net' ∧ ∃ others,
      (timesIn net.pending .failureTick).Perm (e.time :: others) ∧
      (timesIn net'.pending .failureTick).Perm ((e.time + f.tick) :: others) := by
  obtain ⟨e', rest', net₁, hp', _, hpr, rfl⟩ := exists_process_of_next hn
  obtain ⟨rfl, rfl⟩ := Prod.mk.inj (Option.some.inj (hp'.symm.trans hp))
  rw [he] at hpr
  have hturn : (net.turnTo e' rest').failures = some f := hf
  obtain ⟨hcase, htimes⟩ := tickCase_of_considerFailure hturn hpr
  have hclock : (net.turnTo e' rest').clock = e'.time := by
    have hmem : e' ∈ net.pending := (pending_of_pop? hp).mem_iff.2 List.mem_cons_self
    have hdue := ho.due e' hmem (by simp [he])
    rw [clock_turnTo]
    omega
  rw [hclock] at hcase htimes
  refine ⟨?_, timesIn (net.turnTo e' rest').pending .failureTick, ?_, ?_⟩
  · -- neither the queue nor the clock makes a difference to who is drawn
    cases hcase with
    | nobody hnone hm hc =>
      exact .nobody hnone ((members_watch _).trans hm) ((metrics_watch _).trans hc)
    | vetoed i hi hcut hm hc =>
      exact .vetoed i hi hcut ((members_watch _).trans hm) ((metrics_watch _).trans hc)
    | failed i m hi hwhole hm hset hc ht =>
      exact .failed i m hi hwhole hm ((members_watch _).trans hset) ((metrics_watch _).trans hc)
        ((topology_watch _).trans ht)
  · have htimes := timesIn_perm (pending_of_pop? hp) .failureTick
    rw [← he] at htimes ⊢
    exact htimes.trans (.of_eq (timesIn_cons_self ..))
  · rw [pending_watch]
    exact htimes

/-- All that comes of a failure tick at a given time. -/
structure TickOutcome (f : FailureConfig) (time : Nat) (net net' : Network) : Prop where
  /-- The next tick takes the place of this one. -/
  nextTick : ∃ others, (timesIn net.pending .failureTick).Perm (time :: others) ∧
    (timesIn net'.pending .failureTick).Perm ((time + f.tick) :: others)
  eligible : ∀ i, net.victim? f = some i → net.Eligible f i
  /-- Where nobody is drawn, nothing changes. -/
  nobody : net.victim? f = none → net'.members = net.members ∧ net'.metrics = net.metrics
  /-- A node that the others cannot do without keeps its power, and that is counted. -/
  vetoed : ∀ i, net.victim? f = some i →
    ¬ net.topology.Connects (fun j => net.Powered j ∧ j ≠ i) →
    net'.members = net.members ∧
      net'.metrics = { net.metrics with vetoed := net.metrics.vetoed + 1 }
  /-- Any other one loses its power, and nothing else changes. -/
  failed : ∀ i, net.victim? f = some i →
    net.topology.Connects (fun j => net.Powered j ∧ j ≠ i) →
    (∃ m, net.members[i]? = some m ∧ net'.members[i]? = some { m with
      node := { m.node with power := .down (time + f.recoveryDelay) } }) ∧
    (∀ j, j ≠ i → net'.members[j]? = net.members[j]?) ∧
    net'.metrics = { net.metrics with crashes := net.metrics.crashes + 1 } ∧ net'.Whole

/-- A node has lost its power. -/
theorem downFlags_of_powerDown {m : Member} {t : Nat}
    (h : net'.members = (net.setNode i { m.node with power := .down t }).members) :
    net'.downFlags = net.downFlags.set i true :=
  (downFlags_congr h).trans (downFlags_setNode ..)

/-- A network is whole after the failure of a node that the others can do without. -/
theorem whole_of_failed (hsize : net.topology.nodeCount = net.size)
    (hwhole : net.topology.isConnectedWithout? (net.downFlags.set i true) = some true)
    (ht : net'.topology = net.topology) (h : net'.downFlags = net.downFlags.set i true) :
    net'.Whole := by
  have hconn := (connects_downFlags_set hsize hwhole).1 rfl
  unfold Whole
  rw [ht]
  refine (Topology.connects_congr (fun _ _ => rfl) fun j => ?_).2 hconn
  rw [powered_iff, h, getElem?_set_true_iff]

/-- Whether the drawn node fails is decided by whether the others are connected without it. -/
theorem tickOutcome_of_tickCase {time : Nat} (hsize : net.topology.nodeCount = net.size)
    (hcase : TickCase f time net net')
    (htimes : ∃ others, (timesIn net.pending .failureTick).Perm (time :: others) ∧
      (timesIn net'.pending .failureTick).Perm ((time + f.tick) :: others)) :
    TickOutcome f time net net' := by
  refine ⟨htimes, fun i => eligible_of_victim?, ?_, ?_, ?_⟩
  · intro hnone
    cases hcase with
    | nobody _ hm hc => exact ⟨hm, hc⟩
    | vetoed i hi => rw [hnone] at hi; cases hi
    | failed i m hi => rw [hnone] at hi; cases hi
  · intro i hi hcut
    cases hcase with
    | nobody hnone => rw [hi] at hnone; cases hnone
    | vetoed _ _ _ hm hc => exact ⟨hm, hc⟩
    | failed k _ hk hwhole =>
      obtain rfl := Option.some.inj (hi.symm.trans hk)
      exact absurd ((connects_downFlags_set hsize hwhole).1 rfl) hcut
  · intro i hi hconn
    cases hcase with
    | nobody hnone => rw [hi] at hnone; cases hnone
    | vetoed k hk hcut =>
      obtain rfl := Option.some.inj (hi.symm.trans hk)
      exact absurd ((connects_downFlags_set hsize hcut).2 hconn) (by simp)
    | failed k m hk hwhole hm hset hc ht =>
      obtain rfl := Option.some.inj (hi.symm.trans hk)
      have hmembers := getElem?_members_setNode_of_some net i
        { m.node with power := .down (time + f.recoveryDelay) } hm
      rw [← hset] at hmembers
      refine ⟨⟨m, hm, by rw [hmembers, if_pos rfl]⟩, ?_, hc,
        whole_of_failed hsize hwhole ht (downFlags_of_powerDown hset)⟩
      intro j hj
      rw [hmembers, if_neg (Ne.symm hj)]

/-! ### The power of all nodes -/

/-- What a step without planned crashes does to the power of the nodes: nothing, or one node gets
its power back, or one loses it that the others can do without. -/
inductive PowerStep (net net' : Network) : Prop
  | same (h : net'.downFlags = net.downFlags)
      (hc : net'.metrics.crashes = net.metrics.crashes)
  | back (i : Nat) (hi : net.downFlags[i]? = some true)
      (h : net'.downFlags = net.downFlags.set i false)
      (hc : net'.metrics.crashes = net.metrics.crashes)
  | failed (i : Nat) {f : FailureConfig} (hf : net.failures = some f)
      (hroom : net.downCount < f.maxConcurrent) (hi : net.downFlags[i]? = some false)
      (h : net'.downFlags = net.downFlags.set i true)
      (hc : net'.metrics.crashes = net.metrics.crashes + 1) (hwhole : net'.Whole)

theorem powerStep_of_tickCase {time : Nat} (hsize : net.topology.nodeCount = net.size)
    (hf : net.failures = some f) (hcase : TickCase f time net net') : PowerStep net net' := by
  cases hcase with
  | nobody _ hm hc => exact .same (downFlags_congr hm) (by rw [hc])
  | vetoed _ _ _ hm hc => exact .same (downFlags_congr hm) (by rw [hc])
  | failed i m hi hwhole hm hset hc ht =>
    have hflags := downFlags_of_powerDown hset
    obtain ⟨hroom, ⟨n, hn, hup, _⟩, _⟩ := eligible_of_victim? hi
    exact .failed i hf hroom (powered_iff.1 ⟨n, hn, hup⟩) hflags (by rw [hc])
      (whole_of_failed hsize hwhole ht hflags)

theorem powerStep_of_effect {e : Occurrence} (he : Effect net e net')
    (hcrash : ∀ i recovery, e ≠ .action (.crash i recovery)) (htick : e ≠ .failureTick) :
    PowerStep net net' := by
  obtain ⟨hc, h | ⟨i, hi, h⟩⟩ := downFlags_effect he hcrash htick
  · exact .same h hc
  · exact .back i hi h hc

/-- The watch on convergence looks at the power of the nodes, and leaves it alone. -/
theorem PowerStep.of_turnTo {e : Scheduled Occurrence} {rest : EventQueue Occurrence}
    (h : PowerStep (net.turnTo e rest) net') : PowerStep net net'.watch := by
  rw [watch_eq]
  cases h with
  | same h hc => exact .same h hc
  | back i hi h hc => exact .back i hi h hc
  | failed i hf hroom hi h hc hwhole => exact .failed i hf hroom hi h hc hwhole

theorem powerStep_of_step (hs : Step net net') (hfree : net.CrashFree) (ho : OnTime net)
    (hsize : net.topology.nodeCount = net.size) : PowerStep net net' := by
  cases hs with
  | plan time a => exact .same rfl rfl
  | setRole i role =>
    exact powerStep_of_effect (effect_setRole net i role) (by simp) (by simp)
  | withFailures f =>
    unfold withFailures
    split <;> exact .same rfl rfl
  | event limit h =>
    obtain ⟨e, rest, net₁, hp, _, he, rfl⟩ := exists_effect_of_next h
    by_cases htick : e.event = .failureTick
    · cases hf : net.failures with
      | some f => exact powerStep_of_tickCase hsize hf (tickCase_of_next ho hp htick hf h).1
      | none =>
        rw [htick] at he
        cases he with
        | ignored hf' => exact .of_turnTo (.same rfl rfl)
        | considered _ _ hf' => rw [failures_turnTo, hf] at hf'; cases hf'
        | injected _ hf' => rw [failures_turnTo, hf] at hf'; cases hf'
    · have hmem : e ∈ net.pending := (pending_of_pop? hp).mem_iff.2 List.mem_cons_self
      exact (powerStep_of_effect he (hfree e hmem) htick).of_turnTo
  | rest limit h => exact .same rfl rfl

section run

variable {P : Network → Prop} {t : Topology} {s : ProtocolSettings} {seed : UInt64}

/-- What is kept by whatever the steps of a run do to the power of the nodes holds at its end. -/
theorem Run.power_invariant (Inv : Network → Prop) (hfree : ∀ net, P net → net.CrashFree)
    (hstart : Inv (build t s seed))
    (hstep : ∀ net net', Run P (build t s seed) net → Step net net' →
      Run P (build t s seed) net' → PowerStep net net' → Inv net → Inv net')
    (hr : Run P (build t s seed) net) : Inv net := by
  induction hr with
  | start _ => exact hstart
  | step hr hs hP ih =>
    have hpower := powerStep_of_step hs (hfree _ hr.last) (onTime_of_run hr) (nodeCount_eq_size hr)
    exact hstep _ _ hr hs (.step hr hs hP) hpower ih

theorem downCount_build (t : Topology) (s : ProtocolSettings) (seed : UInt64) :
    (build t s seed).downCount = 0 := by
  unfold downCount
  rw [List.countP_eq_zero]
  intro n hn
  obtain ⟨i, hi⟩ := mem_nodes_iff.1 hn
  simp [awake_build t s seed i n hi]

/-- No more nodes are without power than any configuration has allowed. -/
theorem downCount_le_of_run {cap : Nat}
    (hr : Run (fun net => net.CrashFree ∧ ∀ f ∈ net.failures, f.maxConcurrent ≤ cap)
      (build t s seed) net) : net.downCount ≤ cap := by
  refine hr.power_invariant (fun net => net.downCount ≤ cap) (fun _ h => h.1) ?_ ?_
  · rw [downCount_build]
    exact Nat.zero_le _
  · intro net net' hr _ _ hpower hle
    cases hpower with
    | same h hc => rwa [downCount_congr h]
    | back i hi h hc =>
      have hone := downCount_of_set_false hi h
      omega
    | failed i hf hroom hi h hc hwhole =>
      have hone := downCount_of_set_true hi h
      have hcap := hr.last.2 _ hf
      omega

end run

/-- In a network that has come from a topology with all nodes switched on, every failure tick that
is processed has the outcome of a tick: it plans the next one, and draws at most one node, which is
eligible.  The node loses its power if the other nodes with power are connected without it, and all
nodes with power are connected then.  If they are not, a veto is counted, and if nobody is drawn,
nothing changes at all.  So as long as no crash is planned, no more nodes are without power at once
than the configurations so far have allowed. -/
theorem victim_selection {t : Topology} {s : ProtocolSettings} {seed : UInt64}
    (hr : Run (fun _ => True) (build t s seed) net) :
    (∀ limit net' e rest f, net.queue.pop? = some (e, rest) → e.event = .failureTick →
      net.failures = some f → net.next limit = .moved net' → TickOutcome f e.time net net') ∧
    ∀ cap, Run (fun net => net.CrashFree ∧ ∀ f ∈ net.failures, f.maxConcurrent ≤ cap)
      (build t s seed) net → net.downCount ≤ cap := by
  refine ⟨?_, fun cap hcap => downCount_le_of_run hcap⟩
  intro limit net' e rest f hp he hf hn
  obtain ⟨hcase, htimes⟩ := tickCase_of_next (onTime_of_run hr) hp he hf hn
  exact tickOutcome_of_tickCase (nodeCount_eq_size hr) hcase htimes

/-! ### A line of relays -/

/-- A failure is tried every half second, next to the last one, and a node that fails is switched on
again three quarters of a second later. -/
def frequentFailures : FailureConfig :=
  ⟨.location, Time.ofMillis 500, 1, 2, Time.ofMillis 750⟩

/-- Three relays in a row, two of which may be without power at once. -/
def faultyLine : Network := (build (.build .line 3) {} 7).withFailures frequentFailures

theorem run_faultyLine : Run CrashFree (build (.build .line 3) {} 7) faultyLine := by
  have hbuild := CrashFree.build (.build .line 3) {} 7
  exact .step (.start hbuild) (.withFailures ..) (hbuild.withFailures _)

/-- The first tick takes the power of the first node of the line, and the others stay connected. -/
theorem victim_selection_faultyLine : ∃ net' e rest,
    faultyLine.queue.pop? = some (e, rest) ∧ e.event = .failureTick ∧
      faultyLine.next (Time.ofMillis 500) = .moved net' ∧
      faultyLine.victim? frequentFailures = some 0 ∧
      TickOutcome frequentFailures e.time faultyLine net' ∧ faultyLine.downCount ≤ 2 := by
  have hpop : (faultyLine.queue.pop?.any fun p => p.1.event = .failureTick) = true := by
    decide
  have hmoves : (match faultyLine.next (Time.ofMillis 500) with
      | .moved _ => true
      | _ => false) = true := by
    decide +kernel
  obtain ⟨⟨e, rest⟩, hp, he⟩ := (Option.any_eq_true _ _).1 hpop
  have he : e.event = .failureTick := of_decide_eq_true he
  have hroom : ∀ f ∈ faultyLine.failures, f.maxConcurrent ≤ 2 := by decide
  have hnone : ∀ f ∈ (build (.build .line 3) {} 7).failures, f.maxConcurrent ≤ 2 := by simp
  have hcapped : Run (fun net => net.CrashFree ∧ ∀ f ∈ net.failures, f.maxConcurrent ≤ 2)
      (build (.build .line 3) {} 7) faultyLine :=
    .step (.start ⟨.build _ _ _, hnone⟩) (.withFailures ..) ⟨run_faultyLine.last, hroom⟩
  obtain ⟨htick, hcount⟩ := victim_selection (run_faultyLine.mono fun _ _ => trivial)
  split at hmoves
  · next net' hn =>
    exact ⟨net', e, rest, hp, he, hn, by decide +kernel, htick _ _ e rest _ hp he rfl hn,
      hcount 2 hcapped⟩
  · cases hmoves

end Network

end TokenMesh
