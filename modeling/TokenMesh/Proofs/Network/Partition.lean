import TokenMesh.Proofs.Network.Victim

namespace TokenMesh

/-!
# Partitions

Failure injection takes the power of no node that the others cannot do without, but a node that is
switched on again may find all its neighbors without power.  So the nodes with power can be cut off
from each other, though never by a failure.

* `Network.LatestCrash`: the state right after the latest crash of a run;
* `Network.CameBackAlone`: a node has been switched on among neighbors without power;
* `Network.Standing`: what is left of the connected network that the latest crash has left;
* `Network.standing_of_run`: without planned crashes there is always such a remainder;
* `Network.partition_faultyLine`: the two ends of a line, cut off by the failure of its middle;
* `Network.live_network`: how far the nodes with power are connected.
-/

namespace Topology

/-- Without marks all nodes are up. -/
theorem isUp_nil {t : Topology} {i : Nat} : t.IsUp [] i ↔ i < t.nodeCount := by
  simp [IsUp, isMarked]

/-- A node that is linked to one of some connected nodes is connected to all of them. -/
theorem Joined.through {t : Topology} {up : Nat → Prop} {a b c : Nat} (ha : up a)
    (hl : t.isLinked a b = true) (h : t.Joined up b c) : t.Joined up a c :=
  (single ha h.left hl).trans h

end Topology

namespace Network

variable {start mid net net' : Network} {i j : Nat}

/-! ### The latest crash -/

/-- The state right after the latest crash of a run, or its start if there has been none. -/
structure LatestCrash (start mid net : Network) : Prop where
  before : Run CrashFree start mid
  after : Run CrashFree mid net
  crashes : net.metrics.crashes = mid.metrics.crashes
  fresh : mid = start ∨ ∃ last, Run CrashFree start last ∧ Step last mid ∧
    last.metrics.crashes < mid.metrics.crashes

/-- In the course of a run a node has been switched on again while none of its neighbors had
power. -/
def CameBackAlone (mid net : Network) (i : Nat) : Prop :=
  ∃ before after, Run CrashFree mid before ∧ Step before after ∧ Run CrashFree after net ∧
    ¬ before.Powered i ∧ after.Powered i ∧
    ∀ j, before.topology.isLinked i j = true → ¬ before.Powered j

/-- What is left of the network that the latest crash has left.  All that had power then is still
connected, and whatever else has power is connected to it, or to a node that has come back alone. -/
structure Standing (start mid net : Network) : Prop where
  latest : LatestCrash start mid net
  whole : mid.Whole
  kept : ∀ a b, mid.Powered a → mid.Powered b → net.topology.Joined net.Powered a b
  anchored : ∀ a, net.Powered a →
    ∃ c, net.topology.Joined net.Powered a c ∧ (mid.Powered c ∨ CameBackAlone mid net c)

theorem LatestCrash.step (h : LatestCrash start mid net) (hs : Step net net')
    (hfree : net'.CrashFree) (hc : net'.metrics.crashes = net.metrics.crashes) :
    LatestCrash start mid net' where
  before := h.before
  after := h.after.step hs hfree
  crashes := hc.trans h.crashes
  fresh := h.fresh

theorem CameBackAlone.step (h : CameBackAlone mid net i) (hs : Step net net')
    (hfree : net'.CrashFree) : CameBackAlone mid net' i := by
  obtain ⟨before, after, hbefore, hback, hafter, halone⟩ := h
  exact ⟨before, after, hbefore, hback, hafter.step hs hfree, halone⟩

namespace Standing

/-- Where the latest crash has just happened, everything stands. -/
theorem refl (h : LatestCrash start net net) (hwhole : net.Whole) : Standing start net net where
  latest := h
  whole := hwhole
  kept := hwhole
  anchored a ha := ⟨a, .refl ha, .inl ha⟩

/-- What stands goes on to stand when nobody loses power, as long as whoever gets it is next to
somebody who has it, or comes back alone. -/
theorem step (h : Standing start mid net) (hs : Step net net') (hfree : net'.CrashFree)
    (hc : net'.metrics.crashes = net.metrics.crashes)
    (hl : ∀ i j, net'.topology.isLinked i j = net.topology.isLinked i j)
    (hup : ∀ j, net.Powered j → net'.Powered j)
    (hnew : ∀ j, net'.Powered j → net.Powered j ∨
      (∃ k, net.topology.isLinked j k = true ∧ net.Powered k) ∨ CameBackAlone mid net' j) :
    Standing start mid net' := by
  have hjoined : ∀ a b, net.topology.Joined net.Powered a b →
      net'.topology.Joined net'.Powered a b :=
    fun a b hab => hab.mono (fun i j hij => (hl i j).trans hij) hup
  have hanchor : ∀ a, net.Powered a → ∃ c, net'.topology.Joined net'.Powered a c ∧
      (mid.Powered c ∨ CameBackAlone mid net' c) := by
    intro a ha
    obtain ⟨c, hac, hc⟩ := h.anchored a ha
    exact ⟨c, hjoined a c hac, hc.imp_right fun hc => hc.step hs hfree⟩
  refine ⟨h.latest.step hs hfree hc, h.whole, fun a b ha hb => hjoined a b (h.kept a b ha hb), ?_⟩
  intro a ha
  rcases hnew a ha with hold | ⟨k, hlink, hk⟩ | halone
  · exact hanchor a hold
  · obtain ⟨c, hkc, hc⟩ := hanchor k hk
    exact ⟨c, .through ha ((hl a k).trans hlink) hkc, hc⟩
  · exact ⟨a, .refl ha, .inr halone⟩

/-- Where nobody has come back alone, all nodes with power are connected. -/
theorem whole_of_nobody_alone (h : Standing start mid net)
    (hnobody : ∀ i, ¬ CameBackAlone mid net i) : net.Whole := by
  intro a b ha hb
  obtain ⟨c, hac, hc⟩ := h.anchored a ha
  obtain ⟨d, hbd, hd⟩ := h.anchored b hb
  have hcd := h.kept c d (hc.resolve_right (hnobody c)) (hd.resolve_right (hnobody d))
  exact (hac.trans hcd).trans hbd.symm

end Standing

/-! ### Runs without planned crashes -/

section run

variable {P : Network → Prop} {t : Topology} {s : ProtocolSettings} {seed : UInt64}

/-- Where no node is without power, all of them are connected as they are at the start. -/
theorem whole_of_downCount (hr : Run P (build t s seed) net)
    (ht : t.isConnectedWithout? [] = some true) (hd : net.downCount = 0) : net.Whole := by
  have hplaced := placed_of_run hr
  have hconn := (Topology.connects_iff ht).1 rfl
  refine (Topology.connects_congr hplaced.linked fun i => ?_).2 hconn
  rw [Topology.isUp_nil]
  constructor
  · rintro ⟨n, hn, _⟩
    exact hplaced.lt_of_node? hn
  · intro hi
    obtain ⟨n, hn⟩ := hplaced.exists_node hi
    have hnone := List.countP_eq_zero.1 hd n (mem_nodes_iff.2 ⟨i, hn⟩)
    exact ⟨n, hn, by simpa using hnone⟩

/-- Without planned crashes, something always stands. -/
theorem standing_of_run (ht : t.isConnectedWithout? [] = some true)
    (hr : Run CrashFree (build t s seed) net) : ∃ mid, Standing (build t s seed) mid net := by
  have hstart : Run CrashFree (build t s seed) (build t s seed) := .start (.build t s seed)
  refine hr.power_invariant (fun net => ∃ mid, Standing (build t s seed) mid net)
    (fun _ h => h) ?_ ?_
  · exact ⟨_, .refl ⟨hstart, hstart, rfl, .inl rfl⟩
      (whole_of_downCount hstart ht (downCount_build t s seed))⟩
  · intro net net' hr hs hr' hpower ⟨mid, h⟩
    have hl : ∀ i j, net'.topology.isLinked i j = net.topology.isLinked i j := fun i j =>
      ((placed_of_run hr').linked i j).trans ((placed_of_run hr).linked i j).symm
    cases hpower with
    | same hflags hc =>
      have hpowered : ∀ j, net'.Powered j ↔ net.Powered j := by
        intro j
        rw [powered_iff, powered_iff, hflags]
      exact ⟨mid, h.step hs hr'.last hc hl (fun j => (hpowered j).2)
        fun j hj => .inl ((hpowered j).1 hj)⟩
    | back i hi hflags hc =>
      have hpowered : ∀ j, net'.Powered j ↔ net.Powered j ∨ j = i := by
        intro j
        rw [powered_iff, hflags, getElem?_set_false_iff hi]
      have hdown : ¬ net.Powered i := by
        rw [powered_iff, hi]
        simp
      refine ⟨mid, h.step hs hr'.last hc hl (fun j hj => (hpowered j).2 (.inl hj)) ?_⟩
      intro j hj
      rcases (hpowered j).1 hj with hold | rfl
      · exact .inl hold
      -- somebody is there to come back to, or nobody
      by_cases hnear : ∃ k, net.topology.isLinked j k = true ∧ net.Powered k
      · exact .inr (.inl hnear)
      · have halone : ∀ k, net.topology.isLinked j k = true → ¬ net.Powered k :=
          fun k hlink hk => hnear ⟨k, hlink, hk⟩
        exact .inr (.inr ⟨net, net', h.latest.after, hs, .start hr'.last, hdown, hj, halone⟩)
    | failed i hf hroom hi hflags hc hwhole =>
      have hlatest : LatestCrash (build t s seed) net' net' :=
        ⟨hr', .start hr'.last, rfl, .inr ⟨net, hr, hs, by omega⟩⟩
      exact ⟨net', .refl hlatest hwhole⟩

/-- Where no two nodes may be without power at once, all nodes with power are always connected. -/
theorem whole_of_single (ht : t.isConnectedWithout? [] = some true)
    (hr : Run (fun net => net.CrashFree ∧ ∀ f ∈ net.failures, f.maxConcurrent ≤ 1)
      (build t s seed) net) : net.Whole := by
  have hstart : Run (fun _ => True) (build t s seed) (build t s seed) := .start trivial
  refine hr.power_invariant Whole (fun _ h => h.1) ?_ ?_
  · exact whole_of_downCount hstart ht (downCount_build t s seed)
  · intro net net' hr hs hr' hpower hwhole
    cases hpower with
    | same hflags hc =>
      refine (Topology.connects_congr ?_ fun j => ?_).2 hwhole
      · exact fun i j => ((placed_of_run hr').linked i j).trans ((placed_of_run hr).linked i j).symm
      · rw [powered_iff, powered_iff, hflags]
    | back i hi hflags hc =>
      -- the node was the only one without power
      have hone := downCount_of_set_false hi hflags
      have hcap := downCount_le_of_run hr
      exact whole_of_downCount hr' ht (by omega)
    | failed i hf hroom hi hflags hc hwhole' => exact hwhole'

end run

/-! ### The line of relays -/

/-- The first node of the line fails, then the second one, and then the first one comes back. -/
theorem exists_end_faultyLine : ∃ net,
    faultyLine.runUntil (Time.ofMillis 1300) 100 = .ok net ∧
      Run CrashFree (build (.build .line 3) {} 7) net ∧
      net.downFlags = [false, true, false] ∧
      net.topology.isConnectedWithout? net.downFlags = some false := by
  obtain ⟨net, hrun, hp⟩ := exists_of_endsWith
    (p := fun net => net.downFlags = [false, true, false] &&
      net.topology.isConnectedWithout? net.downFlags = some false)
    (by decide +kernel : faultyLine.endsWith (Time.ofMillis 1300) 100 _ = true)
  obtain ⟨hflags, hanswer⟩ := Bool.and_eq_true_iff.1 hp
  exact ⟨net, hrun, run_faultyLine.runUntil_of_crashFree hrun, of_decide_eq_true hflags,
    of_decide_eq_true hanswer⟩

/-- The line is closed and connected, and no crash is planned.  In the end both of its ends have
power, and they are not connected. -/
theorem partition_faultyLine :
    (Topology.build .line 3).Closed ∧
    (Topology.build .line 3).isConnectedWithout? [] = some true ∧
    ∃ net, Run CrashFree (build (.build .line 3) {} 7) net ∧ net.Powered 0 ∧ net.Powered 2 ∧
      ¬ net.topology.Joined net.Powered 0 2 ∧
      net.topology.isConnectedWithout? net.downFlags = some false := by
  obtain ⟨net, _, hr, hflags, hanswer⟩ := exists_end_faultyLine
  have hfirst : net.Powered 0 := by
    rw [powered_iff, hflags]
    rfl
  have hlast : net.Powered 2 := by
    rw [powered_iff, hflags]
    rfl
  refine ⟨by decide, by decide +kernel, net, hr, hfirst, hlast, ?_, hanswer⟩
  have hends : ∀ a, net.Powered a → a = 0 ∨ a = 2 := by
    intro a ha
    rw [powered_iff, hflags] at ha
    obtain ⟨hlt, hmark⟩ := List.getElem?_eq_some_iff.1 ha
    match a with
    | 0 => exact .inl rfl
    | 1 => cases hmark
    | 2 => exact .inr rfl
  -- a path between the two ends would connect all that has power
  intro hjoined
  have hwhole : net.Whole := by
    intro a b ha hb
    rcases hends a ha with rfl | rfl <;> rcases hends b hb with rfl | rfl
    · exact .refl ha
    · exact hjoined
    · exact hjoined.symm
    · exact .refl ha
  exact Bool.false_ne_true ((connects_downFlags (nodeCount_eq_size hr) hanswer).2 hwhole)

/-! ### How far the nodes with power are connected -/

/-- Take a closed topology that is connected, and no planned crashes.  The question whether the
nodes with power are connected always has an answer, and it is right.  All nodes that had power
right after the latest crash were connected then and still are, whatever else has power is connected
to one of them or to a node that has come back alone since, and so all nodes with power are
connected unless some node has come back alone.  Where no two nodes may be without power at once,
they always are. -/
theorem live_network {t : Topology} {s : ProtocolSettings} {seed : UInt64} (hc : t.Closed)
    (ht : t.isConnectedWithout? [] = some true) (hr : Run CrashFree (build t s seed) net) :
    (∃ answer, net.topology.isConnectedWithout? net.downFlags = some answer ∧
      (answer = true ↔ net.Whole)) ∧
    (∃ mid, Standing (build t s seed) mid net ∧
      ((∀ i, ¬ CameBackAlone mid net i) → net.Whole)) ∧
    (Run (fun net => net.CrashFree ∧ ∀ f ∈ net.failures, f.maxConcurrent ≤ 1) (build t s seed) net →
      net.Whole) := by
  obtain ⟨answer, hanswer⟩ :=
    Topology.exists_isConnectedWithout? (closed_of_run hr hc) net.downFlags
  obtain ⟨mid, hmid⟩ := standing_of_run ht hr
  exact ⟨⟨answer, hanswer, connects_downFlags (nodeCount_eq_size hr) hanswer⟩,
    ⟨mid, hmid, hmid.whole_of_nobody_alone⟩, whole_of_single ht⟩

/-- The line is not connected, so one of its nodes has come back alone after the latest crash. -/
theorem live_network_faultyLine : ∃ net mid i,
    faultyLine.runUntil (Time.ofMillis 1300) 100 = .ok net ∧ ¬ net.Whole ∧
      Standing (build (.build .line 3) {} 7) mid net ∧ CameBackAlone mid net i := by
  obtain ⟨net, hrun, hr, _, hanswer⟩ := exists_end_faultyLine
  obtain ⟨⟨answer, hsome, hiff⟩, ⟨mid, hmid, halone⟩, _⟩ :=
    live_network (by decide) (by decide +kernel) hr
  obtain rfl := Option.some.inj (hanswer.symm.trans hsome)
  have hcut : ¬ net.Whole := fun hwhole => Bool.false_ne_true (hiff.2 hwhole)
  obtain ⟨i, hi⟩ := not_forall_not.1 fun hnobody => hcut (halone hnobody)
  exact ⟨net, mid, i, hrun, hcut, hmid, hi⟩

end Network

end TokenMesh
