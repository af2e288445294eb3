import TokenMesh.Proofs.Network.Cuts
import TokenMesh.Proofs.Network.Timers
import TokenMesh.Proofs.Node.Timers

namespace TokenMesh

/-!
# Keeping to a chronicle

A network of one node, whose power is cut again and again, keeps to the chronicle of the cuts with
every event that it processes.

* `Network.rises`, `Network.cutAnswers`: when a count goes up, and whether cuts were granted;
* `Network.follow_of_unheard`: what a node multicasts that nobody hears is only counted;
* `Network.Abides`: a network that has kept to a chronicle so far;
* `Network.Keeping.periodic`, `Network.Keeping.restart`, `Network.Keeping.cut`: what each kind of
  event does;
* `Network.Abides.next`: any event.
-/

/-- Whether a notice says that a cut was granted or that it was refused. -/
def Notice.cutAnswer? : Notice → Option Bool
  | node _ (.poweringDown _) => some true
  | notCrashed _ _ => some false
  | _ => none

namespace Network

/-! ### What is observed -/

/-- Whether cuts were granted, in the order in which they were tried. -/
def cutAnswers (net : Network) : List Bool := net.reports.filterMap Notice.cutAnswer?

/-- How often the first node was switched on again. -/
def restarts (net : Network) : Nat := (net.node? 0).elim 0 (·.counters.restarts)

/-- The instant of a step, as often as a count goes up in it. -/
def rises (count : Network → Nat) (net net' : Network) : List Nat :=
  List.replicate (count net' - count net) net'.clock

theorem cutAnswers_tell (net : Network) (notices : List Notice) :
    (net.tell notices).cutAnswers = net.cutAnswers ++ notices.filterMap Notice.cutAnswer? := by
  simp [cutAnswers, reports]

/-! ### What a node without neighbors does -/

/-- What a node multicasts that nobody hears is only counted. -/
theorem route_of_unheard {net : Network} {i : Nat} (h : net.topology.neighbors i = [])
    {sends : List Outbound} (hs : ∀ out ∈ sends, out.isMulticast = true) :
    ∃ metrics, net.route i sends = { net with metrics := metrics } := by
  unfold route
  induction sends generalizing net with
  | nil => exact ⟨net.metrics, rfl⟩
  | cons out sends ih =>
    have hsend : send i net out = net.recordSent out.message := by
      cases out with
      | unicast peer m => exact absurd (hs _ List.mem_cons_self) (by simp [Outbound.isMulticast])
      | multicast m =>
        have hm : (net.recordSent m).topology.neighbors i = [] := h
        simp [send, hm, Outbound.message]
    rw [List.foldl_cons, hsend]
    exact ih h fun out hout => hs out (List.mem_cons_of_mem _ hout)

/-- A node that nobody hears reacts, and what it multicasts is only counted. -/
theorem follow_of_unheard {net : Network} {i : Nat} {r : Reaction}
    (h : net.topology.neighbors i = []) (hr : ∀ out ∈ r.sends, out.isMulticast = true) :
    ∃ metrics, net.follow i r = { net.absorb i r with metrics := metrics } ∧
      ∀ k, metrics.sentOf k = net.metrics.sentOf k + r.sends.countP (·.message.kind = k) := by
  have hunheard : (net.absorb i r).topology.neighbors i = [] := h
  obtain ⟨metrics, hroute⟩ := route_of_unheard hunheard hr
  refine ⟨metrics, hroute, ?_⟩
  intro k
  have hsent := sentOf_route (net.absorb i r) i r.sends k
  rw [hroute] at hsent
  exact hsent

/-! ### Keeping to a chronicle -/

/-- All of a network of one node but what waits has kept to a chronicle so far: what was sent was
    sent before `seen`, the timers are set for `announce` and `beacon`, and the cuts of a plan are
    still to come. -/
structure Keeping (s : ProtocolSettings) (c : Chronicle) (seen : Nat) (plan : List (Cut × Nat))
    (announces beacons starts : List Nat) (m : Member) (announce beacon : Nat) (net : Network) :
    Prop where
  settings : net.settings = s
  unheard : net.topology.neighbors 0 = []
  seen_le : seen ≤ net.clock + 1
  late : ∀ x ∈ net.pending, net.clock ≤ x.time
  planned : plan.Pairwise fun p q => p.1.time < q.1.time ∨ p.1.time = q.1.time ∧ p.2 < q.2
  numbered : ∀ p ∈ plan, p.2 < net.nextSeq
  quiet : c.Clear s (plan.map Prod.fst)
  member : net.members[0]? = some m
  power : m.node.power = c.phase.power
  keeps : c.Keeps s seen announce beacon announces beacons
  starts : starts = c.starts
  answers : net.cutAnswers = c.answers

/-- A network of one node, in which the cuts of a plan are still to come, has kept to a chronicle so
    far. -/
def Abides (s : ProtocolSettings) (c : Chronicle) (seen : Nat) (plan : List (Cut × Nat))
    (announces beacons starts : List Nat) (net : Network) : Prop :=
  ∃ m announce beacon, Keeping s c seen plan announces beacons starts m announce beacon net ∧
    Waits net.pending c.phase plan m.generation announce beacon

/-- The same after an event, with all that has been counted in it. -/
def Advances (s : ProtocolSettings) (c : Chronicle) (seen : Nat) (plan : List (Cut × Nat))
    (announces beacons starts : List Nat) (net net' : Network) : Prop :=
  ∃ ka kb kr, Abides s c seen plan (announces ++ List.replicate ka net'.clock)
      (beacons ++ List.replicate kb net'.clock) (starts ++ List.replicate kr net'.clock) net' ∧
    net'.metrics.sentOf .announce = net.metrics.sentOf .announce + ka ∧
    net'.metrics.sentOf .beacon = net.metrics.sentOf .beacon + kb ∧
    net'.restarts = net.restarts + kr

section keeping

variable {s : ProtocolSettings} {c : Chronicle} {seen seen' a b a' b' limit : Nat}
  {plan : List (Cut × Nat)} {announces beacons announces' beacons' starts : List Nat}
  {net net' : Network} {m : Member}

theorem restarts_of_member (h : net.members[0]? = some m) :
    net.restarts = m.node.counters.restarts := by
  simp [restarts, node?, h]

/-- A timer is not what answers a request for a cut. -/
theorem cutAnswers_timer (n : Node) (kind : TimerKind) (now : Nat) :
    (n.handle kind.event now).notices.filterMap Notice.cutAnswer? = [] := by
  have hsweep : ∀ n : Node, (n.sweepNotices now).filterMap Notice.cutAnswer? = [] := by
    intro n
    rw [List.filterMap_eq_nil_iff]
    intro x hx
    obtain ⟨_, _, rfl⟩ := List.mem_map.1 hx
    rfl
  show ((n.react kind.event now).swept now).notices.filterMap _ = []
  rw [Reaction.swept, List.filterMap_append, hsweep, List.append_nil]
  cases kind with
  | announce =>
    show n.onAnnounceTimer.notices.filterMap _ = []
    unfold Node.onAnnounceTimer
    split <;> rfl
  | beacon =>
    show n.onBeaconTimer.notices.filterMap _ = []
    unfold Node.onBeaconTimer
    split <;> rfl
  | restart =>
    show n.onRestartTimer.notices.filterMap _ = []
    unfold Node.onRestartTimer
    split <;> rfl

theorem cutAnswers_absorb (net : Network) (n : Node) (kind : TimerKind) :
    (net.absorb 0 (n.handle kind.event net.clock)).cutAnswers = net.cutAnswers := by
  have htell := cutAnswers_tell (net.setNode 0 (n.handle kind.event net.clock).node)
    (n.handle kind.event net.clock).notices
  rwa [cutAnswers_timer, List.append_nil] at htell

theorem Abides.watch (h : Abides s c seen plan announces beacons starts net) :
    Abides s c seen plan announces beacons starts net.watch := by
  obtain ⟨m, a, b, hkeeping, hwaits⟩ := h
  rw [watch_eq]
  exact ⟨m, a, b, { hkeeping with }, hwaits⟩

/-- When an event is taken out of the queue, the clock shows its time. -/
theorem Abides.turnTo {e : Scheduled Occurrence} {rest : EventQueue Occurrence}
    (h : Abides s c seen plan announces beacons starts net)
    (hp : net.queue.pop? = some (e, rest)) :
    ∃ m a b, Keeping s c seen plan announces beacons starts m a b (net.turnTo e rest) ∧
      (net.turnTo e rest).clock = e.time ∧
      Next c.phase plan m.generation a b (net.turnTo e rest).pending e := by
  obtain ⟨m, a, b, hkeeping, hwaits⟩ := h
  have hpending := pending_of_pop? hp
  have htime : net.clock ≤ e.time := hkeeping.late e (hpending.mem_iff.2 List.mem_cons_self)
  have hclock : (net.turnTo e rest).clock = e.time := Nat.max_eq_right htime
  have hlate : ∀ x ∈ (net.turnTo e rest).pending, (net.turnTo e rest).clock ≤ x.time := by
    intro x hx
    rw [hclock]
    exact time_le_of_pop? hp (hpending.mem_iff.2 (List.mem_cons_of_mem _ hx))
  refine ⟨m, a, b, { hkeeping with late := hlate, seen_le := ?_ }, hclock, ?_⟩
  · rw [hclock]
    exact Nat.le_trans hkeeping.seen_le (Nat.succ_le_succ htime)
  · exact (hwaits.perm hpending.symm).next
      (fun x hx => isBefore_of_pop? hp (hpending.mem_iff.2 hx)) hkeeping.planned

/-- What has to be shown of an event: all else about a network stays as it is. -/
theorem Keeping.change {c' : Chronicle} {plan' : List (Cut × Nat)} {starts' : List Nat}
    {m' : Member} (h : Keeping s c seen plan announces beacons starts m a b net)
    (added : List (Scheduled Occurrence)) (hframe : net' = { net with
      members := net'.members, queue := net'.queue, nextSeq := net'.nextSeq
      metrics := net'.metrics, journal := net'.journal })
    (hseq : net.nextSeq ≤ net'.nextSeq) (hpending : net'.pending.Perm (added ++ net.pending))
    (hadded : ∀ x ∈ added, net.clock ≤ x.time)
    (hplan : plan'.Sublist plan) (hquiet : c'.Clear s (plan'.map Prod.fst))
    (hmember : net'.members[0]? = some m') (hpower : m'.node.power = c'.phase.power)
    (hseen : seen' ≤ net.clock + 1) (hkeeps : c'.Keeps s seen' a' b' announces' beacons')
    (hstarts : starts' = c'.starts) (hanswers : net'.cutAnswers = c'.answers) :
    Keeping s c' seen' plan' announces' beacons' starts' m' a' b' net' where
  settings := by rw [hframe]; exact h.settings
  unheard := by rw [hframe]; exact h.unheard
  seen_le := by rw [hframe]; exact hseen
  late x hx := by
    rw [hframe]
    exact (List.mem_append.1 (hpending.mem_iff.1 hx)).elim (hadded x) (h.late x)
  planned := h.planned.sublist hplan
  numbered p hp := Nat.lt_of_lt_of_le (h.numbered p (hplan.subset hp)) hseq
  quiet := hquiet
  member := hmember
  power := hpower
  keeps := hkeeps
  starts := hstarts
  answers := hanswers

/-- A periodic timer fires and is set again. -/
theorem Keeping.beat {kind : TimerKind} {after : Nat}
    (h : Keeping s c seen plan announces beacons starts m a b net) (hkind : kind ≠ .restart)
    (hwaits : ∀ seq, Waits (⟨net.clock + after, seq, .timer 0 kind m.generation⟩ :: net.pending)
      c.phase plan m.generation a' b')
    (hseen : seen' ≤ net.clock + 1) (hkeeps : c.Keeps s seen' a' b' announces' beacons') :
    let r := m.node.handle kind.event net.clock
    let net' := (net.follow 0 r).setTimer 0 kind m.generation after
    Abides s c seen' plan announces' beacons' starts net' ∧ net'.clock = net.clock ∧
      net'.restarts = net.restarts ∧
      ∀ k, net'.metrics.sentOf k = net.metrics.sentOf k + r.sends.countP (·.message.kind = k) := by
  intro r net'
  have hsteady := m.node.steady_handle (TimerKind.event_ne_restartTimer hkind) net.clock
  obtain ⟨metrics, hfollow, hsent⟩ := follow_of_unheard h.unheard
    (m.node.multicasts_timer kind net.clock)
  have heq : net' = ({ net.absorb 0 r with metrics := metrics } : Network).setTimer 0 kind
      m.generation after := by
    rw [← hfollow]
  have hmember : net'.members[0]? = some { m with node := r.node } := by
    rw [heq]
    exact getElem?_members_setNode_of_some net 0 _ h.member 0
  have hpending : net'.pending.Perm
      (⟨net.clock + after, net.nextSeq, .timer 0 kind m.generation⟩ :: net.pending) := by
    rw [heq]
    exact pending_schedule ..
  have hanswers : net'.cutAnswers = net.cutAnswers := by
    rw [heq]
    exact cutAnswers_absorb net m.node kind
  have hkept : Keeping s c seen' plan announces' beacons' starts { m with node := r.node } a' b'
      net' :=
    h.change [_] (by rw [heq]; rfl) (by rw [heq]; exact Nat.le_succ _) hpending (by simp) (.refl _)
      h.quiet hmember (hsteady.power.trans h.power) hseen hkeeps h.starts
      (hanswers.trans h.answers)
  refine ⟨⟨_, a', b', hkept, (hwaits _).perm hpending⟩, by rw [heq]; rfl, ?_, ?_⟩
  · rw [restarts_of_member hmember, restarts_of_member h.member, hsteady.restarts]
  · intro k
    rw [heq]
    exact hsent k

/-- The restart timer fires, and the next generation of timers is set. -/
theorem Keeping.restart {till : Nat}
    (h : Keeping s c seen plan announces beacons starts m a b net) (hphase : c.phase = .off till)
    (htime : net.clock = till) (hplan : ∀ p ∈ plan, till < p.1.time)
    (hwaits : ∀ since a sa b sb, Waits (⟨b, sb, .timer 0 .beacon (m.generation + 1)⟩ ::
      ⟨a, sa, .timer 0 .announce (m.generation + 1)⟩ :: net.pending)
      (.on since) plan (m.generation + 1) a b) :
    Advances s (c.restore till) seen plan announces beacons starts net (net.restart 0 m) := by
  let net' := net.restart 0 m
  have hpower := h.power
  rw [hphase] at hpower
  have hdown := Node.isDown_of_power hpower
  let r := m.node.handle .restartTimer net.clock
  have hup : r.node.power = .on ∧ r.node.counters.restarts = m.node.counters.restarts + 1 :=
    Node.power_restart hdown net.clock
  have hnone : r.sends = [] := by
    have hsends := m.node.sends_timer .restart net.clock
    rwa [if_pos hdown] at hsends
  have heq : net' = ((net.absorb 0 r).nextGeneration 0).setBootTimers 0 (m.generation + 1) := by
    rw [← follow_of_silent hnone]
    exact restart_eq ..
  have hmember : net'.members[0]? = some ⟨r.node, m.generation + 1⟩ := by
    have hset := getElem?_members_setNode_of_some net 0 r.node h.member 0
    rw [heq]
    show ((net.setNode 0 r.node).nextGeneration 0).members[0]? = _
    rw [getElem?_members_nextGeneration, if_pos rfl, hset]
    rfl
  have hpending : net'.pending.Perm
      (⟨net.clock + net.settings.beaconPeriod, net.nextSeq + 1,
          .timer 0 .beacon (m.generation + 1)⟩ ::
        ⟨net.clock + net.settings.initialAnnounceDelay, net.nextSeq,
          .timer 0 .announce (m.generation + 1)⟩ :: net.pending) := by
    rw [heq]
    exact (pending_schedule ..).trans (.cons _ (pending_schedule ..))
  have hanswers : net'.cutAnswers = net.cutAnswers := by
    rw [heq]
    exact cutAnswers_absorb net m.node .restart
  have hkeeps : (c.restore till).Keeps s seen (net.clock + net.settings.initialAnnounceDelay)
      (net.clock + net.settings.beaconPeriod) announces beacons := by
    rw [h.settings, htime]
    exact h.keeps.restored hphase seen
  have hquiet : (c.restore till).Clear s (plan.map Prod.fst) := by
    rw [← Chronicle.before_of_lt hphase (Nat.lt_succ_self till)]
    refine h.quiet.before ?_
    intro x hx
    obtain ⟨p, hp, rfl⟩ := List.mem_map.1 hx
    exact hplan p hp
  have hkept : Keeping s (c.restore till) seen plan announces beacons (starts ++ [till])
      ⟨r.node, m.generation + 1⟩ (net.clock + net.settings.initialAnnounceDelay)
      (net.clock + net.settings.beaconPeriod) net' :=
    h.change [_, _] (by rw [heq]; rfl) (by rw [heq]; exact Nat.le_add_right _ 2) hpending (by simp)
      (.refl _) hquiet hmember hup.1 h.seen_le hkeeps (by rw [h.starts]; rfl)
      (hanswers.trans h.answers)
  have hclock : (net.restart 0 m).clock = till := by
    show net'.clock = till
    rw [heq]
    exact htime
  refine ⟨0, 0, 1, ?_, congrArg (·.metrics.sentOf .announce) heq,
    congrArg (·.metrics.sentOf .beacon) heq, ?_⟩
  · have habides : Abides s (c.restore till) seen plan announces beacons (starts ++ [till]) net' :=
      ⟨_, _, _, hkept, (hwaits ..).perm hpending⟩
    simpa [hclock] using habides
  · rw [restarts_of_member h.member, ← hup.2]
    exact restarts_of_member hmember

/-- A cut comes while power is on, and is granted. -/
theorem Keeping.granted {p : Cut × Nat} {since : Nat} {r : Reaction}
    (h : Keeping s c seen (p :: plan) announces beacons starts m a b net)
    (hperiods : 0 < s.announcePeriod ∧ 0 < s.beaconPeriod) (hphase : c.phase = .on since)
    (htime : net.clock = p.1.time) (hannounce : p.1.time ≤ a) (hbeacon : p.1.time ≤ b)
    (hr : m.node.powerDown p.1.length net.clock = .ok r)
    (hwaits : ∀ till sr, (∀ q ∈ plan, q.2 < sr) →
      Waits (⟨till, sr, .timer 0 .restart m.generation⟩ :: net.pending) (.off till) plan
        m.generation a b) :
    Advances s (c.cut p.1) seen plan announces beacons starts net
      (net.crashed 0 m.generation r p.1.length) := by
  let net' := net.crashed 0 m.generation r p.1.length
  have hpower := h.power
  rw [hphase] at hpower
  obtain ⟨r', hr', hnode, -, hnotices⟩ :=
    Node.powerDown_of_up (Node.isDown_eq_false_iff.2 hpower) p.1.length net.clock
  obtain rfl := Except.ok.inj (hr'.symm.trans hr)
  obtain ⟨hne, hne'⟩ := h.keeps.ne_of_clear hperiods hphase h.quiet
  have hcut := Chronicle.cut_of_on hphase p.1
  have hmember : net'.members[0]? = some { m with node := r'.node } :=
    getElem?_members_setNode_of_some net 0 _ h.member 0
  have hpending : net'.pending.Perm
      (⟨net.clock + p.1.length, net.nextSeq, .timer 0 .restart m.generation⟩ :: net.pending) :=
    pending_schedule ..
  have hanswers : net'.cutAnswers = net.cutAnswers ++ [true] := by
    have htell := cutAnswers_tell (net.setNode 0 r'.node) r'.notices
    have hone : r'.notices.filterMap Notice.cutAnswer? = [true] := by
      rw [hnotices]
      rfl
    rw [hone] at htell
    exact htell
  have hwaits := hwaits (net.clock + p.1.length) net.nextSeq
    fun q hq => h.numbered q (List.mem_cons_of_mem _ hq)
  have hkeeps := h.keeps.granted (x := p.1) hperiods hphase (htime ▸ h.seen_le) (by omega)
    (by omega) seen a b
  have hkept : Keeping s (c.cut p.1) seen plan announces beacons starts
      { m with node := r'.node } a b net' :=
    h.change [_] rfl (Nat.le_succ _) hpending (by simp) (List.sublist_cons_self ..) h.quiet.2.2
      hmember (by rw [hcut, hnode, htime]; rfl) h.seen_le hkeeps (by rw [hcut]; exact h.starts)
      (by rw [hcut, hanswers, h.answers])
  have habides : Abides s (c.cut p.1) seen plan announces beacons starts net' := by
    refine ⟨_, a, b, hkept, ?_⟩
    rw [hcut, ← htime]
    exact hwaits.perm hpending
  have hrestarts : net'.restarts = net.restarts := by
    rw [restarts_of_member hmember, restarts_of_member h.member, hnode]
  exact ⟨0, 0, 0, by simpa using habides, rfl, rfl, hrestarts⟩

/-- A cut comes while power is off, and is refused. -/
theorem Keeping.refused {p : Cut × Nat} {till : Nat} {e : Refusal}
    (h : Keeping s c seen (p :: plan) announces beacons starts m a b net)
    (hphase : c.phase = .off till) (hle : p.1.time ≤ till)
    (hwaits : Waits net.pending c.phase plan m.generation a b) :
    Advances s (c.cut p.1) seen plan announces beacons starts net
      (net.tell [.notCrashed 0 e]) := by
  have hcut := Chronicle.cut_of_off hphase hle
  have hkept : Keeping s (c.cut p.1) seen plan announces beacons starts m a b
      (net.tell [.notCrashed 0 e]) :=
    h.change [] rfl (Nat.le_refl _) (.refl _) (by simp) (List.sublist_cons_self ..) h.quiet.2.2
      h.member (by rw [hcut]; exact h.power) h.seen_le (h.keeps.refused hphase hle ..)
      (by rw [hcut]; exact h.starts) (by rw [hcut, cutAnswers_tell, h.answers]; rfl)
  have habides : Abides s (c.cut p.1) seen plan announces beacons starts
      (net.tell [.notCrashed 0 e]) :=
    ⟨m, a, b, hkept, by rw [hcut]; exact hwaits⟩
  exact ⟨0, 0, 0, by simpa using habides, rfl, rfl, rfl⟩

/-- A cut comes, and is granted if and only if power is on. -/
theorem Keeping.cut {p : Cut × Nat}
    (h : Keeping s c seen (p :: plan) announces beacons starts m a b net)
    (hperiods : 0 < s.announcePeriod ∧ 0 < s.beaconPeriod) (htime : net.clock = p.1.time)
    (heffect : Effect net (.action (.crash 0 p.1.length)) net') (hannounce : p.1.time ≤ a)
    (hbeacon : p.1.time ≤ b) (hoff : ∀ till, c.phase = .off till → p.1.time ≤ till)
    (hrefused : Waits net.pending c.phase plan m.generation a b)
    (hgranted : ∀ since till sr, c.phase = .on since → (∀ q ∈ plan, q.2 < sr) →
      Waits (⟨till, sr, .timer 0 .restart m.generation⟩ :: net.pending) (.off till) plan
        m.generation a b) :
    Advances s (c.cut p.1) seen plan announces beacons starts net net' := by
  have hpower := h.power
  cases heffect with
  | noCrash _ hm => rw [h.member] at hm; cases hm
  | crashed hm hr =>
    obtain rfl := Option.some.inj (h.member.symm.trans hm)
    cases hphase : c.phase with
    | on since =>
      exact h.granted hperiods hphase htime hannounce hbeacon hr
        fun till sr => hgranted since till sr hphase
    | off till =>
      rw [hphase] at hpower
      rw [Node.powerDown_of_down (Node.isDown_of_power hpower)] at hr
      cases hr
  | notCrashed hm hr =>
    obtain rfl := Option.some.inj (h.member.symm.trans hm)
    cases hphase : c.phase with
    | on since =>
      rw [hphase] at hpower
      obtain ⟨r, hr', -⟩ := Node.powerDown_of_up (Node.isDown_eq_false_iff.2 hpower) p.1.length
        net.clock
      rw [hr'] at hr
      cases hr
    | off till => exact h.refused hphase (hoff till hphase) hrefused

/-- A periodic timer fires: its message is sent if power is on. -/
theorem Keeping.periodic {kind : TimerKind} (after ka kb : Nat)
    (h : Keeping s c seen plan announces beacons starts m a b net) (hkind : kind ≠ .restart)
    (hafter : net.fireTimer 0 m kind = (net.follow 0
      (m.node.handle kind.event net.clock)).setTimer 0 kind m.generation after)
    (hwaits : ∀ seq, Waits (⟨net.clock + after, seq, .timer 0 kind m.generation⟩ :: net.pending)
      c.phase plan m.generation a' b')
    (hkeeps : ∀ since, c.phase = .on since → c.Keeps s (net.clock + 1) a' b'
      (announces ++ List.replicate ka net.clock) (beacons ++ List.replicate kb net.clock))
    (hsent : m.node.isDown = false →
      (m.node.handle kind.event net.clock).sends.countP (·.message.kind = .announce) = ka ∧
        (m.node.handle kind.event net.clock).sends.countP (·.message.kind = .beacon) = kb) :
    Advances s c (net.clock + 1) plan announces beacons starts net (net.fireTimer 0 m kind) := by
  have hpower := h.power
  rw [hafter]
  cases hphase : c.phase with
  | on since =>
    rw [hphase] at hpower
    obtain ⟨hka, hkb⟩ := hsent (Node.isDown_eq_false_iff.2 hpower)
    obtain ⟨hkept, hclock, hrestarts, hcount⟩ := h.beat hkind hwaits (Nat.le_refl _)
      (hkeeps since hphase)
    refine ⟨ka, kb, 0, ?_, hka ▸ hcount .announce, hkb ▸ hcount .beacon, hrestarts⟩
    rw [hclock]
    simpa using hkept
  | off till =>
    rw [hphase] at hpower
    have hsends := m.node.sends_timer kind net.clock
    rw [if_pos (Node.isDown_of_power hpower)] at hsends
    obtain ⟨hkept, -, hrestarts, hcount⟩ := h.beat hkind hwaits (Nat.le_refl _)
      (h.keeps.idle hphase ..)
    rw [hsends] at hcount
    exact ⟨0, 0, 0, by simpa using hkept, hcount .announce, hcount .beacon, hrestarts⟩

theorem Keeping.announce (h : Keeping s c seen plan announces beacons starts m a b net)
    (htime : net.clock = a)
    (hwaits : ∀ t seq, Waits (⟨t, seq, .timer 0 .announce m.generation⟩ :: net.pending) c.phase
      plan m.generation t b) :
    Advances s c (net.clock + 1) plan announces beacons starts net
      (net.fireTimer 0 m .announce) := by
  have hsettings : (net.follow 0 (m.node.handle .announceTimer net.clock)).settings = s :=
    (settings_route ..).trans h.settings
  refine h.periodic s.announcePeriod 1 0 (by simp) (by rw [← hsettings]; rfl) (hwaits _) ?_ ?_
  · intro since hphase
    have hkeeps := h.keeps.announced hphase (htime ▸ h.seen_le)
    rw [← htime] at hkeeps
    simpa using hkeeps
  · intro hup
    rw [m.node.sends_timer, hup]
    exact ⟨rfl, rfl⟩

theorem Keeping.beacon (h : Keeping s c seen plan announces beacons starts m a b net)
    (htime : net.clock = b)
    (hwaits : ∀ t seq, Waits (⟨t, seq, .timer 0 .beacon m.generation⟩ :: net.pending) c.phase
      plan m.generation a t) :
    Advances s c (net.clock + 1) plan announces beacons starts net
      (net.fireTimer 0 m .beacon) := by
  have hsettings : (net.follow 0 (m.node.handle .beaconTimer net.clock)).settings = s :=
    (settings_route ..).trans h.settings
  refine h.periodic s.beaconPeriod 0 1 (by simp) (by rw [← hsettings]; rfl) (hwaits _) ?_ ?_
  · intro since hphase
    have hkeeps := h.keeps.beaconed hphase (htime ▸ h.seen_le)
    rw [← htime] at hkeeps
    simpa using hkeeps
  · intro hup
    rw [m.node.sends_timer, hup]
    exact ⟨rfl, rfl⟩

/-- A timer of a generation that has passed does nothing. -/
theorem Keeping.stale {kind : TimerKind} {g : Nat}
    (h : Keeping s c seen plan announces beacons starts m a b net)
    (heffect : Effect net (.timer 0 kind g) net') (hg : g < m.generation)
    (hwaits : Waits net.pending c.phase plan m.generation a b) :
    Advances s c seen plan announces beacons starts net net' := by
  cases heffect with
  | stale _ _ hm hne => exact ⟨0, 0, 0, by simpa using ⟨m, a, b, h, hwaits⟩, rfl, rfl, rfl⟩
  | fired _ hm =>
    obtain rfl := Option.some.inj (h.member.symm.trans hm)
    exact absurd hg (Nat.lt_irrefl _)

/-- What has been counted in an event is entered at its instant. -/
theorem Advances.enter (h : Advances s c seen plan announces beacons starts net net') :
    Abides s c seen plan (announces ++ rises (·.metrics.sentOf .announce) net net'.watch)
      (beacons ++ rises (·.metrics.sentOf .beacon) net net'.watch)
      (starts ++ rises restarts net net'.watch) net'.watch := by
  obtain ⟨ka, kb, kr, habides, ha, hb, hr⟩ := h
  have hwatch : net'.watch.restarts = net'.restarts := by
    simp only [restarts, node?, members_watch]
  simp only [rises, metrics_watch, clock_watch, hwatch, ha, hb, hr, Nat.add_sub_cancel_left]
  exact habides.watch

/-- **One event.**  The network goes on to keep to the chronicle: what is sent, and when the node is
    switched on again, is entered at the instant of the event. -/
theorem Abides.next (h : Abides s c seen plan announces beacons starts net)
    (hperiods : 0 < s.announcePeriod ∧ 0 < s.beaconPeriod) (hn : net.next limit = .moved net') :
    ∃ c' seen' plan', (∀ p ∈ plan', p ∈ plan) ∧
      ((plan'.map Prod.fst).foldl Chronicle.cut c').before (limit + 1) =
        ((plan.map Prod.fst).foldl Chronicle.cut c).before (limit + 1) ∧
      Abides s c' seen' plan' (announces ++ rises (·.metrics.sentOf .announce) net net')
        (beacons ++ rises (·.metrics.sentOf .beacon) net net')
        (starts ++ rises restarts net net') net' := by
  obtain ⟨e, rest, net₁, hp, hle, heffect, rfl⟩ := exists_effect_of_next hn
  obtain ⟨m, a, b, hkeeping, hclock, hnext⟩ := h.turnTo hp
  -- the event has only been taken out of the queue, so counts from there are counts from `net`
  cases hnext with
  | announce seq hwaits =>
    obtain rfl := effect_fired heffect hkeeping.member
    exact ⟨c, _, plan, fun _ hp => hp, rfl, (hkeeping.announce hclock hwaits).enter⟩
  | beacon seq hwaits =>
    obtain rfl := effect_fired heffect hkeeping.member
    exact ⟨c, _, plan, fun _ hp => hp, rfl, (hkeeping.beacon hclock hwaits).enter⟩
  | @restart till seq hphase hplan hwaits =>
    obtain rfl := effect_fired heffect hkeeping.member
    refine ⟨c.restore till, seen, plan, fun _ hp => hp, ?_,
      (hkeeping.restart hphase hclock hplan hwaits).enter⟩
    rw [← Chronicle.before_of_lt hphase (Nat.lt_succ_self till)]
    refine Chronicle.foldl_cut_before (Nat.succ_le_succ hle) ?_
    intro x hx
    obtain ⟨p, hp, rfl⟩ := List.mem_map.1 hx
    exact hplan p hp
  | @cut p ps hplan hannounce hbeacon hoff hrefused hgranted =>
    subst hplan
    refine ⟨c.cut p.1, seen, ps, fun _ => List.mem_cons_of_mem _, rfl, ?_⟩
    exact (hkeeping.cut hperiods hclock heffect hannounce hbeacon hoff hrefused hgranted).enter
  | @stale e kind g he hg hwaits =>
    rw [he] at heffect
    exact ⟨c, seen, plan, fun _ hp => hp, rfl, (hkeeping.stale heffect hg hwaits).enter⟩

end keeping

end Network

end TokenMesh
