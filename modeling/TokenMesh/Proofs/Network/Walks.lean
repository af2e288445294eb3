import TokenMesh.Proofs.Network.Origin
import TokenMesh.Proofs.Network.Turn
import TokenMesh.Proofs.Network.Work
import TokenMesh.Proofs.Node.Walks

namespace TokenMesh

/-!
# Walks in a network

There are never more walks under way than have been begun: every delivery of data that is processed
puts at most one on the air, whatever is lost, whoever crashes and whatever roles are set.

* `Network.dataInFlight`: how many deliveries of data are on their way;
* `Network.Unforked`: they are no more than there are walks, or messages of data not received yet;
* `Network.Regulated`: all data on its way looks as data on its way should;
* `Network.walks_never_fork`: both hold in every state that a network can get into.
-/

namespace Occurrence

/-- The arrival of a message carries data if and only if the message does. -/
theorem carriesData_of_decode {bytes : List UInt8} {m : Message} (h : Message.decode bytes = .ok m)
    (i : Nat) (sender : Address) :
    (deliver i sender bytes).carriesData = decide (m.kind = .data) := by
  simp only [carriesData, h]
  cases m <;> rfl

theorem isDelivery_of_carriesData {e : Occurrence} (h : e.carriesData = true) :
    e.isDelivery = true := by
  cases e with
  | deliver i sender bytes => rfl
  | timer i kind generation => cases h
  | failureTick => cases h
  | action a => cases h

/-- How many deliveries of data an event is: one, or none. -/
def dataCount (e : Occurrence) : Nat := if e.carriesData then 1 else 0

@[simp] theorem dataCount_of_not_isDelivery {e : Occurrence} (h : e.isDelivery = false) :
    e.dataCount = 0 := by
  refine if_neg fun hdata => ?_
  rw [isDelivery_of_carriesData hdata] at h
  cases h

end Occurrence

/-! ### Turns -/

namespace Node

theorem unforked_handleDatagram (n : Node) (i : Nat) (sender : Address) (bytes : List UInt8)
    (now : Nat) : (n.handleDatagram sender bytes now).Unforked n
      (Occurrence.deliver i sender bytes).dataCount 0 := by
  unfold handleDatagram Occurrence.dataCount
  cases hdec : Message.decode bytes with
  | error e => apply unforked_of_same <;> rfl
  | ok m =>
    simp only [Occurrence.carriesData_of_decode hdec, decide_eq_true_eq]
    exact unforked_swept (n.unforked_onInbound sender m now) now

/-- However a node reacts, it forks no walk. -/
theorem Reacts.unforked {n : Node} {i : Nat} {e : Occurrence} {r : Reaction}
    {os : List Origination} (h : n.Reacts i e r os) : r.Unforked n e.dataCount os.length := by
  cases h with
  | heard sender bytes now => exact n.unforked_handleDatagram i sender bytes now
  | timer kind generation now => exact n.unforked_timer kind now
  | originated h => exact unforked_of_originate h
  | notOriginated h => exact unforked_of_refused h
  | crashed he h =>
    obtain ⟨_, hdown, hsends, _⟩ := powerDown_eq_ok h
    rw [Occurrence.dataCount_of_not_isDelivery he]
    have hsent : r.dataSent = 0 := by rw [Reaction.dataSent, hsends]; rfl
    exact unforked_of_same hsent (by rw [hdown]) (by rw [hdown])
  | roleSet role => exact n.unforked_setRole role

/-- However a node reacts, what it sends is sound, if what it hears is, and if what it originates
    is newer than what all nodes start with. -/
theorem Reacts.sound {n : Node} {i : Nat} {e : Occurrence} {r : Reaction} {os : List Origination}
    (h : n.Reacts i e r os)
    (he : ∀ a bytes m, e = .deliver i a bytes → Message.decode bytes = .ok m →
      m.Sound n.settings.maxHops)
    (hos : ∀ o ∈ os, 1 ≤ o.token.version) : r.Sound n.settings.maxHops := by
  cases h with
  | heard sender bytes now =>
    exact sound_handleDatagram (fun m hm => he sender bytes m rfl hm) sender now
  | timer kind generation now => exact n.sound_timer kind now
  | originated h => exact sound_of_originate h (hos _ List.mem_cons_self)
  | notOriginated h => exact sound_of_silent (originate_eq_error h).2
  | crashed _ h => exact sound_of_silent (powerDown_eq_ok h).2.2.1
  | roleSet role => exact sound_of_silent (n.sends_setRole role)

end Node

namespace Network

/-! ### Data on its way -/

/-- How many deliveries of data are on their way. -/
def dataInFlight (net : Network) : Nat := net.pending.countP (·.event.carriesData)

theorem dataInFlight_eq (net : Network) :
    net.dataInFlight = net.deliveries.countP (·.event.carriesData) := by
  unfold dataInFlight deliveries
  rw [List.countP_filter]
  apply List.countP_congr
  intro x _
  simp only [Bool.and_eq_true]
  exact ⟨fun h => ⟨h, Occurrence.isDelivery_of_carriesData h⟩, fun h => h.1⟩

theorem dataInFlight_congr {net net' : Network} (h : net'.deliveries.Perm net.deliveries) :
    net'.dataInFlight = net.dataInFlight := by
  rw [dataInFlight_eq, dataInFlight_eq, h.countP_eq]

/-- A message adds one delivery of data at most, and none if it is not data. -/
theorem dataInFlight_send_le (net : Network) (i : Nat) {out : Outbound}
    (h : out.isMulticast = out.message.kind.isBroadcast) :
    (send i net out).dataInFlight ≤
      net.dataInFlight + if out.message.kind = .data then 1 else 0 := by
  obtain ⟨as, has, harrive⟩ := net.airs_send i out
  have hadd : (send i net out).dataInFlight =
      as.countP (·.event.carriesData) + net.dataInFlight := by
    unfold dataInFlight
    rw [has.pending.countP_eq, List.countP_append]
  by_cases hk : out.message.kind = .data
  · -- data goes to one peer
    have hlost := lost_le_send net i out
    have hbalance := has.balance
    have hone : net.topology.fanOut i out = 1 := by
      cases out with
      | unicast peer m => rfl
      | multicast m =>
        rw [hk] at h
        cases h
    have hle := List.countP_le_length (p := fun x => x.event.carriesData) (l := as)
    rw [if_pos hk]
    omega
  · have hnone : as.countP (·.event.carriesData) = 0 := by
      apply List.countP_eq_zero.2
      intro x hx
      obtain ⟨j, _, hj⟩ := (harrive x hx).event
      rw [hj, Occurrence.carriesData_of_decode (Message.decode_encode _)]
      simpa using hk
    rw [if_neg hk]
    omega

theorem dataInFlight_route_le (net : Network) (i : Nat) {sends : List Outbound}
    (h : ∀ out ∈ sends, out.isMulticast = out.message.kind.isBroadcast) :
    (net.route i sends).dataInFlight ≤
      net.dataInFlight + sends.countP (·.message.kind = .data) := by
  induction sends generalizing net with
  | nil => exact Nat.le_refl _
  | cons out sends ih =>
    have hout := dataInFlight_send_le net i (h out List.mem_cons_self)
    have hrest := ih (send i net out) fun o ho => h o (List.mem_cons_of_mem _ ho)
    show ((send i net out).route i sends).dataInFlight ≤ _
    rw [List.countP_cons]
    simp only [decide_eq_true_eq]
    omega

/-! ### The accounts -/

/-- No walk has forked: there are no more deliveries of data on their way than walks, nor than
    messages of data that have been sent and not been received.  Of them, `held` have been taken
    from the queue, and their receivers have not had their turns yet. -/
structure Unforked (net : Network) (held : Nat) : Prop where
  walks : net.dataInFlight + held ≤ net.total fun _ n => n.counters.dataOriginated
  begun : (net.total fun _ n => n.counters.dataOriginated) ≤ net.originations.length
  sent : net.dataInFlight + held + (net.total fun _ n => n.counters.dataReceived) ≤
    net.total fun _ n => n.counters.sentOf .data

section Unforked

variable {net net' : Network}

theorem Unforked.of_quiet {held : Nat} (h : Unforked net held) (hq : Quiet net net') :
    Unforked net' held := by
  have hdata := dataInFlight_congr hq.deliveries
  constructor
  · rw [hdata, total_congr _ hq.nodes]
    exact h.walks
  · rw [hq.originations, total_congr _ hq.nodes]
    exact h.begun
  · rw [hdata, total_congr _ hq.nodes, total_congr _ hq.nodes]
    exact h.sent

/-- What a node hears pays for what it hands on. -/
theorem Unforked.react {mid : Network} {i held : Nat} {n : Node} {r : Reaction}
    {os : List Origination} (h : Unforked net held) (hn : net.node? i = some n)
    (hlaw : r.Lawful n) (hr : r.Unforked n held os.length) (hm : Noted net i r os mid) :
    Unforked (mid.route i r.sends) 0 := by
  have hdata : (mid.route i r.sends).dataInFlight ≤ net.dataInFlight + r.dataSent := by
    rw [← dataInFlight_congr hm.deliveries]
    exact dataInFlight_route_le mid i hlaw.multicast
  have hnodes : (mid.route i r.sends).nodes = (net.setNode i r.node).nodes :=
    (nodes_congr (members_route ..)).trans hm.nodes
  have horiginations : (mid.route i r.sends).originations.length =
      os.length + net.originations.length := by
    rw [originations_congr (journal_route ..), hm.originations, List.length_append]
  have horiginated := total_setNode (fun _ n => n.counters.dataOriginated) r.node hn
  have hreceived := total_setNode (fun _ n => n.counters.dataReceived) r.node hn
  have hsent := total_setNode (fun _ n => n.counters.sentOf .data) r.node hn
  have hcount : r.node.counters.sentOf .data = n.counters.sentOf .data + r.dataSent :=
    hlaw.sentOf .data
  obtain ⟨hwalks, hbegun, hflow⟩ := h
  obtain ⟨hrsent, hroriginated, hrreceived⟩ := hr
  constructor
  · rw [total_congr _ hnodes]
    omega
  · rw [total_congr _ hnodes, horiginations]
    omega
  · rw [total_congr _ hnodes, total_congr _ hnodes]
    omega

theorem unforked_turn {e : Occurrence} (h : Unforked net e.dataCount) (ht : Turn net e net') :
    Unforked net' 0 := by
  cases ht with
  | quiet he hq =>
    rw [Occurrence.dataCount_of_not_isDelivery he] at h
    exact h.of_quiet hq
  | react hn hr hm hq => exact (h.react hn hr.lawful hr.unforked hm).of_quiet hq

theorem unforked_step (hs : Step net net') (h : Unforked net 0) : Unforked net' 0 := by
  obtain ⟨x, rest, hpop, ht⟩ | ⟨e, he, ht⟩ := turn_of_step hs
  · refine unforked_turn ?_ ht
    -- the event at hand is held until its receiver has had its turn
    have hdata : net.dataInFlight = (net.turnTo x rest).dataInFlight + x.event.dataCount := by
      unfold dataInFlight
      rw [(pending_of_pop? hpop).countP_eq, List.countP_cons]
      rfl
    obtain ⟨hwalks, hbegun, hsent⟩ := h
    rw [hdata] at hwalks hsent
    exact ⟨hwalks, hbegun, hsent⟩
  · refine unforked_turn ?_ ht
    rw [Occurrence.dataCount_of_not_isDelivery he]
    exact h

/-- Nodes that have just been switched on have begun and received nothing. -/
theorem unforked_build (t : Topology) (s : ProtocolSettings) (seed : UInt64) :
    Unforked (build t s seed) 0 := by
  refine build_induction t s seed (fun _ net => Unforked net 0) ?_ ?_
  · exact ⟨Nat.le_refl 0, Nat.le_refl 0, Nat.le_refl 0⟩
  · intro k net _ h
    have hn := nodes_addNode seed net k
    have hboot : (addNode seed net k).deliveries.Perm net.deliveries :=
      (Quiet.setBootTimers _ k 0).deliveries
    have hdata := dataInFlight_congr hboot
    constructor
    · rw [hdata, total_concat _ hn]
      exact h.walks
    · rw [originations_addNode, total_concat _ hn]
      exact h.begun
    · rw [hdata, total_concat _ hn, total_concat _ hn]
      exact h.sent

theorem unforked_of_reachable (h : Reachable net) : Unforked net 0 := by
  obtain ⟨t, s, seed, hr⟩ := h
  refine hr.invariant (Unforked · 0) (fun _ => unforked_build t s seed) ?_
  intro net net' _ _ h hs
  exact unforked_step hs h

end Unforked

/-! ### Sound data -/

/-- All messages on their way are sound. -/
def Regulated (most : Option Int32) (net : Network) : Prop :=
  ∀ x ∈ net.deliveries, ∀ i a bytes m, x.event = .deliver i a bytes →
    Message.decode bytes = .ok m → m.Sound most

section Regulated

variable {t : Topology} {s : ProtocolSettings} {net net' : Network}

theorem Regulated.of_quiet {most : Option Int32} (h : Regulated most net) (hq : Quiet net net') :
    Regulated most net' :=
  fun x hx => h x (hq.deliveries.mem_iff.1 hx)

theorem Regulated.route {most : Option Int32} (h : Regulated most net) (i : Nat) {r : Reaction}
    (hr : r.Sound most) : Regulated most (net.route i r.sends) := by
  intro x hx j a bytes m hj hm
  obtain ⟨as, has, harrive⟩ := net.airs_route i r.sends
  rcases List.mem_append.1 ((deliveries_of_airs has harrive).mem_iff.1 hx) with hx | hx
  · obtain ⟨out, hout, hx⟩ := harrive x hx
    obtain ⟨_, _, hk⟩ := hx.event
    rw [hj] at hk
    obtain ⟨_, _, rfl⟩ := Occurrence.deliver.inj hk
    rw [Message.decode_encode] at hm
    rw [← Except.ok.inj hm]
    exact hr out hout
  · exact h x hx j a bytes m hj hm

theorem regulated_turn {e : Occurrence} (h : Regulated s.maxHops net) (hreg : Regular t s net)
    (ht : Turn net e net') (hpos : ∀ o ∈ net'.originations, 1 ≤ o.token.version)
    (he : ∀ i a bytes m, e = .deliver i a bytes → Message.decode bytes = .ok m →
      m.Sound s.maxHops) : Regulated s.maxHops net' := by
  cases ht with
  | quiet _ hq => exact h.of_quiet hq
  | @react i n r os mid hn hr hm hq =>
    have hos : ∀ o ∈ os, 1 ≤ o.token.version := by
      intro o ho
      apply hpos
      rw [hq.originations, originations_congr (journal_route ..), hm.originations]
      exact List.mem_append_left _ ho
    have hmost := hreg.hops i n hn
    have hsound := hr.sound (by rw [hmost]; exact he i) hos
    rw [hmost] at hsound
    have hmid : Regulated s.maxHops mid := fun x hx => h x (hm.deliveries.mem_iff.1 hx)
    exact (hmid.route i hsound).of_quiet hq

theorem regulated_step (hs : Step net net') (h : Regulated s.maxHops net)
    (hreg : Regular t s net) (hpos : ∀ o ∈ net'.originations, 1 ≤ o.token.version) :
    Regulated s.maxHops net' := by
  obtain ⟨x, rest, hpop, ht⟩ | ⟨e, he, ht⟩ := turn_of_step hs
  · have hmem := mem_deliveries_of_pop? hpop
    have hturn : Regulated s.maxHops (net.turnTo x rest) := fun y hy => h y (hmem.2 y hy)
    refine regulated_turn hturn (hreg.of_same rfl rfl rfl rfl) ht hpos ?_
    intro i a bytes m heq hm
    exact h x (hmem.1 (by rw [heq]; rfl)) i a bytes m heq hm
  · refine regulated_turn h hreg ht hpos ?_
    rintro i a bytes m rfl
    cases he

theorem regulated_of_run {P : Network → Prop} {seed : UInt64}
    (hr : Run P (build t s seed) net) : Regulated s.maxHops net := by
  let Q (net : Network) : Prop :=
    Regular t s net ∧ ∀ o ∈ net.originations, 1 ≤ o.token.version
  have hrun : Run Q (build t s seed) net := by
    refine hr.of_invariant fun net hnet => ⟨regular_of_run hnet, ?_⟩
    intro o ho
    have hlt := Int16.lt_iff_toInt_lt.1 (initial_lt_of_run hnet ho)
    have hzero : Token.initial.version.toInt = 0 := rfl
    have hone : (1 : Int16).toInt = 1 := rfl
    rw [Int16.le_iff_toInt_le]
    omega
  refine hrun.invariant (Regulated s.maxHops) ?_ ?_
  · intro _ x hx i a bytes m he
    obtain ⟨_, _, htimer⟩ := mem_pending_build (mem_deliveries.1 hx).1
    rw [he] at htimer
    cases htimer
  · intro net net' hQ hQ' h hs
    exact regulated_step hs h hQ.1 hQ'.2

end Regulated

/-- **Walks do not fork.**  In every state that a network can get into, there are no more deliveries
    of data on their way than walks that nodes count as begun, and no more of these than successful
    originations.  What is on its way or has been received has been sent, as the start of a walk or
    a step of it.  All data on its way brings a token that has been originated, and has made no
    negative number of hops, nor more than the limit if there is one that makes sense. -/
theorem walks_never_fork {net : Network} (h : Reachable net) :
    (net.dataInFlight ≤ net.total fun _ n => n.counters.dataOriginated) ∧
      (net.total fun _ n => n.counters.dataOriginated) ≤ net.originations.length ∧
      (net.dataInFlight + net.total fun _ n => n.counters.dataReceived) ≤
        (net.total fun _ n => n.counters.dataOriginated + n.counters.dataForwarded) ∧
      ∀ x ∈ net.pending, ∀ i a bytes value version hops, x.event = .deliver i a bytes →
        Message.decode bytes = .ok (.data value version hops) →
        1 ≤ version ∧ 0 ≤ hops ∧
          ∀ most, net.settings.maxHops = some most → 0 ≤ most → hops ≤ most := by
  obtain ⟨hwalks, hbegun, hsent⟩ := unforked_of_reachable h
  refine ⟨hwalks, hbegun, hsent, ?_⟩
  obtain ⟨t, s, seed, hr⟩ := h
  intro x hx i a bytes value version hops he hdec
  have hmem : x ∈ net.deliveries := mem_deliveries.2 ⟨hx, by rw [he]; rfl⟩
  rw [(placed_of_run hr).settings]
  exact regulated_of_run hr x hmem i a bytes _ he hdec

/-- The pair, the first node of which originates another token after two seconds. -/
def busyPair : Network := pair.plan (Time.ofSecs 2) (.originate 0 (some 9))

/-- Just after the second origination, one walk is under way. -/
theorem walks_never_fork_busyPair : ∃ net,
    busyPair.runUntil (Time.ofMillis 2002) 100 = .ok net ∧ Reachable net ∧
      net.dataInFlight = 1 ∧ net.originations.length = 2 ∧
      net.dataInFlight ≤ (net.total fun _ n => n.counters.dataOriginated) ∧
      (net.total fun _ n => n.counters.dataOriginated) ≤ net.originations.length := by
  obtain ⟨net, hrun, hp⟩ := exists_of_endsWith
    (p := fun net => net.dataInFlight = 1 ∧ net.originations.length = 2)
    (by decide +kernel : busyPair.endsWith (Time.ofMillis 2002) 100 _ = true)
  obtain ⟨hdata, hbegun⟩ := of_decide_eq_true hp
  have hreach : Reachable net := (reachable_pair.step (.plan ..)).runUntil hrun
  obtain ⟨hwalks, hrecorded, _⟩ := walks_never_fork hreach
  exact ⟨net, hrun, hreach, hdata, hbegun, hwalks, hrecorded⟩

end Network

end TokenMesh
