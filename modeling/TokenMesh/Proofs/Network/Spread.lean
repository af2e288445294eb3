import TokenMesh.Proofs.Network.Agreement
import TokenMesh.Proofs.Network.Delivery
import TokenMesh.Proofs.Network.Timers

namespace TokenMesh

/-!
# How a token spreads

In a calm network a token goes from a node to all of its neighbors within one round: within one
beacon period the node tells its version, a neighbor that is behind asks for the token, and the
answer brings it, each message after one delay.

* `Network.Pursuit`: what brings a token from a node that holds it to a neighbor in time;
* `Network.Healthy`: all that is known of a network that has always been calm;
* `Network.pursuit_effect`: every event keeps a pursuit going or brings it one stage further.
-/

namespace Network

/-- A node holds a token. -/
def Holds (net : Network) (i : Nat) (u : Token) : Prop :=
  ∃ n, net.node? i = some n ∧ n.token = u

/-- The time within which a token goes from a node to its neighbors. -/
def round (net : Network) : Nat := net.settings.beaconPeriod + 3 * net.topology.delay

/-- What brings a token from node `a`, which holds it, to its neighbor `b` by the time `due`.  The
    beacon timer of `a` leaves time for three messages, and each of them for those that follow. -/
inductive Pursuit (net : Network) (a b : Nat) (u : Token) (due : Nat) : Prop
  | held (h : net.Holds b u)
  | timer {x : Scheduled Occurrence} {m : Member} (hx : x ∈ net.pending)
      (hm : net.members[a]? = some m) (he : x.event = .timer a .beacon m.generation)
      (ht : x.time + 3 * net.topology.delay ≤ due)
  | beacon {x : Scheduled Occurrence} (hx : x ∈ net.pending)
      (he : x.event = .deliver b (addressOf a) (Message.beacon u.version).encode)
      (ht : x.time + 2 * net.topology.delay ≤ due)
  | control {x : Scheduled Occurrence} {version : Int16} (hx : x ∈ net.pending)
      (he : x.event = .deliver a (addressOf b) (Message.control version).encode)
      (ht : x.time + net.topology.delay ≤ due)
  | recover {x : Scheduled Occurrence} (hx : x ∈ net.pending)
      (he : x.event = .deliver b (addressOf a) (Message.answer u).encode) (ht : x.time ≤ due)

/-- All that is known of a calm network with topology `t` and settings `s` in which node `src` alone
    originates tokens. -/
structure Healthy (t : Topology) (s : ProtocolSettings) (src : Nat) (net : Network) : Prop where
  calm : Calm src net
  awake : Awake net
  sole : SoleOrigin net src
  agreed : Agreed src net
  placed : Placed t s net
  onTime : OnTime net

variable {t : Topology} {s : ProtocolSettings} {seed : UInt64} {src : Nat} {net net' : Network}

/-- Every network that has always been calm is healthy. -/
theorem healthy_of_run (hsrc : src < t.nodeCount) (hr : Run (Calm src) (build t s seed) net) :
    Healthy t s src net where
  calm := hr.last
  awake := awake_of_run hr
  sole := soleOrigin_of_run hr
  agreed := agreed_of_run (hr.powered_soleOrigin hsrc)
  placed := placed_of_run hr
  onTime := onTime_of_run hr

/-- A healthy network is healthy while its next event is at hand. -/
theorem healthy_turnTo {e : Scheduled Occurrence} {rest : EventQueue Occurrence}
    (hp : net.queue.pop? = some (e, rest)) (h : Healthy t s src net) :
    Healthy t s src (net.turnTo e rest) := by
  have hmem : ∀ x ∈ (net.turnTo e rest).pending, x ∈ net.pending :=
    fun x hx => (pending_of_pop? hp).mem_iff.2 (List.mem_cons_of_mem _ hx)
  exact ⟨h.calm.of_same rfl rfl (.turnTo hp), h.awake.of_same rfl, h.sole,
    h.agreed.of_same rfl (fun _ => rfl) hmem, h.placed.of_same rfl rfl rfl,
    onTime_turnTo hp h.onTime⟩

/-! ### The latest token -/

/-- Node `src` holds the token that it originated last. -/
theorem Healthy.holds_src {o : Origination} (h : Healthy t s src net) (hsrc : src < t.nodeCount)
    (ho : net.originations.head? = some o) : net.Holds src o.token := by
  obtain ⟨n, hn⟩ := h.placed.exists_node hsrc
  have hlatest := h.agreed.follows.latest n hn
  rw [h.sole.head?_lineage ho] at hlatest
  exact ⟨n, hn, (Option.some.inj hlatest).symm⟩

/-- No node holds a newer token than the one that was originated last. -/
theorem Healthy.version_le {o : Origination} (h : Healthy t s src net)
    (ho : net.originations.head? = some o) {i : Nat} {n : Node} (hn : net.node? i = some n) :
    n.token.version ≤ o.token.version :=
  h.agreed.descending.le_head (h.sole.head?_lineage ho) (h.agreed.follows.held i n hn)

/-- A node is behind the latest token, or holds it. -/
theorem Healthy.version_lt_or_eq {o : Origination} (h : Healthy t s src net)
    (ho : net.originations.head? = some o) {i : Nat} {n : Node} (hn : net.node? i = some n) :
    n.token.version < o.token.version ∨ n.token = o.token := by
  by_cases hlt : n.token.version < o.token.version
  · exact .inl hlt
  · right
    have hle := h.version_le ho hn
    have heq : n.token.version = o.token.version := Int16.le_antisymm hle (Int16.not_lt.1 hlt)
    have hmem : o.token ∈ net.lineage src := List.mem_of_mem_head? (h.sole.head?_lineage ho)
    exact h.agreed.descending.eq_of_version_eq (h.agreed.follows.held i n hn) hmem heq

/-- An event leaves a node with power its token, unless the node gets a newer one. -/
theorem holds_effect {e : Occurrence} {u : Token} {i : Nat} (he : Effect net e net')
    (hawake : Awake net)
    (hmax : ∀ n', net'.node? i = some n' → n'.token.version ≤ u.version)
    (h : net.Holds i u) : net'.Holds i u := by
  obtain ⟨n, hn, rfl⟩ := h
  obtain hsame | ⟨j, m, op, hm, hset⟩ := node?_effect he
  · exact ⟨n, (hsame i).trans hn, rfl⟩
  · -- a node other than the one that acts is as it was
    have hi := hset i
    rw [node?_setNode] at hi
    by_cases hji : j = i
    · subst hji
      obtain rfl : n = m := Option.some.inj (hn.symm.trans hm)
      rw [if_pos rfl, hn] at hi
      have hi : net'.node? j = some (n.perform op).1.node := hi
      refine ⟨_, hi, ?_⟩
      obtain heq | hlt := n.token_perform (hawake j n hn) op
      · exact heq
      · exact absurd hlt (Int16.not_lt.2 (hmax _ hi))
    · rw [if_neg hji] at hi
      exact ⟨n, hi.trans hn, rfl⟩

/-! ### From stage to stage -/

section stages

variable {o : Origination} {a b due : Nat} (h : Healthy t s src net)
  (hcount : t.nodeCount ≤ 65536) (ho : net.originations.head? = some o)
  (hlink : t.isLinked a b = true)

include h hlink

/-- The beacon timer of a node with the latest token fires: the beacon goes to all neighbors. -/
theorem pursuit_of_timer {m : Member} (hm : net.members[a]? = some m)
    (hu : m.node.token = o.token) (he : Effect net (.timer a .beacon m.generation) net')
    (ht : net.clock + 3 * net.topology.delay ≤ due) : net'.Pursuit a b o.token due := by
  obtain rfl := effect_fired he hm
  have hup : m.node.isDown = false := h.awake a _ (node?_eq_some_iff.2 ⟨m, hm, rfl⟩)
  have hnear : net.topology.isLinked a b = true := by rw [h.placed.linked]; exact hlink
  obtain ⟨x, hx, hxt, hxe⟩ := arrives_follow h.calm.lossless hnear
    (Node.sends_beaconTimer hup net.clock) (by simp)
  rw [← hu]
  refine .beacon ((mem_pending_schedule ..).2 (.inr hx)) hxe ?_
  show x.time + 2 * (net.follow a _).topology.delay ≤ due
  rw [topology_follow]
  omega

variable (hmax : ∀ n', net'.node? b = some n' → n'.token.version ≤ o.token.version)

include hcount

/-- Messages between the two nodes are heard, and answers find their way back. -/
theorem heard (ha : a < t.nodeCount) (hb : b < t.nodeCount) {n : Node}
    (hn : net.node? b = some n) :
    addressOf a ≠ n.address ∧ net.topology.isLinked b a = true ∧
      net.countDelivery.indexOf? (addressOf a) = some a := by
  refine ⟨?_, ?_, ?_⟩
  · rw [h.placed.address b n hn]
    exact addressOf_ne ha hb hcount (Topology.ne_of_isLinked hlink)
  · rw [h.placed.linked, Topology.isLinked_comm]
    exact hlink
  · show indexAt? net.size (addressOf a) = some a
    rw [h.placed.size]
    exact indexAt?_addressOf ha hcount

include ho hmax

/-- The beacon arrives: a neighbor that is behind asks for the token. -/
theorem pursuit_of_beacon (ha : a < t.nodeCount)
    (he : Effect net (.deliver b (addressOf a) (Message.beacon o.token.version).encode) net')
    (ht : net.clock + 2 * net.topology.delay ≤ due) : net'.Pursuit a b o.token due := by
  obtain ⟨n, hn, heq⟩ := effect_arrival he
  -- the neighbor is behind, or the token has come to it in another way
  obtain hlt | hu := h.version_lt_or_eq ho hn
  · obtain ⟨hne, hnear, hback⟩ := heard h hcount hlink ha (h.placed.lt_of_node? hn) hn
    have hs := Node.sends_of_beacon (h.awake b n hn) hne hlt net.clock
    have hl : Lossless net.countDelivery := h.calm.lossless
    obtain ⟨x, hx, hxt, hxe⟩ := arrives_follow hl hnear hs fun peer m hout => by
      obtain ⟨rfl, _⟩ := Outbound.unicast.inj hout
      exact hback
    rw [heq]
    refine .control hx hxe ?_
    rw [topology_follow, hxt]
    show net.clock + net.topology.delay + net.topology.delay ≤ due
    omega
  · exact .held (holds_effect he h.awake hmax ⟨n, hn, hu⟩)

omit ho hmax in
/-- The request arrives: the node that holds the token answers with it. -/
theorem pursuit_of_control {version : Int16} (ha : net.Holds a o.token) (hb : b < t.nodeCount)
    (he : Effect net (.deliver a (addressOf b) (Message.control version).encode) net')
    (ht : net.clock + net.topology.delay ≤ due) : net'.Pursuit a b o.token due := by
  obtain ⟨n, hn, hu⟩ := ha
  obtain ⟨n', hn', heq⟩ := effect_arrival he
  obtain rfl : n = n' := Option.some.inj (hn.symm.trans hn')
  have hlink' : t.isLinked b a = true := by rw [Topology.isLinked_comm]; exact hlink
  obtain ⟨hne, hnear, hback⟩ := heard h hcount hlink' hb (h.placed.lt_of_node? hn) hn
  have hs := Node.sends_of_control (h.awake a n hn) hne version net.clock
  have hl : Lossless net.countDelivery := h.calm.lossless
  obtain ⟨x, hx, hxt, hxe⟩ := arrives_follow hl hnear hs fun peer m hout => by
    obtain ⟨rfl, _⟩ := Outbound.unicast.inj hout
    exact hback
  rw [heq, ← hu]
  refine .recover hx hxe ?_
  rw [hxt]
  exact ht

/-- The answer arrives: the neighbor takes over the token. -/
theorem pursuit_of_recover (ha : a < t.nodeCount)
    (he : Effect net (.deliver b (addressOf a) (Message.answer o.token).encode) net') :
    net'.Pursuit a b o.token due := by
  obtain ⟨n, hn, heq⟩ := effect_arrival he
  obtain hlt | hu := h.version_lt_or_eq ho hn
  · obtain ⟨hne, _, _⟩ := heard h hcount hlink ha (h.placed.lt_of_node? hn) hn
    have ht := Node.token_of_recover (h.awake b n hn) hne o.token net.clock
    rw [Token.accept_of_lt hlt] at ht
    refine .held ⟨_, ?_, ht⟩
    have hd : net.countDelivery.node? b = some n := hn
    rw [heq, node?_follow, node?_setNode, if_pos rfl, hd]
    rfl
  · exact .held (holds_effect he h.awake hmax ⟨n, hn, hu⟩)

end stages

/-! ### One event -/

/-- What does not touch a pursuit leaves it as it is. -/
theorem Pursuit.keep {a b due : Nat} {u : Token} (h : net.Pursuit a b u due)
    (hheld : net.Holds b u → net'.Holds b u)
    (hgen : net'.members[a]?.map (·.generation) = net.members[a]?.map (·.generation))
    (hd : net'.topology.delay = net.topology.delay)
    (hkept : ∀ x ∈ net.pending, x ∈ net'.pending) : net'.Pursuit a b u due := by
  cases h with
  | held h => exact .held (hheld h)
  | timer hx hm he ht =>
    rw [hm] at hgen
    obtain ⟨m', hm', hg⟩ := Option.map_eq_some_iff.1 hgen
    exact .timer (hkept _ hx) hm' (hg ▸ he) (hd ▸ ht)
  | beacon hx he ht => exact .beacon (hkept _ hx) he (hd ▸ ht)
  | control hx he ht => exact .control (hkept _ hx) he (hd ▸ ht)
  | recover hx he ht => exact .recover (hkept _ hx) he ht

/-- The restart timer of a node with power is not set, so no event begins a new generation. -/
theorem generation_effect {x : Scheduled Occurrence} (he : Effect net x.event net')
    (hawake : Awake net) (ht : Timely net (x :: net.pending)) (i : Nat) :
    net'.members[i]?.map (·.generation) = net.members[i]?.map (·.generation) := by
  obtain h | ⟨j, n, op, _, h⟩ | ⟨j, m, hx, hm, _⟩ := members_effect he
  · rw [h]
  · rw [h, generation_setNode]
  · obtain ⟨time, seq, e⟩ := x
    simp only at hx
    subst hx
    -- a node whose restart timer is at hand would be down
    have hdown := Node.isDown_of_restartDeadline? (ht.timers j m hm).deadline_of_restart
    have hup := hawake j _ (node?_eq_some_iff.2 ⟨m, hm, rfl⟩)
    rw [hup] at hdown
    cases hdown

/-- An event keeps a pursuit going or brings it one stage further. -/
theorem pursuit_effect {o : Origination} {a b due : Nat} {e : Scheduled Occurrence}
    {rest : EventQueue Occurrence} (hp : net.queue.pop? = some (e, rest))
    (he : Effect (net.turnTo e rest) e.event net') (h : Healthy t s src net)
    (htimely : Timely net net.pending) (hcount : t.nodeCount ≤ 65536)
    (ho : net.originations.head? = some o) (hlink : t.isLinked a b = true) (hb : b < t.nodeCount)
    (hmax : ∀ n', net'.node? b = some n' → n'.token.version ≤ o.token.version)
    (ha : net.Holds a o.token) (hpur : net.Pursuit a b o.token due) :
    net'.Pursuit a b o.token due := by
  have hnow : Healthy t s src (net.turnTo e rest) := healthy_turnTo hp h
  have hext := extends_effect he
  have hlt : a < t.nodeCount := by
    obtain ⟨n, hn, _⟩ := ha
    exact h.placed.lt_of_node? hn
  have hgen : net'.members[a]?.map (·.generation) = net.members[a]?.map (·.generation) :=
    generation_effect he hnow.awake ((htimely.perm (pending_of_pop? hp)).of_same rfl rfl) a
  have hmem : ∀ x ∈ net.pending, x = e ∨ x ∈ (net.turnTo e rest).pending :=
    fun x hx => List.mem_cons.1 ((pending_of_pop? hp).mem_iff.1 hx)
  have hkeep : (net.turnTo e rest).Pursuit a b o.token due → net'.Pursuit a b o.token due :=
    fun hpur => hpur.keep (holds_effect he hnow.awake hmax) hgen hext.delay hext.kept
  -- the event at hand is due at the present
  have hclock : e ∈ net.pending → (∀ act, e.event ≠ .action act) →
      (net.turnTo e rest).clock = e.time := by
    intro hx hact
    have hdue := h.onTime.due e hx hact
    rw [clock_turnTo]
    omega
  -- the event at hand is what the pursuit waits for, or something else
  cases hpur with
  | held hheld => exact hkeep (.held hheld)
  | timer hx hm hev ht =>
    obtain rfl | hrest := hmem _ hx
    · obtain ⟨n, hn, hu⟩ := ha
      obtain ⟨m', hm', rfl⟩ := node?_eq_some_iff.1 hn
      obtain rfl := Option.some.inj (hm.symm.trans hm')
      rw [← hclock hx (by simp [hev])] at ht
      rw [hev] at he
      exact pursuit_of_timer hnow hlink hm hu he ht
    · exact hkeep (.timer hrest hm hev ht)
  | beacon hx hev ht =>
    obtain rfl | hrest := hmem _ hx
    · rw [← hclock hx (by simp [hev])] at ht
      rw [hev] at he
      exact pursuit_of_beacon hnow hcount ho hlink hmax hlt he ht
    · exact hkeep (.beacon hrest hev ht)
  | control hx hev ht =>
    obtain rfl | hrest := hmem _ hx
    · rw [← hclock hx (by simp [hev])] at ht
      rw [hev] at he
      exact pursuit_of_control hnow hcount hlink ha hb he ht
    · exact hkeep (.control hrest hev ht)
  | recover hx hev ht =>
    obtain rfl | hrest := hmem _ hx
    · rw [hev] at he
      exact pursuit_of_recover hnow hcount ho hlink hmax hlt he
    · exact hkeep (.recover hrest hev ht)

end Network

end TokenMesh
