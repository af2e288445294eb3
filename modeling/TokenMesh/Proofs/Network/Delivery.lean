import TokenMesh.Proofs.Message.RoundTrip
import TokenMesh.Proofs.Network.Addresses
import TokenMesh.Proofs.Network.Air
import TokenMesh.Proofs.Topology.Graph

namespace TokenMesh

/-!
# Certain delivery

What is sent over a link that loses nothing arrives one delay later, and a node with power answers
it if there is something to answer.

* `Network.send_unicast`: messages go to the node at their address;
* `Network.exists_arrival_of_unicast`, `Network.exists_arrival_of_multicast`: messages arrive;
* `Node.sends_beaconTimer`, `Node.sends_of_beacon`, `Node.sends_of_control`,
  `Node.token_of_recover`: what nodes make of each other's messages.
-/

namespace Network

/-! ### Arrivals -/

/-- No link loses anything. -/
def Lossless (net : Network) : Prop :=
  ∀ l ∈ net.topology.links, l.lossRate.isPositive = false

theorem Lossless.of_airOnly {net net' : Network} (h : Lossless net) (ha : AirOnly net net') :
    Lossless net' := by
  unfold Lossless
  rw [ha.topology]
  exact h

/-- A message has been sent and is on its way to node `j`. -/
def Arrives (net net' : Network) (i j : Nat) (m : Message) : Prop :=
  ∃ x ∈ net'.pending, x.time = net.clock + net.topology.delay ∧
    x.event = .deliver j (addressOf i) m.encode

/-- What waits in the queue goes on to wait while other messages are put on the air. -/
theorem mem_pending_of_airs {net net' : Network} {as : List (Scheduled Occurrence)} {n : Nat}
    (h : Airs net net' as n) {x : Scheduled Occurrence} (hx : x ∈ net.pending) :
    x ∈ net'.pending :=
  h.pending.mem_iff.2 (List.mem_append_right _ hx)

/-- Nothing is lost over a link without losses, and no choice is made. -/
theorem transmit_of_lossless {net : Network} (hl : Lossless net) {i j : Nat}
    (h : net.topology.isLinked i j = true) (bytes : List UInt8) :
    net.transmit i j bytes =
      net.schedule (net.clock + net.topology.delay) (.deliver j (addressOf i) bytes) := by
  obtain ⟨rate, hr⟩ := Option.isSome_iff_exists.1 h
  obtain ⟨l, hfind, rfl⟩ := Option.map_eq_some_iff.1 hr
  have hzero : l.lossRate.isPositive = false := hl l (List.mem_of_find?_eq_some hfind)
  unfold transmit
  rw [hr]
  exact if_neg (by rw [hzero]; exact Bool.false_ne_true)

/-- What is sent to a node that is not linked to the sender is lost. -/
theorem transmit_of_apart {net : Network} {i j : Nat} (h : net.topology.isLinked i j = false)
    (bytes : List UInt8) : net.transmit i j bytes = net.lose := by
  have hnone : net.topology.lossRate? i j = none :=
    Option.isNone_iff_eq_none.1 (Option.isSome_eq_false_iff.1 h)
  unfold transmit
  rw [hnone]

/-- A delivery over a link without losses is certain. -/
theorem arrives_transmit {net : Network} (hl : Lossless net) {i j : Nat}
    (h : net.topology.isLinked i j = true) (m : Message) :
    Arrives net (net.transmit i j m.encode) i j m := by
  rw [transmit_of_lossless hl h]
  exact ⟨_, (mem_pending_schedule ..).2 (.inl rfl), rfl, rfl⟩

/-- A message to an address is transmitted to the node at that address. -/
theorem send_unicast {net : Network} {j : Nat} {peer : Address} (hp : net.indexOf? peer = some j)
    (i : Nat) (m : Message) :
    send i net (.unicast peer m) = (net.recordSent m).transmit i j m.encode := by
  have hp : (net.recordSent m).indexOf? peer = some j := hp
  simp only [send, Outbound.message, hp]

/-- A message to the address of a node that is linked to the sender arrives there. -/
theorem exists_arrival_of_unicast {net : Network} (hl : Lossless net) {i j : Nat}
    (h : net.topology.isLinked i j = true) {peer : Address} (hp : net.indexOf? peer = some j)
    (m : Message) : Arrives net (net.route i [.unicast peer m]) i j m := by
  have hrec : AirOnly net (net.recordSent m) := rfl
  show Arrives net (send i net (.unicast peer m)) i j m
  rw [send_unicast hp]
  exact arrives_transmit (hl.of_airOnly hrec) h m

/-- A message to all neighbors arrives at each of them. -/
theorem exists_arrival_of_multicast {net : Network} (hl : Lossless net) {i j : Nat}
    (h : net.topology.isLinked i j = true) (m : Message) :
    Arrives net (net.route i [.multicast m]) i j m := by
  have hj : j ∈ net.topology.neighbors i := Topology.mem_neighbors_iff.2 h
  -- the neighbors take their turns; the others' turns come before and after that of `j`
  suffices hall : ∀ (js : List Nat) (net' : Network), AirOnly net net' → j ∈ js →
      Arrives net (js.foldl (fun net j => net.transmit i j m.encode) net') i j m from
    hall _ (net.recordSent m) rfl hj
  intro js
  induction js with
  | nil =>
    intro net' _ hmem
    cases hmem
  | cons k js ih =>
    intro net' ha hmem
    rw [List.foldl_cons]
    obtain ⟨as, has, _⟩ := net'.airs_transmit i k m.encode
    rcases List.mem_cons.1 hmem with rfl | hmem
    · have hlink : net'.topology.isLinked i j = true := by rw [ha.topology]; exact h
      obtain ⟨x, hx, ht, he⟩ := arrives_transmit (hl.of_airOnly ha) hlink m
      rw [ha.clock, ha.topology] at ht
      obtain ⟨bs, hbs, _⟩ := airs_foldl (fun net j => net.transmit i j m.encode) (fun _ => 1)
        (fun _ _ => True) (net'.transmit i j m.encode) (fun net'' _ k => by
          obtain ⟨cs, hcs, _⟩ := net''.airs_transmit i k m.encode
          exact ⟨cs, hcs, fun _ _ => trivial⟩) js
      exact ⟨x, mem_pending_of_airs hbs hx, ht, he⟩
    · exact ih _ (ha.trans has.airOnly) hmem

/-- The messages of a node that reacts arrive, too. -/
theorem arrives_follow {net : Network} (hl : Lossless net) {i j : Nat} {r : Reaction}
    {out : Outbound} (h : net.topology.isLinked i j = true) (hs : r.sends = [out])
    (hout : ∀ peer m, out = .unicast peer m → net.indexOf? peer = some j) :
    Arrives net (net.follow i r) i j out.message := by
  unfold follow
  rw [hs]
  have hl' : Lossless (net.absorb i r) := hl
  cases out with
  | unicast peer m =>
    have hp : (net.absorb i r).indexOf? peer = some j := by
      show indexAt? (net.setNode i r.node).size peer = some j
      rw [size_setNode]
      exact hout peer m rfl
    exact exists_arrival_of_unicast hl' h hp m
  | multicast m => exact exists_arrival_of_multicast hl' h m

end Network

namespace Node

/-! ### Answers -/

/-- A datagram that holds a message is that message. -/
theorem handleDatagram_encode (n : Node) (sender : Address) (m : Message) (now : Nat) :
    n.handleDatagram sender m.encode now = (n.onInbound sender m now).swept now := by
  unfold handleDatagram
  rw [Message.decode_encode]
  rfl

/-- A message that carries no token leaves a node with its own. -/
theorem token_of_tokenless (n : Node) (sender : Address) {m : Message} (hm : m.token? = none)
    (now : Nat) : (n.handleDatagram sender m.encode now).node.token = n.token := by
  rw [handleDatagram_encode]
  rcases n.token_onInbound sender m now with h | ⟨t, ht, _⟩
  · exact h
  · rw [hm] at ht
    cases ht

/-- A node with power tells its version when its beacon timer fires. -/
theorem sends_beaconTimer {n : Node} (hup : n.isDown = false) (now : Nat) :
    (n.handle .beaconTimer now).sends = [.multicast (.beacon n.token.version)] := by
  show n.onBeaconTimer.sends = _
  unfold onBeaconTimer
  rw [if_neg (by rw [hup]; exact Bool.false_ne_true)]

section answers

variable {n : Node} {sender : Address} (hup : n.isDown = false) (hne : sender ≠ n.address)

include hup hne

/-- A node that hears of a newer version asks for it. -/
theorem sends_of_beacon {version : Int16} (hlt : n.token.version < version) (now : Nat) :
    (n.handleDatagram sender (Message.beacon version).encode now).sends =
      [.unicast sender (.control n.token.version)] := by
  rw [handleDatagram_encode, onInbound_of_up hup hne]
  show (n.onBeacon sender version).sends = _
  unfold onBeacon
  have hnot : ¬ version < n.token.version := Int16.not_lt.2 (Int16.le_of_lt hlt)
  simp only [if_neg hnot, if_pos hlt]
  rfl

/-- A node that hears of an older version hands over its token unasked. -/
theorem sends_of_older_beacon {version : Int16} (hlt : version < n.token.version) (now : Nat) :
    (n.handleDatagram sender (Message.beacon version).encode now).sends =
      [.unicast sender (.answer n.token)] := by
  rw [handleDatagram_encode, onInbound_of_up hup hne]
  show (n.onBeacon sender version).sends = _
  unfold onBeacon
  simp only [if_pos hlt]
  rfl

/-- A node that hears of its own version has nothing to say. -/
theorem sends_of_same_beacon (now : Nat) :
    (n.handleDatagram sender (Message.beacon n.token.version).encode now).sends = [] := by
  rw [handleDatagram_encode, onInbound_of_up hup hne]
  show (n.onBeacon sender n.token.version).sends = _
  unfold onBeacon
  simp only [if_neg Int16.lt_irrefl]

/-- A node that is asked answers with its token. -/
theorem sends_of_control (version : Int16) (now : Nat) :
    (n.handleDatagram sender (Message.control version).encode now).sends =
      [.unicast sender (.answer n.token)] := by
  rw [handleDatagram_encode, onInbound_of_up hup hne]
  rfl

/-- A node has nothing to say to an answer. -/
theorem sends_of_recover (t : Token) (now : Nat) :
    (n.handleDatagram sender (Message.answer t).encode now).sends = [] := by
  rw [handleDatagram_encode, onInbound_of_up hup hne]
  show (n.onRecover sender t).sends = _
  unfold onRecover
  split <;> rfl

/-- A node takes over the newer of its token and an answer. -/
theorem token_of_recover (t : Token) (now : Nat) :
    (n.handleDatagram sender (Message.answer t).encode now).node.token = n.token.accept t := by
  rw [handleDatagram_encode, onInbound_of_up hup hne]
  show (n.onRecover sender t).node.token = _
  exact token_onRecover ..

end answers

end Node

end TokenMesh
