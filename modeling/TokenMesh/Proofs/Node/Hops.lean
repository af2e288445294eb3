import TokenMesh.Network
import TokenMesh.Proofs.Node.Replies
import TokenMesh.Proofs.Random

namespace TokenMesh

/-!
# The hop ceiling

Data tells how many hops its walk has made, and a node whose settings limit the hops takes the
token from it in any case, but hands it on only within the limit.  One more hop is one more in the
count, up to the greatest number that the count can hold: there it stops.  So a ceiling of that
number is none, since no walk ever exceeds it.

* `Node.overLimit_nextHops_iff`: which walks exceed a limit;
* `Node.forward_of_alone`, `Node.forward_of_known`: what comes of handing it on;
* `Node.hop_ceiling`: all of this, for data that arrives at a node with a limit.
-/

namespace Node

/-! ### Absorbed or handed on -/

/-- A walk exceeds a limit with its next hop, as far as the count goes. -/
theorem overLimit_nextHops_iff {n : Node} {most : Int32} (h : n.settings.maxHops = some most)
    (hops : Int32) : n.overLimit (nextHops hops) = true ↔
      most.toInt < min (hops.toInt + 1) Int32.maxValue.toInt := by
  unfold overLimit
  rw [h, ← toInt_nextHops_eq_min, ← Int32.lt_iff_toInt_lt]
  exact decide_eq_true_iff

/-- Where nobody is known, a walk ends, and nothing is drawn. -/
theorem forward_of_alone {n : Node} (h : n.neighbors.entries = []) (hops : Int32)
    (notices : List Notice) :
    (n.forward hops notices).sends = [] ∧
      (n.forward hops notices).node.generator = n.generator ∧
      (n.forward hops notices).node.counters.forwardsWithoutNeighbor =
        n.counters.forwardsWithoutNeighbor + 1 := by
  rcases n.neighbors.pick_cases n.generator with ⟨_, hpick⟩ | ⟨e, he, _⟩
  · unfold forward choosePeer
    rw [hpick]
    exact ⟨rfl, rfl, rfl⟩
  · rw [h] at he
    cases he

/-- Where somebody is known, a walk goes on to one of them, with the token that the node holds. -/
theorem forward_of_known {n : Node} (h : n.neighbors.entries ≠ []) (hops : Int32)
    (notices : List Notice) :
    ∃ peer ∈ n.neighbors.addresses,
      (n.forward hops notices).sends = [.unicast peer (.carry n.token hops)] := by
  rcases n.neighbors.pick_cases n.generator with ⟨hnone, _⟩ | ⟨e, he, hpick⟩
  · exact absurd hnone h
  · refine ⟨e.address, List.mem_map_of_mem he, ?_⟩
    unfold forward choosePeer
    simp only [hpick]
    rfl

/-! ### The ceiling -/

/-- **The hop ceiling.**  Data has reached a node with power, whose settings limit the hops of a
    walk, from somebody else.  In any case the node keeps the newer of the two tokens.  The walk
    has made one more hop, as far as the count goes, which stops at its greatest number.  If that
    exceeds the limit, or the node is a sink, then the data is absorbed: nothing is sent, and
    nothing is drawn.  Otherwise the token that the node holds now goes to somebody whom it knows,
    with that many hops; if it knows nobody, then that is counted, nothing is sent, and nothing is
    drawn. -/
theorem hop_ceiling {n : Node} {sender : Address} {most : Int32} (hup : n.isDown = false)
    (hne : sender ≠ n.address) (hmost : n.settings.maxHops = some most) (value : Int32)
    (version : Int16) (hops : Int32) (now : Nat) :
    let r := n.handle (.inbound sender (.data value version hops)) now
    let next := min (hops.toInt + 1) Int32.maxValue.toInt
    r.node.token = n.token.accept ⟨value, version⟩ ∧
    (most.toInt < next ∨ n.role = .sink →
      r.sends = [] ∧ r.node.counters.dataAbsorbed = n.counters.dataAbsorbed + 1 ∧
        r.node.generator = n.generator) ∧
    (next ≤ most.toInt → n.role ≠ .sink →
      (n.neighbors.entries ≠ [] → ∃ peer ∈ n.neighbors.addresses, ∃ hops' : Int32,
        hops'.toInt = next ∧ r.sends = [.unicast peer (.carry r.node.token hops')]) ∧
      (n.neighbors.entries = [] → r.sends = [] ∧ r.node.generator = n.generator ∧
        r.node.counters.forwardsWithoutNeighbor = n.counters.forwardsWithoutNeighbor + 1)) := by
  intro r next
  have hr : r = (n.onData sender ⟨value, version⟩ hops).swept now := by
    show (n.onInbound sender _ now).swept now = _
    rw [onInbound_of_up hup hne]
    rfl
  have htoken : r.node.token = n.token.accept ⟨value, version⟩ := by
    rw [hr]
    exact token_onData n sender ⟨value, version⟩ hops
  have hover := overLimit_nextHops_iff hmost hops
  obtain ⟨hend, notices, hdata⟩ | ⟨hrole, hlimit, hdata⟩ :=
    n.onData_cases sender ⟨value, version⟩ hops
  · rw [hdata] at hr
    refine ⟨htoken, fun _ => ?_, fun hle hrole => ?_⟩
    · rw [hr]
      exact ⟨rfl, rfl, rfl⟩
    · -- neither reason to absorb the data is left
      exact absurd (hover.1 (hend.resolve_left hrole)) (Int.not_lt.2 hle)
  · rw [hdata] at hr
    have hwithin : ¬ most.toInt < next := fun hlt => by
      rw [hover.2 hlt] at hlimit
      cases hlimit
    refine ⟨htoken, fun hend => ?_, fun _ _ => ⟨fun hknown => ?_, fun halone => ?_⟩⟩
    · exact absurd hend (not_or.2 ⟨hwithin, hrole⟩)
    · obtain ⟨peer, hpeer, hsends⟩ := forward_of_known (n := n.takeData ⟨value, version⟩) hknown
        (nextHops hops) (n.dataNotices sender ⟨value, version⟩ hops)
      refine ⟨peer, hpeer, nextHops hops, toInt_nextHops_eq_min hops, ?_⟩
      rw [htoken, hr]
      exact hsends
    · rw [hr]
      exact forward_of_alone (n := n.takeData ⟨value, version⟩) halone (nextHops hops)
        (n.dataNotices sender ⟨value, version⟩ hops)

/-- A relay that has heard a peer and lets walks make so many hops. -/
def lenient (most : Int32) : Node :=
  (fresh (Network.addressOf 0) { maxHops := some most, seed := some 7 }).performAll
    [.event (.inbound (Network.addressOf 1) .announce) 0]

/-- With a limit of four hops, the fourth hop is made and the fifth is not. -/
theorem hop_ceiling_lenient :
    let third := Event.inbound (Network.addressOf 2) (.data 5 1 3)
    let fourth := Event.inbound (Network.addressOf 2) (.data 5 1 4)
    (lenient 4).isDown = false ∧ Network.addressOf 2 ≠ (lenient 4).address ∧
    (lenient 4).settings.maxHops = some 4 ∧
    (∃ peer, ((lenient 4).handle third 1).sends = [.unicast peer (.data 5 1 4)]) ∧
    ((lenient 4).handle fourth 1).sends = [] ∧
    ((lenient 4).handle fourth 1).node.token = ⟨5, 1⟩ ∧
    ((lenient 4).handle fourth 1).node.counters.dataAbsorbed = 1 := by
  have hup : (lenient 4).isDown = false := by decide
  have hne : Network.addressOf 2 ≠ (lenient 4).address := by decide
  have hmost : (lenient 4).settings.maxHops = some 4 := by decide
  have htoken : (lenient 4).token.accept ⟨5, 1⟩ = ⟨5, 1⟩ := by decide
  obtain ⟨hkept, _, hwithin⟩ := hop_ceiling hup hne hmost 5 1 3 1
  obtain ⟨hkept', hbeyond, _⟩ := hop_ceiling hup hne hmost 5 1 4 1
  obtain ⟨peer, _, hops', hcount, hsends⟩ :=
    (hwithin (by decide) (by decide)).1 (by decide)
  obtain ⟨hnone, habsorbed, _⟩ := hbeyond (.inl (by decide))
  refine ⟨hup, hne, hmost, ⟨peer, ?_⟩, hnone, hkept'.trans htoken,
    habsorbed.trans (by decide)⟩
  obtain rfl : hops' = 4 := Int32.toInt_inj.1 hcount
  rw [hsends, hkept, htoken]
  rfl

/-- The count of hops stops at its greatest number, and a ceiling of that number is never
    exceeded: data that has made so many hops already is handed on with as many. -/
theorem unlimited_at_greatest_ceiling : ¬ ∀ (n : Node) (sender : Address) (most : Int32)
    (value : Int32) (version : Int16) (hops : Int32) (now : Nat),
    n.isDown = false → sender ≠ n.address → n.settings.maxHops = some most → 0 ≤ most →
    most.toInt < hops.toInt + 1 →
    (n.handle (.inbound sender (.data value version hops)) now).sends = [] := by
  intro h
  have hnone := h (lenient Int32.maxValue) (Network.addressOf 2) Int32.maxValue 5 1 Int32.maxValue
    1 (by decide) (by decide) (by decide) (by decide) (by decide)
  have hsent : ((lenient Int32.maxValue).handle (.inbound (Network.addressOf 2)
      (.data 5 1 Int32.maxValue)) 1).sends =
        [.unicast (Network.addressOf 1) (.data 5 1 Int32.maxValue)] := by
    decide +kernel
  rw [hsent] at hnone
  cases hnone

end Node

end TokenMesh
