import TokenMesh.Proofs.Network.Agreement
import TokenMesh.Proofs.Network.Delivery

namespace TokenMesh

/-!
# Silence

A node that hears a beacon says nothing if and only if the beacon tells its own version.  So silence
between two nodes means that they hold the same version.  It means that they hold the same token
as long as no version has been originated twice, and only a source that has been restarted in
between can do that: it starts to count from zero again.

* `Node.sends_of_beacon_eq_nil_iff`: when a node has nothing to say to a beacon;
* `Network.silence`: what silence between two nodes means;
* `Network.silent_disagreement`: an experiment in which nodes are silent and disagree.
-/

namespace Node

/-- A node with power has nothing to say to a beacon if and only if it tells the node's own
    version. -/
theorem sends_of_beacon_eq_nil_iff {n : Node} {sender : Address} (hup : n.isDown = false)
    (hne : sender ≠ n.address) (version : Int16) (now : Nat) :
    (n.handleDatagram sender (Message.beacon version).encode now).sends = [] ↔
      version = n.token.version := by
  by_cases heq : version = n.token.version
  · subst heq
    simp only [sends_of_same_beacon hup hne now]
  · refine iff_of_false ?_ heq
    rcases Int16.lt_or_lt_of_ne heq with hlt | hlt
    · rw [sends_of_older_beacon hup hne hlt now]
      exact List.cons_ne_nil _ _
    · rw [sends_of_beacon hup hne hlt now]
      exact List.cons_ne_nil _ _

end Node

namespace Network

/-- Two tokens of one version that are known are the same, or both have been originated. -/
theorem eq_or_originated {P : Network → Prop} {src : Nat} {t : Topology} {s : ProtocolSettings}
    {seed : UInt64} {net : Network} (hr : Run P (build t s seed) net) (hsole : net.SoleOrigin src)
    {u v : Token} (hu : u ∈ net.known) (hv : v ∈ net.known) (heq : u.version = v.version) :
    u = v ∨ u ∈ net.originatedBy src ∧ v ∈ net.originatedBy src := by
  have hpos : ∀ w ∈ net.originatedBy src, Token.initial.version < w.version := by
    intro w hw
    obtain ⟨o, ho, rfl⟩ := List.mem_map.1 hw
    exact initial_lt_of_run hr (List.mem_of_mem_filter ho)
  rw [hsole.known_eq] at hu hv
  -- what has been originated is newer than what all nodes start with
  rcases List.mem_append.1 hu with hu | hu
  · rcases List.mem_append.1 hv with hv | hv
    · exact .inr ⟨hu, hv⟩
    · have hlt := hpos u hu
      rw [heq, List.mem_singleton.1 hv] at hlt
      exact absurd hlt Int16.lt_irrefl
  · rcases List.mem_append.1 hv with hv | hv
    · have hlt := hpos v hv
      rw [← heq, List.mem_singleton.1 hu] at hlt
      exact absurd hlt Int16.lt_irrefl
    · left
      rw [List.mem_singleton.1 hu, List.mem_singleton.1 hv]

/-- **Silence.**  In every state of a network in which only node `src` has originated tokens, a
    node with power has nothing to say to the beacon of another node if and only if both hold the
    same version.  Then they hold the same token, or both their tokens have been originated under
    this version, and `src` has been restarted. -/
theorem silence {src i j : Nat} {net : Network} {a b : Node} (hr : Reachable net)
    (hsole : net.SoleOrigin src) (ha : net.node? i = some a) (hb : net.node? j = some b)
    (hup : b.isDown = false) (hne : a.address ≠ b.address) (now : Nat) :
    ((b.handleDatagram a.address (Message.beacon a.token.version).encode now).sends = [] ↔
      a.token.version = b.token.version) ∧
    (a.token.version = b.token.version → a.token = b.token ∨
      a.token ∈ net.originatedBy src ∧ b.token ∈ net.originatedBy src ∧
        ∃ n, net.node? src = some n ∧ 0 < n.counters.restarts) := by
  refine ⟨Node.sends_of_beacon_eq_nil_iff hup hne _ now, ?_⟩
  intro heq
  obtain ⟨t, s, seed, hrun⟩ := hr
  have hdrawn := drawn_of_run hrun
  rcases eq_or_originated hrun hsole (hdrawn.held i a ha) (hdrawn.held j b hb) heq with
    hsame | ⟨hau, hbu⟩
  · exact .inl hsame
  obtain ⟨o, ho, hot⟩ := List.mem_map.1 hau
  have hmem : o ∈ net.originations := List.mem_of_mem_filter ho
  have hsrc : src < t.nodeCount := hsole o hmem ▸ index_lt_of_run hrun hmem
  obtain ⟨n, hn⟩ := (placed_of_run hrun).exists_node hsrc
  rcases Nat.eq_zero_or_pos n.counters.restarts with hzero | hpos
  · -- without a restart every version has been originated once
    have hdesc := (ordered_of_run hrun src n hn hzero).1
    exact .inl (hdesc.eq_of_version_eq (List.mem_append_left _ hau)
      (List.mem_append_left _ hbu) heq)
  · exact .inr ⟨hau, hbu, n, hn, hpos⟩

/-! ### A version that stands for two values -/

/-- The first node of the pair crashes when the second one has got its token, and originates
    another one after it has been restarted. -/
def recountingPair : Network :=
  (pair.plan (Time.ofSecs 12) (.crash 0 (Time.ofSecs 1))).plan (Time.ofSecs 14)
    (.originate 0 (some 9))

/-- In the end both nodes have power, and each holds one of the two tokens. -/
theorem exists_end_recountingPair : ∃ net a b,
    recountingPair.runUntil (Time.ofSecs 15) 100 = .ok net ∧ Reachable net ∧ net.SoleOrigin 0 ∧
      net.node? 0 = some a ∧ net.node? 1 = some b ∧ a.isDown = false ∧ b.isDown = false ∧
      a.address ≠ b.address ∧ a.token = ⟨9, 1⟩ ∧ b.token = ⟨5, 1⟩ := by
  let view (n : Node) : Address × Bool × Token := (n.address, n.isDown, n.token)
  obtain ⟨net, hrun, hp⟩ := exists_of_endsWith
    (p := fun net => net.originations.all (·.index = 0) &&
      net.nodes.map view = [(addressOf 0, false, ⟨9, 1⟩), (addressOf 1, false, ⟨5, 1⟩)])
    (by decide +kernel : recountingPair.endsWith (Time.ofSecs 15) 100 _ = true)
  obtain ⟨hsole, hnodes⟩ := Bool.and_eq_true_iff.1 hp
  have hnodes := of_decide_eq_true hnodes
  have hview : ∀ i, (net.node? i).map view = (net.nodes.map view)[i]? := by
    intro i
    rw [List.getElem?_map, getElem?_nodes]
  have h₀ := hview 0
  have h₁ := hview 1
  rw [hnodes] at h₀ h₁
  obtain ⟨a, ha, hva⟩ := Option.map_eq_some_iff.1 h₀
  obtain ⟨b, hb, hvb⟩ := Option.map_eq_some_iff.1 h₁
  simp only [view, Prod.mk.injEq] at hva hvb
  have hreach : Reachable recountingPair := (reachable_pair.step (.plan ..)).step (.plan ..)
  refine ⟨net, a, b, hrun, hreach.runUntil hrun, ?_, ha, hb, hva.2.1, hvb.2.1, ?_, hva.2.2,
    hvb.2.2⟩
  · intro o ho
    simpa using List.all_eq_true.1 hsole o ho
  · rw [hva.1, hvb.1]
    decide

/-- The two nodes are silent, and do not hold the same token. -/
theorem silent_disagreement : ∃ net a b,
    recountingPair.runUntil (Time.ofSecs 15) 100 = .ok net ∧ Reachable net ∧ net.SoleOrigin 0 ∧
      net.node? 0 = some a ∧ net.node? 1 = some b ∧ a.isDown = false ∧ b.isDown = false ∧
      a.address ≠ b.address ∧
      (b.handleDatagram a.address (Message.beacon a.token.version).encode net.clock).sends = [] ∧
      a.token = ⟨9, 1⟩ ∧ b.token = ⟨5, 1⟩ := by
  obtain ⟨net, a, b, hrun, hr, hsole, ha, hb, haup, hbup, hne, hat, hbt⟩ :=
    exists_end_recountingPair
  refine ⟨net, a, b, hrun, hr, hsole, ha, hb, haup, hbup, hne, ?_, hat, hbt⟩
  rw [Node.sends_of_beacon_eq_nil_iff hbup hne, hat, hbt]

/-- Both tokens have been originated, and the first node has been restarted. -/
theorem silence_recountingPair : ∃ net a b n,
    recountingPair.runUntil (Time.ofSecs 15) 100 = .ok net ∧ Reachable net ∧ net.SoleOrigin 0 ∧
      net.node? 0 = some a ∧ net.node? 1 = some b ∧ b.isDown = false ∧ a.address ≠ b.address ∧
      (b.handleDatagram a.address (Message.beacon a.token.version).encode net.clock).sends = [] ∧
      a.token ∈ net.originatedBy 0 ∧ b.token ∈ net.originatedBy 0 ∧
      net.node? 0 = some n ∧ 0 < n.counters.restarts := by
  obtain ⟨net, a, b, hrun, hr, hsole, ha, hb, _, hbup, hne, hat, hbt⟩ := exists_end_recountingPair
  have hversion : a.token.version = b.token.version := by rw [hat, hbt]
  obtain ⟨hsilent, hmeaning⟩ := silence hr hsole ha hb hbup hne net.clock
  obtain hsame | ⟨hau, hbu, n, hn, hpos⟩ := hmeaning hversion
  · rw [hat, hbt] at hsame
    exact absurd hsame (by decide)
  · exact ⟨net, a, b, n, hrun, hr, hsole, ha, hb, hbup, hne, hsilent.2 hversion, hau, hbu, hn,
      hpos⟩

end Network

end TokenMesh
