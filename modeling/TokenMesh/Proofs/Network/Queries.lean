import TokenMesh.Proofs.Network.Watch

namespace TokenMesh

/-!
# What is asked about a network

Three questions about the nodes with power look at different things: the highest version looks at
versions alone, the number of consistent nodes compares versions with it, and convergence compares
whole tokens.  They agree as long as a version stands for one token, which it does where one node
that always has power originates all tokens.

* `Network.highestVersion_eq`, `Network.converged_iff`: what the answers mean;
* `Network.consistentNodes_of_converged`: in a converged network all nodes with power are
  consistent;
* `Network.queries_agree`: when the questions agree.
-/

/-- The maximum of two versions is one of them, and bounded by what bounds both. -/
instance int16LawfulOrderMax : Std.LawfulOrderMax Int16 where
  max_eq_or a b := by
    show (if a ≤ b then b else a) = a ∨ (if a ≤ b then b else a) = b
    split
    · exact .inr rfl
    · exact .inl rfl
  max_le_iff a b c := by
    show (if a ≤ b then b else a) ≤ c ↔ a ≤ c ∧ b ≤ c
    simp only [Int16.le_iff_toInt_le]
    split <;> omega

namespace Network

variable {net : Network}

/-! ### The answers one by one -/

/-- Where no node with power is ahead of a node, its version is the highest one. -/
theorem highestVersion_eq {n : Node} (hn : n ∈ net.liveNodes)
    (hmax : ∀ m ∈ net.liveNodes, m.token.version ≤ n.token.version) :
    net.highestVersion = n.token.version := by
  have hle : ∀ v ∈ net.liveNodes.map (·.token.version), v ≤ n.token.version := by
    intro v hv
    obtain ⟨m, hm, rfl⟩ := List.mem_map.1 hv
    exact hmax m hm
  unfold highestVersion
  rw [List.max?_eq_some_iff.2 ⟨List.mem_map_of_mem hn, hle⟩]
  rfl

/-- A network has converged if and only if all nodes with power hold one token. -/
theorem converged_iff :
    net.converged = true ↔ ∀ n ∈ net.liveNodes, ∀ m ∈ net.liveNodes, n.token = m.token := by
  constructor
  · exact fun h n hn m hm => eq_of_converged h hn hm
  · intro h
    have hlive : ∀ x ∈ net.members, x.node.isDown = false → x.node ∈ net.liveNodes := by
      intro x hx hup
      refine List.mem_filter.2 ⟨List.mem_map.2 ⟨x, Array.mem_toList_iff.2 hx, rfl⟩, ?_⟩
      rw [hup]
      rfl
    unfold converged
    split
    · rfl
    · next first hfirst =>
      have hup : first.node.isDown = false := by simpa using Array.find?_some hfirst
      have hmem := hlive first (Array.mem_of_find?_eq_some hfirst) hup
      rw [Array.all_eq_true_iff_forall_mem]
      intro x hx
      -- a node without power is not asked
      cases hd : x.node.isDown with
      | true => rfl
      | false => exact beq_iff_eq.2 (h x.node (hlive x hx hd) first.node hmem)

/-- In a converged network all nodes with power are consistent. -/
theorem consistentNodes_of_converged (h : net.converged = true) :
    net.consistentNodes = net.liveNodes.length := by
  refine List.length_filter_eq_length_iff.2 ?_
  intro n hn
  have hhighest : net.highestVersion = n.token.version := by
    apply highestVersion_eq hn
    intro m hm
    rw [eq_of_converged h hm hn]
    exact Int16.le_refl _
  rw [hhighest]
  exact beq_self_eq_true _

/-- Where a node with power is ahead of all others, and its version stands for its token, the
    consistent nodes are those that hold its token. -/
theorem consistentNodes_eq {n : Node} (hn : n ∈ net.liveNodes)
    (hmax : ∀ m ∈ net.liveNodes, m.token.version ≤ n.token.version)
    (hname : ∀ m ∈ net.liveNodes, m.token.version = n.token.version → m.token = n.token) :
    net.consistentNodes = (net.liveNodes.filter fun m => m.token = n.token).length := by
  have hsame : ∀ m ∈ net.liveNodes,
      (m.token.version == net.highestVersion) = decide (m.token = n.token) := by
    intro m hm
    rw [highestVersion_eq hn hmax, Bool.eq_iff_iff, beq_iff_eq, decide_eq_true_eq]
    exact ⟨hname m hm, fun h => by rw [h]⟩
  exact congrArg List.length (List.filter_congr hsame)

/-! ### All of them together -/

/-- **The questions agree.**  In a run in which node `src` always has power and nobody else
    originates tokens, the highest version is that of `src`, the consistent nodes are the nodes
    with power that hold the whole token of `src`, and the network has converged if and only if
    all nodes with power are consistent.  In any network, convergence makes all nodes with power
    consistent. -/
theorem queries_agree :
    (∀ src t s seed, Run (fun net => net.Powered src ∧ net.SoleOrigin src) (build t s seed) net →
      ∃ n, net.node? src = some n ∧ n.isDown = false ∧
        net.highestVersion = n.token.version ∧
        net.consistentNodes = (net.liveNodes.filter fun m => m.token = n.token).length ∧
        (net.converged = true ↔ net.consistentNodes = net.liveNodes.length)) ∧
    (net.converged = true → net.consistentNodes = net.liveNodes.length) := by
  refine ⟨?_, consistentNodes_of_converged⟩
  intro src t s seed hr
  have hagreed := agreed_of_run hr
  obtain ⟨⟨n, hn, hup⟩, _⟩ := hr.last
  have hlive : n ∈ net.liveNodes :=
    List.mem_filter.2 ⟨mem_nodes_iff.2 ⟨src, hn⟩, by rw [hup]; rfl⟩
  have hcirculates : ∀ m ∈ net.liveNodes, net.Circulates m.token := by
    intro m hm
    obtain ⟨i, hi⟩ := mem_nodes_iff.1 (List.mem_filter.1 hm).1
    exact .inl ⟨i, m, hi, rfl⟩
  have hmax : ∀ m ∈ net.liveNodes, m.token.version ≤ n.token.version := fun m hm =>
    hagreed.descending.le_head (hagreed.follows.latest n hn)
      (hagreed.mem_of_circulates (hcirculates m hm))
  have hname : ∀ m ∈ net.liveNodes, m.token.version = n.token.version → m.token = n.token :=
    fun m hm => hagreed.descending.eq_of_version_eq
      (hagreed.mem_of_circulates (hcirculates m hm))
      (hagreed.mem_of_circulates (hcirculates n hlive))
  have hcount := consistentNodes_eq hlive hmax hname
  refine ⟨n, hn, hup, highestVersion_eq hlive hmax, hcount, consistentNodes_of_converged, ?_⟩
  intro hall
  rw [hcount] at hall
  have hheld := List.length_filter_eq_length_iff.1 hall
  rw [converged_iff]
  intro m hm k hk
  rw [of_decide_eq_true (hheld m hm), of_decide_eq_true (hheld k hk)]

/-- Before the first beacons only the first node of the pair is consistent, and the pair has not
    converged.  After them it has, and both nodes are consistent. -/
theorem queries_agree_pair :
    (∃ net, pair.runUntil (Time.ofSecs 5) 100 = .ok net ∧
      Run (fun net => net.Powered 0 ∧ net.SoleOrigin 0) (build (.build .line 2) {} 7) net ∧
      net.highestVersion = 1 ∧ net.consistentNodes = 1 ∧ net.converged = false) ∧
    ∃ net, pair.runUntil (Time.ofSecs 12) 100 = .ok net ∧ net.converged = true ∧
      net.consistentNodes = 2 := by
  refine ⟨?_, ?_⟩
  · obtain ⟨net, hrun, hp⟩ := exists_of_endsWith
      (p := fun net => (net.node? 0).map (·.token) = some ⟨5, 1⟩ ∧
        net.liveNodes.map (·.token) = [⟨5, 1⟩, ⟨0, 0⟩])
      (by decide +kernel : pair.endsWith (Time.ofSecs 5) 100 _ = true)
    obtain ⟨hsource, htokens⟩ := of_decide_eq_true hp
    have hr := (run_pair.runUntil_of_calm hrun).1.powered_soleOrigin (by decide)
    obtain ⟨n, hn, _, hhighest, hcount, hconverged⟩ := queries_agree.1 0 _ _ _ hr
    rw [hn] at hsource
    have htoken : n.token = ⟨5, 1⟩ := Option.some.inj hsource
    have hone : net.consistentNodes = 1 := by
      have hfilter : (net.liveNodes.filter fun m => m.token = n.token).length =
          ((net.liveNodes.map (·.token)).filter (· = n.token)).length := by
        rw [List.filter_map, List.length_map]
        rfl
      rw [hcount, hfilter, htokens, htoken]
      rfl
    have htwo : net.liveNodes.length = 2 := by
      rw [← List.length_map (·.token), htokens]
      rfl
    refine ⟨net, hrun, hr, by rw [hhighest, htoken], hone, ?_⟩
    rw [← Bool.not_eq_true, hconverged, hone, htwo]
    decide
  · obtain ⟨net, hrun, hp⟩ := exists_of_endsWith
      (p := fun net => net.converged = true ∧ net.liveNodes.length = 2)
      (by decide +kernel : pair.endsWith (Time.ofSecs 12) 100 _ = true)
    obtain ⟨hconverged, htwo⟩ := of_decide_eq_true hp
    exact ⟨net, hrun, hconverged, by rw [queries_agree.2 hconverged, htwo]⟩

end Network

end TokenMesh
