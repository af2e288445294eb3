import TokenMesh.Proofs.Network.Spread
import TokenMesh.Proofs.Topology.Graph

namespace TokenMesh

/-!
# Convergence of calm networks

Whatever else goes on in a calm network, and however its nodes are linked, the latest token is
everywhere after as many rounds as the farthest node is links away.

* `Network.Spreads`: wherever the latest token is, it is on its way to the neighbors;
* `Network.exists_pending_of_not_holds`: as long as a node lacks the token, something is due that
  has not happened yet;
* `Network.spreads_of_run`: the token spreads in every network that has always been calm.
-/

namespace Network

variable {t : Topology} {s : ProtocolSettings} {seed : UInt64} {src : Nat} {net net' : Network}

/-! ### On its way -/

/-- Wherever the latest token is, it is on its way to all neighbors.  A node that is reached over
    `k` links has it one round after those that are reached over one link less. -/
def Spreads (t : Topology) (src : Nat) (net : Network) : Prop :=
  ∀ o, net.originations.head? = some o → ∀ k a b, t.Within src k a → t.isLinked a b = true →
    b < t.nodeCount → net.Holds a o.token →
    net.Pursuit a b o.token (o.time + (k + 1) * net.round)

/-- As long as a node lacks the latest token, something that brings it nearer has not happened yet,
    and it is due in time. -/
theorem exists_pending_of_not_holds {o : Origination} {k i : Nat} (h : Healthy t s src net)
    (hsrc : src < t.nodeCount) (hspread : Spreads t src net)
    (ho : net.originations.head? = some o) (hw : t.Within src k i)
    (hnot : ¬ net.Holds i o.token) :
    ∃ x ∈ net.pending, (∀ act, x.event ≠ .action act) ∧ x.time ≤ o.time + k * net.round := by
  -- along the way from `src` some node holds the token and the next one does not
  induction hw with
  | zero => exact absurd (h.holds_src hsrc ho) hnot
  | @step k j j' hw hl hj ih =>
    by_cases hprev : net.Holds j o.token
    · cases hspread o ho k j j' hw hl hj hprev with
      | held hheld => exact absurd hheld hnot
      | timer hx hm he ht => exact ⟨_, hx, by simp [he], by omega⟩
      | beacon hx he ht => exact ⟨_, hx, by simp [he], by omega⟩
      | control hx he ht => exact ⟨_, hx, by simp [he], by omega⟩
      | recover hx he ht => exact ⟨_, hx, by simp [he], ht⟩
    · obtain ⟨x, hx, hact, ht⟩ := ih hprev
      refine ⟨x, hx, hact, ?_⟩
      rw [Nat.succ_mul]
      omega

/-- Wherever the latest token is, the next beacon sets out with it within one period. -/
theorem pursuit_of_holds {u : Token} {a b due : Nat} (h : Healthy t s src net)
    (htimely : Timely net net.pending) (ha : net.Holds a u) (hdue : net.clock + net.round ≤ due) :
    net.Pursuit a b u due := by
  obtain ⟨n, hn, rfl⟩ := ha
  obtain ⟨m, hm, rfl⟩ := node?_eq_some_iff.1 hn
  obtain ⟨time, htime⟩ := (htimely.timers a m hm).beacon
  obtain ⟨x, hx, he, rfl⟩ := exists_of_mem_timesIn (htime ▸ List.mem_cons_self)
  have hsoon := h.onTime.beacons x hx a _ he
  refine .timer hx hm he ?_
  unfold round at hdue
  omega

/-! ### Every step -/

/-- What moves nothing in the queue and leaves all nodes their tokens lets the token spread on. -/
theorem Spreads.keep (h : Spreads t src net) (ho : net'.originations = net.originations)
    (hheld : ∀ i u, net'.Holds i u ↔ net.Holds i u)
    (hgen : ∀ i : Nat, net'.members[i]?.map (·.generation) = net.members[i]?.map (·.generation))
    (hs : net'.settings = net.settings) (hd : net'.topology.delay = net.topology.delay)
    (hkept : ∀ x ∈ net.pending, x ∈ net'.pending) : Spreads t src net' := by
  intro o ho' k a b hw hl hb ha
  rw [ho] at ho'
  have hpur := h o ho' k a b hw hl hb ((hheld a _).1 ha)
  have hround : net'.round = net.round := by
    unfold round
    rw [hs, hd]
  rw [hround]
  exact hpur.keep (hheld b _).2 (hgen a) hd hkept

theorem holds_congr (h : ∀ i, net'.node? i = net.node? i) (i : Nat) (u : Token) :
    net'.Holds i u ↔ net.Holds i u := by
  unfold Holds
  rw [h i]

/-- A node keeps its token in every role. -/
theorem holds_setRole (net : Network) (j : Nat) (role : Role) (i : Nat) (u : Token) :
    (net.setRole j role).Holds i u ↔ net.Holds i u := by
  unfold setRole
  split
  · next n hn =>
    have hi : (net.absorb j (n.setRole role)).node? i =
        (net.setNode j (n.setRole role).node).node? i := rfl
    unfold Holds
    rw [hi, node?_setNode]
    split
    · next hji =>
      subst hji
      rw [hn]
      simp [Node.token_setRole]
    · rfl
  · rfl

/-- The token spreads while the next event is processed. -/
theorem spreads_event {limit : Nat} (hn : net.next limit = .moved net')
    (hcount : t.nodeCount ≤ 65536) (hsrc : src < t.nodeCount) (h : Healthy t s src net)
    (h' : Healthy t s src net') (htimely : Timely net net.pending)
    (htimely' : Timely net' net'.pending) (hspread : Spreads t src net) :
    Spreads t src net' := by
  intro o ho k a b hw hl hb ha
  have hround : net'.round = net.round := by
    unfold round
    rw [h'.placed.settings, h.placed.settings, h'.placed.delay, h.placed.delay]
  obtain ⟨e, rest, net₁, hp, _, he, rfl⟩ := exists_effect_of_next hn
  have hclock : net₁.watch.clock = max net.clock e.time :=
    (clock_watch _).trans (extends_effect he).clock
  have hheld : ∀ i u, net₁.watch.Holds i u ↔ net₁.Holds i u :=
    holds_congr fun i => node?_congr (members_watch _) i
  obtain hsame | ⟨i, n, value, r, u, _, _, _, _, hnew⟩ := originations_effect he
  · have ho' : net.originations.head? = some o := by
      rw [← ho, originations_watch, hsame]
      rfl
    by_cases hprev : net.Holds a o.token
    · -- what was on its way to `b` before goes on
      have hmax : ∀ n', net₁.node? b = some n' → n'.token.version ≤ o.token.version := by
        intro n' hn'
        refine h'.version_le ho (i := b) ?_
        rw [node?_congr (members_watch _)]
        exact hn'
      have hpur := pursuit_effect hp he h htimely hcount ho' hl hb hmax hprev
        (hspread o ho' k a b hw hl hb hprev)
      rw [hround]
      exact hpur.keep (hheld b _).2 (by rw [members_watch]) (by rw [topology_watch])
        fun x hx => by rwa [pending_watch]
    · -- the token has just come to `a`, and it came in time
      obtain ⟨x, hx, hact, ht⟩ := exists_pending_of_not_holds h hsrc hspread ho' hw hprev
      have hfirst := time_le_of_pop? hp hx
      have hdue := h.onTime.due x hx hact
      refine pursuit_of_holds h' htimely' ha ?_
      rw [hclock, hround, Nat.succ_mul]
      omega
  · -- the token is new
    rw [originations_watch, hnew] at ho
    obtain rfl := Option.some.inj ho
    refine pursuit_of_holds h' htimely' ha ?_
    rw [hclock, Nat.succ_mul]
    show max net.clock e.time + _ ≤ max net.clock e.time + _
    omega

theorem spreads_step (hs : Step net net') (hcount : t.nodeCount ≤ 65536)
    (hsrc : src < t.nodeCount) (h : Healthy t s src net) (h' : Healthy t s src net')
    (htimely : Timely net net.pending) (htimely' : Timely net' net'.pending)
    (hspread : Spreads t src net) : Spreads t src net' := by
  cases hs with
  | plan time a =>
    exact hspread.keep rfl (fun _ _ => Iff.rfl) (fun _ => rfl) rfl rfl
      fun x hx => (mem_pending_schedule ..).2 (.inr hx)
  | setRole i role =>
    have he := effect_setRole net i role
    have hext := extends_effect he
    refine hspread.keep ?_ (holds_setRole net i role) ?_ hext.settings hext.delay
      hext.kept
    · obtain heq | ⟨_, _, _, _, _, hact, _⟩ := originations_effect he
      · exact heq
      · cases hact
    · intro j
      unfold setRole
      split
      · exact generation_setNode ..
      · rfl
  | withFailures f =>
    unfold withFailures
    split
    · exact hspread.keep (originations_tell (by simp [Notice.origination?]))
        (fun _ _ => Iff.rfl) (fun _ => rfl) rfl rfl fun _ hx => hx
    · exact hspread.keep rfl (fun _ _ => Iff.rfl) (fun _ => rfl) rfl rfl
        fun x hx => (mem_pending_schedule ..).2 (.inr hx)
  | event limit hn => exact spreads_event hn hcount hsrc h h' htimely htimely' hspread
  | rest limit hn =>
    exact hspread.keep rfl (fun _ _ => Iff.rfl) (fun _ => rfl) rfl rfl fun _ hx => hx

/-- The latest token spreads in every network that has always been calm. -/
theorem spreads_of_run (hcount : t.nodeCount ≤ 65536) (hsrc : src < t.nodeCount)
    (hr : Run (Calm src) (build t s seed) net) : Spreads t src net := by
  have hknown : Run (fun net => Healthy t s src net ∧ Timely net net.pending)
      (build t s seed) net := by
    refine hr.of_invariant fun net hr => ⟨healthy_of_run hsrc hr, ?_⟩
    exact timely_of_reachable ⟨t, s, seed, hr.mono fun _ _ => trivial⟩
  refine hknown.invariant (Spreads t src) ?_
    fun _ _ h h' hspread hs => spreads_step hs hcount hsrc h.1 h'.1 h.2 h'.2 hspread
  intro _ o ho
  rw [originations_build] at ho
  cases ho

/-! ### In time -/

/-- Once nothing is due any more up to `k` rounds after an origination, the nodes that are reached
    over `k` links hold the token. -/
theorem holds_of_late {o : Origination} {k i : Nat} (h : Healthy t s src net)
    (hsrc : src < t.nodeCount) (hspread : Spreads t src net)
    (ho : net.originations.head? = some o) (hw : t.Within src k i)
    (hlate : ∀ x ∈ net.pending, o.time + k * net.round < x.time) : net.Holds i o.token := by
  by_contra hnot
  obtain ⟨x, hx, _, ht⟩ := exists_pending_of_not_holds h hsrc hspread ho hw hnot
  exact absurd (hlate x hx) (Nat.not_lt.2 ht)

/-- Nodes that all hold one token agree, whether they have power or not. -/
theorem converged_of_uniform {u : Token} (h : ∀ n ∈ net.nodes, n.token = u) :
    net.converged = true := by
  have hall : ∀ m ∈ net.members, m.node.token = u := by
    intro m hm
    refine h m.node (List.mem_map.2 ⟨m, ?_, rfl⟩)
    exact Array.mem_toList_iff.2 hm
  unfold converged
  split
  · rfl
  · next first hfirst =>
    rw [Array.all_eq_true_iff_forall_mem]
    intro m hm
    have hu : first.node.token = u := hall first (Array.mem_of_find?_eq_some hfirst)
    simp [hall m hm, hu]

/-- Nodes with power that all hold one token are all consistent. -/
theorem consistentNodes_of_uniform {u : Token} (hawake : Awake net)
    (h : ∀ n ∈ net.nodes, n.token = u) : net.consistentNodes = net.size := by
  -- nobody is left out of the count
  have hlive : net.liveNodes = net.nodes := by
    apply List.filter_eq_self.2
    intro n hn
    obtain ⟨i, hi⟩ := mem_nodes_iff.1 hn
    rw [hawake i n hi]
    rfl
  by_cases hnone : net.nodes = []
  · rw [← length_nodes]
    simp [consistentNodes, hlive, hnone]
  · have hversions : net.nodes.map (·.token.version) =
        List.replicate net.nodes.length u.version := by
      apply List.map_eq_replicate_iff.2
      intro n hn
      rw [h n hn]
    have hmax : Std.IdempotentOp (max : Int16 → Int16 → Int16) := ⟨fun v => ite_self v⟩
    have hhighest : net.highestVersion = u.version := by
      unfold highestVersion
      have hlength : net.nodes.length ≠ 0 := fun h => hnone (List.length_eq_zero_iff.1 h)
      rw [hlive, hversions, List.max?_replicate, if_neg hlength]
      rfl
    have hfilter : (net.nodes.filter fun n => n.token.version == u.version) = net.nodes :=
      List.filter_eq_self.2 fun n hn => by simp [h n hn]
    show ((net.liveNodes.filter fun n => n.token.version == net.highestVersion).length) = net.size
    rw [hlive, hhighest, hfilter, length_nodes]

/-- **Bounded convergence.**  Let the topology be connected and let only node `src` originate
    tokens in a network in which nothing is lost and nothing fails.  A node that is `k` links away
    holds the latest token once nothing is due any more up to `k` rounds after its origination.  So
    a run that goes on for one round less than there are nodes ends with all nodes converged. -/
theorem bounded_convergence (hcount : t.nodeCount ≤ 65536) (hconn : t.graph.Connected)
    (src : Fin t.nodeCount) (hr : Run (Calm src) (build t s seed) net) :
    (∀ o, net.originations.head? = some o → ∀ i : Fin t.nodeCount,
      (∀ x ∈ net.pending,
        o.time + t.graph.dist src i * (s.beaconPeriod + 3 * t.delay) < x.time) →
      net.Holds i o.token) ∧
    ∀ limit budget net' o, net.runUntil limit budget = .ok net' →
      net'.originations.head? = some o →
      o.time + (t.nodeCount - 1) * (s.beaconPeriod + 3 * t.delay) ≤ limit →
      net'.summary.converged = true ∧ net'.summary.consistentNodes = t.nodeCount ∧
        ∀ i : Fin t.nodeCount, net'.Holds i o.token := by
  -- the first part holds of every network with such a run, also of the one at the end
  have hnear : ∀ net', Run (Calm src) (build t s seed) net' → ∀ o,
      net'.originations.head? = some o → ∀ i : Fin t.nodeCount,
      (∀ x ∈ net'.pending,
        o.time + t.graph.dist src i * (s.beaconPeriod + 3 * t.delay) < x.time) →
      net'.Holds i o.token := by
    intro net' hr o ho i hlate
    have h : Healthy t s src net' := healthy_of_run src.isLt hr
    have hround : net'.round = s.beaconPeriod + 3 * t.delay := by
      unfold round
      rw [h.placed.settings, h.placed.delay]
    rw [← hround] at hlate
    have hspread := spreads_of_run hcount src.isLt hr
    exact holds_of_late h src.isLt hspread ho (Topology.within_dist hconn src i) hlate
  refine ⟨hnear net hr, ?_⟩
  intro limit budget net' o hrun ho htime
  obtain ⟨hr', hlate⟩ := hr.runUntil_of_calm hrun
  have h : Healthy t s src net' := healthy_of_run src.isLt hr'
  have hall : ∀ i : Fin t.nodeCount, net'.Holds i o.token := by
    intro i
    apply hnear net' hr' o ho i
    intro x hx
    -- no node is farther away than the others are many
    have hdist := Topology.dist_lt_nodeCount hconn src i
    have hrounds : t.graph.dist src i * (s.beaconPeriod + 3 * t.delay) ≤
        (t.nodeCount - 1) * (s.beaconPeriod + 3 * t.delay) :=
      Nat.mul_le_mul_right _ (by omega)
    have hlt := hlate x hx
    omega
  have huniform : ∀ n ∈ net'.nodes, n.token = o.token := by
    intro n hn
    obtain ⟨i, hi⟩ := mem_nodes_iff.1 hn
    obtain ⟨m, hm, hu⟩ := hall ⟨i, h.placed.lt_of_node? hi⟩
    obtain rfl : m = n := Option.some.inj (hm.symm.trans hi)
    exact hu
  refine ⟨converged_of_uniform huniform, ?_, hall⟩
  show net'.consistentNodes = t.nodeCount
  rw [consistentNodes_of_uniform h.awake huniform, h.placed.size]

/-- Two nodes converge within one round. -/
theorem bounded_convergence_pair :
    ∃ net, pair.runUntil (Time.ofSecs 12) 100 = .ok net ∧
      net.originations.head? = some ⟨0, ⟨5, 1⟩, 0⟩ ∧ net.summary.converged = true ∧
      net.summary.consistentNodes = 2 := by
  have hconn : (Topology.build .line 2).graph.Connected := by
    refine (SimpleGraph.connected_iff_exists_forall_reachable _).2 ⟨⟨0, by decide⟩, ?_⟩
    intro ⟨i, hi⟩
    match i, hi with
    | 0, _ => exact .refl _
    | 1, hi =>
      have hadj : (Topology.build .line 2).graph.Adj ⟨0, by decide⟩ ⟨1, hi⟩ :=
        (by decide : (Topology.build .line 2).isLinked 0 1 = true)
      exact hadj.reachable
  obtain ⟨net, hrun, hp⟩ := exists_of_endsWith
    (p := fun net => net.originations.head? = some ⟨0, ⟨5, 1⟩, 0⟩)
    (by decide +kernel : pair.endsWith (Time.ofSecs 12) 100 _ = true)
  have horigin := of_decide_eq_true hp
  obtain ⟨_, hend⟩ := bounded_convergence (by decide) hconn ⟨0, by decide⟩ run_pair
  obtain ⟨hconverged, hconsistent, _⟩ := hend _ _ net _ hrun horigin (by decide)
  exact ⟨net, hrun, horigin, hconverged, hconsistent⟩

end Network

end TokenMesh
