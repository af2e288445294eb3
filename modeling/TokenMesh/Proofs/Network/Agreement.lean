import TokenMesh.Proofs.Network.Calm
import TokenMesh.Proofs.Network.Origin

namespace TokenMesh

/-!
# Agreement on versions

As long as one node alone originates tokens and keeps its power, the tokens that it has originated
are the only ones around.  Whatever the others do, they can only fall back to the token that every
node starts with, and no version ever stands for two values.

* `Network.Follows`: all tokens, held or on their way, come from a list, the first of which a node
  holds;
* `Network.Agreed`: all of them come from the lineage of one node, in which versions only grow;
* `Network.agreed_of_run`: that is so as long as this node has power and originates alone.
-/

namespace Network

/-- All tokens, held or on their way, come from a list, and node `src` holds the first of it. -/
structure Follows (l : List Token) (src : Nat) (net : Network) : Prop where
  latest : ∀ n, net.node? src = some n → l.head? = some n.token
  held : ∀ i n, net.node? i = some n → n.token ∈ l
  flying : ∀ x ∈ net.pending, ∀ t ∈ x.event.token?, t ∈ l

/-- All tokens, held or on their way, come from the lineage of node `src`, in which versions only
    grow. -/
structure Agreed (src : Nat) (net : Network) : Prop where
  descending : Token.Descending (net.lineage src)
  follows : Follows (net.lineage src) src net

theorem Agreed.of_same {src : Nat} {net net' : Network} (h : Agreed src net)
    (ho : net'.originations = net.originations) (hn : ∀ i, net'.node? i = net.node? i)
    (hp : ∀ x ∈ net'.pending, x ∈ net.pending) : Agreed src net' := by
  have hline := lineage_congr ho src
  refine ⟨hline ▸ h.descending, ?_, ?_, ?_⟩
  · intro n hs
    rw [hline]
    exact h.follows.latest n (hn src ▸ hs)
  · intro i n hi
    rw [hline]
    exact h.follows.held i n (hn i ▸ hi)
  · intro x hx t ht
    rw [hline]
    exact h.follows.flying x (hp x hx) t ht

/-! ### The sole origin -/

/-- Where one node has originated everything, its lineage is all that is known. -/
theorem SoleOrigin.known_eq {src : Nat} {net : Network} (h : SoleOrigin net src) :
    net.known = net.lineage src := by
  have hall : net.originations.filter (·.index = src) = net.originations :=
    List.filter_eq_self.2 fun o ho => decide_eq_true (h o ho)
  unfold known lineage originatedBy
  rw [hall]

/-- The latest origination heads the lineage. -/
theorem SoleOrigin.head?_lineage {src : Nat} {net : Network} (h : SoleOrigin net src)
    {o : Origination} (ho : net.originations.head? = some o) :
    (net.lineage src).head? = some o.token := by
  obtain ⟨rest, heq⟩ := List.head?_eq_some_iff.1 ho
  rw [← h.known_eq]
  simp [known, heq]

/-- A node that has not been restarted, and has originated everything, holds the latest token. -/
theorem head?_lineage_of_run {P : Network → Prop} {src : Nat} {t : Topology}
    {s : ProtocolSettings} {seed : UInt64} {net : Network} {n : Node}
    (hr : Run P (build t s seed) net) (hsole : SoleOrigin net src) (hn : net.node? src = some n)
    (hzero : n.counters.restarts = 0) : (net.lineage src).head? = some n.token := by
  obtain ⟨hdesc, hle⟩ := ordered_of_run hr src n hn hzero
  have hmem : n.token ∈ net.lineage src := by
    rw [← hsole.known_eq]
    exact (drawn_of_run hr).held src n hn
  cases hhead : (net.lineage src).head? with
  | none =>
    rw [List.head?_eq_none_iff.1 hhead] at hmem
    cases hmem
  | some u =>
    -- neither of the two is older than the other
    have hu : u ∈ net.lineage src := List.mem_of_mem_head? hhead
    have heq : u.version = n.token.version :=
      Int16.le_antisymm (hle u hu) (hdesc.le_head hhead hmem)
    rw [hdesc.eq_of_version_eq hu hmem heq]

/-- A node that has always had power has never been restarted. -/
theorem restarts_of_powered {P : Network → Prop} {i : Nat} {t : Topology} {s : ProtocolSettings}
    {seed : UInt64} {net : Network} (hP : ∀ net, P net → net.Powered i)
    (hr : Run P (build t s seed) net) {n : Node} (hn : net.node? i = some n) :
    n.counters.restarts = 0 := by
  suffices h : ∀ n, net.node? i = some n → n.counters.restarts = 0 from h n hn
  refine hr.invariant (fun net => ∀ n, net.node? i = some n → n.counters.restarts = 0) ?_ ?_
  · intro _ n hn
    rw [node?_build hn]
    rfl
  · intro net net' hp _ h hs n' hn'
    obtain ⟨n, hn, rfl | ⟨op, rfl⟩⟩ := exists_of_node?_step hs hn'
    · exact h _ hn
    · obtain ⟨m, hm, hup⟩ := hP net hp
      obtain rfl : n = m := Option.some.inj (hn.symm.trans hm)
      rw [Node.restarts_perform hup op]
      exact h n hn

/-- All tokens follow the lineage of a node that has always had power and is the only one that
    has originated any. -/
theorem agreed_of_run {src : Nat} {t : Topology} {s : ProtocolSettings} {seed : UInt64}
    {net : Network}
    (hr : Run (fun net => net.Powered src ∧ net.SoleOrigin src) (build t s seed) net) :
    Agreed src net := by
  obtain ⟨⟨n, hn, _⟩, hsole⟩ := hr.last
  have hzero : ∀ m, net.node? src = some m → m.counters.restarts = 0 :=
    fun m hm => restarts_of_powered (fun _ h => h.1) hr hm
  have hdrawn := drawn_of_run hr
  rw [hsole.known_eq] at hdrawn
  exact ⟨(ordered_of_run hr src n hn (hzero n hn)).1,
    fun m hm => head?_lineage_of_run hr hsole hm (hzero m hm), hdrawn.held, hdrawn.flying⟩

/-! ### Agreement -/

/-- A node holds a token, or a data message or an answer brings it. -/
def Circulates (net : Network) (t : Token) : Prop :=
  (∃ i n, net.node? i = some n ∧ n.token = t) ∨ ∃ x ∈ net.pending, t ∈ x.event.token?

theorem Agreed.mem_of_circulates {src : Nat} {net : Network} {t : Token} (h : Agreed src net)
    (ht : net.Circulates t) : t ∈ net.lineage src := by
  obtain ⟨i, n, hn, rfl⟩ | ⟨x, hx, ht⟩ := ht
  · exact h.follows.held i n hn
  · exact h.follows.flying x hx t ht

/-- **Agreement on versions.**  In a run in which node `src` always has power and nobody else
    originates tokens, every token that a node holds or a message brings is the one that all nodes
    start with, or one that `src` has originated.  Its version lies between zero and that of
    `src`'s token, and tokens of the same version are equal, whatever becomes of the other nodes
    and of the messages. -/
theorem versions_agree {src : Nat} {t : Topology} {s : ProtocolSettings} {seed : UInt64}
    {net : Network}
    (hr : Run (fun net => net.Powered src ∧ net.SoleOrigin src) (build t s seed) net) :
    (∀ u, net.Circulates u → u = .initial ∨ u ∈ net.originatedBy src) ∧
      (∀ u n, net.Circulates u → net.node? src = some n →
        0 ≤ u.version ∧ u.version ≤ n.token.version) ∧
      ∀ u v, net.Circulates u → net.Circulates v → u.version = v.version → u = v := by
  have h := agreed_of_run hr
  refine ⟨?_, fun u n hu hn => ⟨?_, ?_⟩, ?_⟩
  · intro u hu
    rcases List.mem_append.1 (h.mem_of_circulates hu) with hmem | hmem
    · exact .inr hmem
    · exact .inl (List.mem_singleton.1 hmem)
  · exact h.descending.le_of_mem_concat (h.mem_of_circulates hu)
  · exact h.descending.le_head (h.follows.latest n hn) (h.mem_of_circulates hu)
  · intro u v hu hv heq
    exact h.descending.eq_of_version_eq (h.mem_of_circulates hu) (h.mem_of_circulates hv) heq

/-- The second node has the token of the first one in the end, and it is what the first one has
    originated. -/
theorem versions_agree_pair :
    ∃ net, pair.runUntil (Time.ofSecs 12) 100 = .ok net ∧
      Run (fun net => net.Powered 0 ∧ net.SoleOrigin 0) (build (.build .line 2) {} 7) net ∧
      net.Circulates ⟨5, 1⟩ ∧ ⟨5, 1⟩ ∈ net.originatedBy 0 := by
  obtain ⟨net, hrun, hp⟩ := exists_of_endsWith
    (p := fun net => (net.node? 1).map (·.token) = some ⟨5, 1⟩)
    (by decide +kernel : pair.endsWith (Time.ofSecs 12) 100 _ = true)
  obtain ⟨n, hn, htoken⟩ := Option.map_eq_some_iff.1 (of_decide_eq_true hp)
  have hr := (run_pair.runUntil_of_calm hrun).1.powered_soleOrigin (by decide)
  have hcirc : net.Circulates ⟨5, 1⟩ := .inl ⟨1, n, hn, htoken⟩
  obtain ⟨horigin, _, _⟩ := versions_agree hr
  obtain hinit | hmem := horigin _ hcirc
  · exact absurd hinit (by decide)
  · exact ⟨net, hrun, hr, hcirc, hmem⟩

end Network

end TokenMesh
