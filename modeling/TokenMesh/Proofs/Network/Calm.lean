import TokenMesh.Proofs.Network.Frame

namespace TokenMesh

/-!
# Calm networks

Networks in which nothing is lost, nothing fails, and only one node is asked to originate tokens.
What an event can do is no reason for concern then, and all nodes keep their power.

* `Network.Calm`: nothing that is planned or set up disturbs a network;
* `Network.Powered`, `Network.Awake`: one node has power, or all of them have it;
* `Network.SoleOrigin`: all tokens so far come from one node;
* `Network.calm_next`: a calm network stays calm as long as nothing else is planned.
-/

namespace Action

/-- An action that takes no power and loses no message, and originates at no node but `src`. -/
def IsCalm (src : Nat) : Action → Prop
  | originate i _ => i = src
  | crash .. => False
  | setRole .. => True
  | setLossRate rate => rate.clampUnit.isPositive = false

end Action

namespace Network

/-- Nothing is lost, no failures are injected, and all planned actions are calm. -/
structure Calm (src : Nat) (net : Network) : Prop where
  failures : net.failures = none
  lossless : ∀ l ∈ net.topology.links, l.lossRate.isPositive = false
  actions : ∀ x ∈ net.pending, ∀ a, x.event = .action a → a.IsCalm src

/-- A node is there and has power. -/
def Powered (net : Network) (i : Nat) : Prop := ∃ n, net.node? i = some n ∧ n.isDown = false

/-- All nodes have power. -/
def Awake (net : Network) : Prop := ∀ i n, net.node? i = some n → n.isDown = false

/-- Nobody but node `src` has originated anything. -/
def SoleOrigin (net : Network) (src : Nat) : Prop := ∀ o ∈ net.originations, o.index = src

/-! ### What is planned -/

namespace Calm

variable {src : Nat} {net net' : Network}

/-- No actions but those that were planned already. -/
theorem of_same (h : Calm src net) (hf : net'.failures = net.failures)
    (ht : net'.topology = net.topology) (hp : NoNewActions net net') : Calm src net' where
  failures := by rw [hf]; exact h.failures
  lossless := by rw [ht]; exact h.lossless
  actions x hx a ha := h.actions x (hp.planned x hx a ha) a ha

end Calm

/-- A calm event keeps a network calm. -/
theorem calm_effect {src : Nat} {net net' : Network} {e : Occurrence} (he : Effect net e net')
    (h : Calm src net) (ha : ∀ a, e = .action a → a.IsCalm src) : Calm src net' := by
  have hplanned := noNewActions_effect he
  obtain ⟨hf, ht | ⟨rate, hact, ht⟩⟩ := setup_effect he
  · exact h.of_same hf ht hplanned
  · -- a calm change of loss rates makes all links lossless
    have hactions : ∀ x ∈ net'.pending, ∀ a, x.event = .action a → a.IsCalm src :=
      fun x hx a hxa => h.actions x (hplanned.planned x hx a hxa) a hxa
    refine ⟨hf.trans h.failures, ?_, hactions⟩
    rw [ht]
    intro l hl
    obtain ⟨_, _, rfl⟩ := List.mem_map.1 hl
    exact ha _ hact

/-- The next event of a calm network is calm, and so is the network in which it is processed. -/
theorem Calm.exists_effect_of_next {src limit : Nat} {net net' : Network} (h : Calm src net)
    (hn : net.next limit = .moved net') :
    ∃ e rest net₁, net.queue.pop? = some (e, rest) ∧ e.time ≤ limit ∧
      Effect (net.turnTo e rest) e.event net₁ ∧ net' = net₁.watch ∧
      Calm src (net.turnTo e rest) ∧ ∀ a, e.event = .action a → a.IsCalm src := by
  obtain ⟨e, rest, net₁, hp, hle, he, rfl⟩ := Network.exists_effect_of_next hn
  have hmem : e ∈ net.pending := (pending_of_pop? hp).mem_iff.2 List.mem_cons_self
  exact ⟨e, rest, net₁, hp, hle, he, rfl, h.of_same rfl rfl (.turnTo hp),
    fun a ha => h.actions e hmem a ha⟩

/-- A network stays calm when its next event is processed. -/
theorem calm_next {src limit : Nat} {net net' : Network} (h : Calm src net)
    (hn : net.next limit = .moved net') : Calm src net' := by
  obtain ⟨e, rest, net₁, _, _, he, rfl, ht, ha⟩ := h.exists_effect_of_next hn
  have h₁ : Calm src net₁ := calm_effect he ht ha
  exact h₁.of_same (failures_watch _) (topology_watch _) (.of_same (pending_watch _))

theorem Calm.advanceTo {src : Nat} {net : Network} (h : Calm src net) (time : Nat) :
    Calm src (net.advanceTo time) :=
  h.of_same rfl rfl (.of_same rfl)

/-- A calm network that runs up to a given time takes calm steps only. -/
theorem Run.runUntil_of_calm {src limit budget : Nat} {start net net' : Network}
    (h : Run (Calm src) start net) (hr : net.runUntil limit budget = .ok net') :
    Run (Calm src) start net' ∧ ∀ x ∈ net'.pending, limit < x.time :=
  h.runUntil (fun _ _ hc hn => calm_next hc hn) (fun _ hc => hc.advanceTo limit) hr

/-- A network that has just been built over links without losses is calm. -/
theorem calm_build (src : Nat) {t : Topology} (s : ProtocolSettings) (seed : UInt64)
    (hl : ∀ l ∈ t.links, l.lossRate.isPositive = false) : Calm src (build t s seed) := by
  refine ⟨failures_build t s seed, by rw [topology_build]; exact hl, fun x hx a ha => ?_⟩
  obtain ⟨i, kind, htimer⟩ := mem_pending_build hx
  rw [htimer] at ha
  cases ha

theorem Calm.setRole {src : Nat} {net : Network} (h : Calm src net) (i : Nat) (role : Role) :
    Calm src (net.setRole i role) := by
  have he := effect_setRole net i role
  apply calm_effect he h
  intro a ha
  obtain rfl := Occurrence.action.inj ha
  trivial

theorem Calm.plan {src : Nat} {net : Network} (h : Calm src net) (time : Nat) {a : Action}
    (ha : a.IsCalm src) : Calm src (net.plan time a) where
  failures := h.failures
  lossless := h.lossless
  actions x hx b hb := by
    rcases (mem_pending_schedule net time _).1 hx with rfl | hx
    · obtain rfl := Occurrence.action.inj hb
      exact ha
    · exact h.actions x hx b hb

/-- Nothing disturbs the experiment in which no node crashes. -/
theorem run_pair : Run (Calm 0) (build (.build .line 2) {} 7) pair := by
  have hbuild : Calm 0 (build (.build .line 2) {} 7) := calm_build 0 _ _ (by decide)
  have hsource := hbuild.setRole 0 .source
  exact .step (.step (.start hbuild) (.setRole ..) hsource) (.plan ..) (hsource.plan 0 rfl)

/-! ### Power -/

namespace Awake

variable {net net' : Network}

theorem of_same (h : Awake net) (hm : net'.members = net.members) : Awake net' :=
  fun i n hn => h i n ((node?_congr hm i).symm.trans hn)

theorem setNode (h : Awake net) {n : Node} (hn : n.isDown = false) (i : Nat) :
    Awake (net.setNode i n) := by
  intro j n' hj
  rw [node?_setNode] at hj
  split at hj
  · obtain ⟨_, _, rfl⟩ := Option.map_eq_some_iff.1 hj
    exact hn
  · exact h j n' hj

/-- A reaction that does not take a node's power leaves all nodes awake. -/
theorem follow (h : Awake net) {i : Nat} {r : Reaction} (hr : r.node.isDown = false) :
    Awake (net.follow i r) := by
  have ha : Awake (net.absorb i r) := (h.setNode hr i).of_same rfl
  exact ha.of_same (members_route ..)

theorem fireTimer (h : Awake net) {i : Nat} {m : Member} (hm : net.members[i]? = some m)
    (kind : TimerKind) : Awake (net.fireTimer i m kind) := by
  have hup : m.node.isDown = false := h i _ (node?_eq_some_iff.2 ⟨m, hm, rfl⟩)
  cases kind with
  | announce =>
    exact (h.follow ((m.node.steady_handle (by simp) _).isDown.trans hup)).of_same rfl
  | beacon =>
    exact (h.follow ((m.node.steady_handle (by simp) _).isDown.trans hup)).of_same rfl
  | restart =>
    show Awake (net.restart i m)
    rw [restart_eq]
    -- with power, a restart timer does nothing to the node
    have hstay : (m.node.handle .restartTimer net.clock).node.isDown = false := by
      show m.node.onRestartTimer.node.isDown = false
      rw [Node.onRestartTimer_of_up hup]
      exact hup
    have hf : Awake ((net.follow i (m.node.handle .restartTimer net.clock)).nextGeneration i) :=
      fun j n hj => h.follow hstay j n (by rwa [node?_nextGeneration] at hj)
    exact hf.of_same rfl

end Awake

/-- A calm event takes nobody's power. -/
theorem awake_effect {src : Nat} {net net' : Network} {e : Occurrence} (he : Effect net e net')
    (hc : Calm src net) (ha : ∀ a, e = .action a → a.IsCalm src) (h : Awake net) :
    Awake net' := by
  -- only a crash takes power, and a calm event is none
  cases he with
  | @arrival _ i n sender bytes hn =>
    have hd : Awake net.countDelivery := h.of_same rfl
    exact hd.follow ((n.steady_handleDatagram sender bytes _).isDown.trans (h i n hn))
  | stale kind generation hm hg => exact h
  | fired kind hm => exact h.fireTimer hm kind
  | ignored hf => exact h
  | considered g vetoes hf => rw [hc.failures] at hf; cases hf
  | injected g hf hi he => rw [hc.failures] at hf; cases hf
  | @originated _ i n value r t hn ho =>
    have hr := (Node.steady_of_originate ho).isDown
    have hd : Awake (net.noted i r t) := (h.setNode (hr.trans (h i n hn)) i).of_same rfl
    exact hd.of_same (members_route ..)
  | @notOriginated _ i n value r e hn ho =>
    have hr := (Node.steady_of_originate ho).isDown
    exact (h.setNode (hr.trans (h i n hn)) i).of_same rfl
  | nowhere value hn => exact h.of_same rfl
  | crashed hm hp => exact (ha _ rfl).elim
  | notCrashed hm hp => exact (ha _ rfl).elim
  | noCrash recovery hm => exact h
  | @roleSet _ i n role hn =>
    exact (h.setNode ((n.steady_setRole role).isDown.trans (h i n hn)) i).of_same rfl
  | noRole role hn => exact h
  | lossRateSet rate => exact h.of_same rfl

theorem awake_step {src : Nat} {net net' : Network} (hs : Step net net') (hc : Calm src net)
    (h : Awake net) : Awake net' := by
  cases hs with
  | plan time a => exact h.of_same rfl
  | setRole i role =>
    have he := effect_setRole net i role
    refine awake_effect he hc ?_ h
    intro a ha
    obtain rfl := Occurrence.action.inj ha
    trivial
  | withFailures f =>
    unfold withFailures
    split <;> exact h.of_same rfl
  | event limit hn =>
    obtain ⟨e, rest, net₁, _, _, he, rfl, ht, ha⟩ := hc.exists_effect_of_next hn
    have h₁ : Awake net₁ := awake_effect he ht ha (h.of_same rfl)
    exact h₁.of_same (members_watch _)
  | rest limit hn => exact h.of_same rfl

theorem awake_build (t : Topology) (s : ProtocolSettings) (seed : UInt64) :
    Awake (build t s seed) := by
  intro i n hn
  rw [node?_build hn]
  rfl

/-- All nodes of a network that has always been calm have power. -/
theorem awake_of_run {src : Nat} {t : Topology} {s : ProtocolSettings} {seed : UInt64}
    {net : Network} (hr : Run (Calm src) (build t s seed) net) : Awake net :=
  hr.invariant Awake (fun _ => awake_build t s seed) fun _ _ hc _ h hs => awake_step hs hc h

/-! ### Originations -/

/-- Nobody but one node originates anything as long as a network is calm. -/
theorem soleOrigin_step {src : Nat} {net net' : Network} (hs : Step net net') (hc : Calm src net)
    (h : SoleOrigin net src) : SoleOrigin net' src := by
  -- the record stays as it is, unless the next event is an origination
  have hsame : net'.originations = net.originations → SoleOrigin net' src := by
    intro heq
    unfold SoleOrigin
    rw [heq]
    exact h
  cases hs with
  | plan time a => exact hsame rfl
  | setRole i role =>
    have he := effect_setRole net i role
    obtain heq | ⟨_, _, _, _, _, hact, _⟩ := originations_effect he
    · exact hsame heq
    · cases hact
  | withFailures f =>
    refine hsame ?_
    unfold withFailures
    split
    · exact originations_tell (by simp [Notice.origination?])
    · rfl
  | event limit hn =>
    obtain ⟨e, rest, net₁, _, _, he, rfl, ht, ha⟩ := hc.exists_effect_of_next hn
    obtain heq | ⟨i, n, value, r, u, hact, _, _, _, heq⟩ := originations_effect he
    · exact hsame ((originations_watch _).trans heq)
    · have hi : i = src := ha _ hact
      intro o ho
      rw [originations_watch, heq] at ho
      rcases List.mem_cons.1 ho with rfl | ho
      · exact hi
      · exact h o ho
  | rest limit hn => exact hsame rfl

theorem soleOrigin_of_run {src : Nat} {t : Topology} {s : ProtocolSettings} {seed : UInt64}
    {net : Network} (hr : Run (Calm src) (build t s seed) net) : SoleOrigin net src := by
  refine hr.invariant (SoleOrigin · src) ?_ fun _ _ hc _ h hs => soleOrigin_step hs hc h
  intro _ o ho
  rw [originations_build] at ho
  cases ho

/-- In a calm run the node that may originate tokens always has power, and nobody else originates
    any. -/
theorem Run.powered_soleOrigin {src : Nat} {t : Topology} {s : ProtocolSettings} {seed : UInt64}
    {net : Network} (hsrc : src < t.nodeCount) (hr : Run (Calm src) (build t s seed) net) :
    Run (fun net => net.Powered src ∧ net.SoleOrigin src) (build t s seed) net := by
  refine hr.of_invariant fun net hr => ⟨?_, soleOrigin_of_run hr⟩
  obtain ⟨n, hn⟩ := (placed_of_run hr).exists_node hsrc
  exact ⟨n, hn, awake_of_run hr src n hn⟩

end Network

end TokenMesh
