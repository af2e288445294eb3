import TokenMesh.Proofs.Network.Queries
import TokenMesh.Proofs.Node.Outage
import TokenMesh.Proofs.Node.Requests

namespace TokenMesh

/-!
# Requests to a network

A request that fails sweeps the node that is asked.  Beyond that, it leaves everything as it is, in
the node and in the network around it.

* `Network.OnlySwept`: what such a request leaves of a network, and `Network.exists_onlySwept`: it
  leaves that;
* `Network.Unwatchful`: the watch on convergence has nothing to note between two events;
* `Network.all_or_nothing`: requests as a whole, at a node and in a network.
-/

namespace Network

/-! ### The network around a refused request -/

/-- What a request leaves of a network if it fails at a node: the node has been swept, something
    has been reported, and all else is as it was. -/
structure OnlySwept (i : Nat) (net net' : Network) : Prop where
  node? : ∀ j, net'.node? j =
    if i = j then (net.node? j).map (·.sweep net.clock) else net.node? j
  others : net' = { net with members := net'.members, journal := net'.journal }

variable {net : Network} {i : Nat} {value : Option Int32}

/-- Nobody is there to be asked. -/
theorem onlySwept_tell (hn : net.node? i = none) (notices : List Notice) :
    net.OnlySwept i (net.tell notices) := by
  refine ⟨fun j => ?_, rfl⟩
  rw [node?_congr (members_tell ..)]
  split
  · next hij => rw [← hij, hn]; rfl
  · rfl

/-- The node that is asked is swept and refuses. -/
theorem onlySwept_absorb {n : Node} (hn : net.node? i = some n) {r : Reaction}
    (hr : r.node = n.sweep net.clock) (notices : List Notice) :
    net.OnlySwept i ((net.absorb i r).tell notices) := by
  refine ⟨fun j => ?_, rfl⟩
  show (net.setNode i r.node).node? j = _
  rw [node?_setNode, hr]
  split
  · next hij => rw [← hij, hn]; rfl
  · rfl

/-- A request fails where there is no node, or where the node refuses. -/
def FailsAt (net : Network) (i : Nat) (value : Option Int32) : Prop :=
  ∀ n, net.node? i = some n → ∃ e, (n.originate value net.clock).2 = .error e

/-- A request that fails only sweeps the node, as long as clocks can show the present instant. -/
theorem exists_onlySwept (h : net.FailsAt i value) (hnow : net.clock < Time.horizon) :
    ∃ net', net.originate i value = .ok net' ∧ net.OnlySwept i net' := by
  have hpresent : net.present = .ok net.clock := if_pos hnow
  unfold originate
  rw [hpresent]
  simp only [bind, Except.bind]
  cases hn : net.node? i with
  | none => exact ⟨_, rfl, onlySwept_tell hn _⟩
  | some n =>
    obtain ⟨e, he⟩ := h n hn
    have hr := congrArg Reaction.node (Node.originate_of_refused he)
    rcases ho : n.originate value net.clock with ⟨r, x⟩
    rw [ho] at he hr
    subst he
    simp only [ho]
    exact ⟨_, rfl, onlySwept_absorb hn hr _⟩

/-! ### The watch on convergence -/

/-- There is nothing left to note for the watch on convergence. -/
def Unwatchful (net : Network) : Prop :=
  net.lastBegin.isSome = true → net.convergedAt.isNone = true → net.converged = false

theorem Unwatchful.watch (h : net.Unwatchful) : net.watch = net := by
  unfold Network.watch
  split
  · next hnote =>
    simp only [Bool.and_eq_true] at hnote
    rw [h hnote.1.1 hnote.1.2] at hnote
    cases hnote.2
  · rfl

/-- The watch leaves nothing to note behind. -/
theorem unwatchful_watch (net : Network) : net.watch.Unwatchful := by
  unfold Network.watch
  split
  · exact fun _ hnone => by cases hnone
  · next hnothing =>
    intro hbegun hopen
    rw [hbegun, hopen] at hnothing
    simpa using hnothing

/-- What convergence looks at in a node. -/
def view (net : Network) (j : Nat) : Option (Bool × Token) :=
  (net.node? j).map fun n => (n.isDown, n.token)

/-- The tokens of nodes with power are what convergence sees of these. -/
theorem view_eq_iff {j : Nat} {t : Token} : net.view j = some (false, t) ↔
    ∃ n, net.node? j = some n ∧ n.isDown = false ∧ n.token = t := by
  simp [view]

theorem converged_iff_view : net.converged = true ↔
    ∀ j k t u, net.view j = some (false, t) → net.view k = some (false, u) → t = u := by
  rw [converged_iff]
  have hlive : ∀ n, n ∈ net.liveNodes ↔ ∃ j, net.node? j = some n ∧ n.isDown = false := by
    intro n
    simp [liveNodes, mem_nodes_iff]
  constructor
  · intro h j k t u ht hu
    obtain ⟨n, hn, hup, rfl⟩ := view_eq_iff.1 ht
    obtain ⟨m, hm, hup', rfl⟩ := view_eq_iff.1 hu
    exact h n ((hlive n).2 ⟨j, hn, hup⟩) m ((hlive m).2 ⟨k, hm, hup'⟩)
  · intro h n hn m hm
    obtain ⟨j, hj, hup⟩ := (hlive n).1 hn
    obtain ⟨k, hk, hup'⟩ := (hlive m).1 hm
    exact h j k _ _ (view_eq_iff.2 ⟨n, hj, hup, rfl⟩) (view_eq_iff.2 ⟨m, hk, hup', rfl⟩)

/-- Networks that look alike node by node have both converged or both not. -/
theorem converged_of_view {net' : Network} (h : ∀ j, net'.view j = net.view j) :
    net'.converged = net.converged := by
  rw [Bool.eq_iff_iff, converged_iff_view, converged_iff_view]
  simp only [h]

theorem Unwatchful.of_view {net' : Network} (h : net.Unwatchful)
    (hl : net'.lastBegin = net.lastBegin) (hc : net'.convergedAt = net.convergedAt)
    (hv : ∀ j, net'.view j = net.view j) : net'.Unwatchful := by
  unfold Unwatchful
  rw [hl, hc, converged_of_view hv]
  exact h

/-- A new state of a node that looks as its old one leaves the view as it is. -/
theorem view_setNode {n n' : Node} (hn : net.node? i = some n) (ht : n'.token = n.token)
    (hd : n'.isDown = n.isDown) (j : Nat) : (net.setNode i n').view j = net.view j := by
  unfold view
  rw [node?_setNode]
  split
  · next hij =>
    subst hij
    simp [hn, ht, hd]
  · rfl

theorem unwatchful_step {net' : Network} (hs : Step net net') (h : net.Unwatchful) :
    net'.Unwatchful := by
  cases hs with
  | plan time a => exact h.of_view rfl rfl fun _ => rfl
  | setRole i role =>
    unfold setRole
    split
    · next n hn =>
      exact h.of_view rfl rfl
        (view_setNode hn (n.token_setRole role) (n.steady_setRole role).isDown)
    · exact h
  | withFailures f =>
    refine h.of_view ?_ ?_ fun j => ?_
    all_goals
      unfold withFailures
      split <;> rfl
  | event limit hn =>
    obtain ⟨e, rest, net₁, _, _, _, rfl⟩ := exists_effect_of_next hn
    exact unwatchful_watch net₁
  | rest limit hn => exact h.of_view rfl rfl fun _ => rfl

/-- Before and after each event there is nothing left to note. -/
theorem unwatchful_of_reachable (hr : Reachable net) : net.Unwatchful := by
  obtain ⟨t, s, seed, hrun⟩ := hr
  refine hrun.invariant Unwatchful (fun _ hbegun => ?_) fun _ _ _ _ h hs => unwatchful_step hs h
  rw [lastBegin_build] at hbegun
  cases hbegun

/-- A sweep takes nobody's token or power. -/
theorem OnlySwept.view {net' : Network} (h : net.OnlySwept i net') (j : Nat) :
    net'.view j = net.view j := by
  unfold Network.view
  rw [h.node?]
  split
  · rw [Option.map_map]
    rfl
  · rfl

/-- The event of a request that fails leaves the watch on convergence nothing to note. -/
theorem exists_next_onlySwept {e : Scheduled Occurrence} {rest : EventQueue Occurrence}
    {limit : Nat} (hw : net.Unwatchful) (hp : net.queue.pop? = some (e, rest))
    (hle : e.time ≤ limit) (he : e.event = .action (.originate i value))
    (h : (net.turnTo e rest).FailsAt i value) (hnow : (net.turnTo e rest).clock < Time.horizon) :
    ∃ net', net.next limit = .moved net' ∧ (net.turnTo e rest).OnlySwept i net' := by
  obtain ⟨net', hact, hswept⟩ := exists_onlySwept h hnow
  have hprocess : (net.turnTo e rest).process e.event = .ok net' := by
    rw [he]
    exact hact
  have hlast : net'.lastBegin = net.lastBegin := by
    rw [hswept.others]
    rfl
  have hconverged : net'.convergedAt = net.convergedAt := by
    rw [hswept.others]
    rfl
  have hquiet : net'.Unwatchful := hw.of_view hlast hconverged hswept.view
  refine ⟨net', ?_, hswept⟩
  rw [next_of_process hp hle hprocess, hquiet.watch]

/-! ### Requests as a whole -/

/-- **All or nothing.**  A request to originate a token is refused to a node without power, else to
    one that is not a source, else to one that holds the last version; otherwise it is granted, and
    answered with the next version and the given value, or else the value after the present one,
    which wraps.  A refused request sends nothing, and makes the node forget and count the
    neighbors whose time has come, and nothing else.  One that is granted does that too; then the
    node holds the token, which goes to one of the neighbors that are left.  If none is left, then
    that is counted, nothing is sent, and nothing is drawn.  In a network, a request that fails
    leaves nothing but a sweep of that node and reports.  So the queue, the metrics, the latest
    origination and the note of convergence are as they were, also when the event is over. -/
theorem all_or_nothing :
    (∀ (n : Node) (value : Option Int32) (now : Nat),
      let r := (n.originate value now).1
      let answer := (n.originate value now).2
      let left := (n.neighbors.expire now).entries
      let swept := { n with
        neighbors := n.neighbors.expire now
        counters := { n.counters with
          neighborsExpired := n.counters.neighborsExpired + (n.neighbors.due now).length } }
      (answer = .error .poweredDown ↔ n.isDown = true) ∧
      (∀ role, answer = .error (.notSource role) ↔
        n.isDown = false ∧ n.role ≠ .source ∧ role = n.role) ∧
      (answer = .error .versionExhausted ↔
        n.isDown = false ∧ n.role = .source ∧ n.token.version = 32767) ∧
      (∀ t, answer = .ok t ↔
        n.isDown = false ∧ n.role = .source ∧ n.token.version ≠ 32767 ∧
          t = ⟨value.getD (n.token.value + 1), n.token.version + 1⟩) ∧
      (∀ e, answer = .error e → r.sends = [] ∧ r.node = swept) ∧
      (∀ t, answer = .ok t → t.version.toInt = n.token.version.toInt + 1 ∧
        (left ≠ [] → ∃ e ∈ left, ∃ g, r.sends = [.unicast e.address (.carry t 0)] ∧
          r.node = { swept with
            token := t
            generator := g
            counters := { swept.counters with
              dataOriginated := n.counters.dataOriginated + 1 } }) ∧
        (left = [] → r.sends = [] ∧
          r.node = { swept with
            token := t
            counters := { swept.counters with
              forwardsWithoutNeighbor := n.counters.forwardsWithoutNeighbor + 1 } }))) ∧
    (∀ (net : Network) (i : Nat) (value : Option Int32), net.FailsAt i value →
      net.clock < Time.horizon →
        ∃ net', net.originate i value = .ok net' ∧ net.OnlySwept i net') ∧
    (∀ (net : Network) (i : Nat) (value : Option Int32) (e : Scheduled Occurrence)
      (rest : EventQueue Occurrence) (limit : Nat), Reachable net →
      net.queue.pop? = some (e, rest) → e.time ≤ limit →
      e.event = .action (.originate i value) → (net.turnTo e rest).FailsAt i value →
      (net.turnTo e rest).clock < Time.horizon →
        ∃ net', net.next limit = .moved net' ∧ (net.turnTo e rest).OnlySwept i net') := by
  refine ⟨fun n value now => ?_, fun net i value h hnow => exists_onlySwept h hnow, ?_⟩
  · obtain ⟨hdown, hother, hlast, hgranted⟩ := n.answer_originate_iff value now
    refine ⟨hdown, hother, hlast, hgranted, fun e he => ?_, fun t ht => ⟨?_, ?_⟩⟩
    · rw [Node.originate_of_refused he]
      exact ⟨rfl, rfl⟩
    · exact Token.toInt_version_of_advance? (Node.originate_eq_ok (Prod.ext rfl ht)).1
    · exact Node.walk_of_granted ht
  · intro net i value e rest limit hr hp hle he h hnow
    exact exists_next_onlySwept (unwatchful_of_reachable hr) hp hle he h hnow

/-- A source that knows one peer hands its fifth token to that peer, but keeps the token to itself
    once the time of the peer has come.  One of two relays is asked for a token as the first thing
    that happens, and refuses. -/
theorem all_or_nothing_acquainted :
    let early := Node.acquainted.originate none (Time.ofSecs 20)
    let late := Node.acquainted.originate none (Time.ofSecs 40)
    let relays := (build (.build .line 2) {} 7).plan 0 (.originate 1 (some 5))
    early.2 = .ok ⟨10, 5⟩ ∧ early.1.sends = [.unicast (addressOf 1) (.data 10 5 0)] ∧
    late.2 = .ok ⟨10, 5⟩ ∧ late.1.sends = [] ∧
    ∃ e rest net', Reachable relays ∧ relays.queue.pop? = some (e, rest) ∧
      (relays.turnTo e rest).FailsAt 1 (some 5) ∧
      relays.next 0 = .moved net' ∧ (relays.turnTo e rest).OnlySwept 1 net' := by
  intro early late relays
  obtain ⟨hnode, _, hevent⟩ := all_or_nothing
  have hsource : Node.acquainted.isDown = false ∧ Node.acquainted.role = .source ∧
      Node.acquainted.token = ⟨9, 4⟩ := by decide
  obtain ⟨hup, hrole, htoken⟩ := hsource
  have hanswer : ∀ now, (Node.acquainted.originate none now).2 = .ok ⟨10, 5⟩ := by
    intro now
    refine ((hnode Node.acquainted none now).2.2.2.1 _).2 ⟨hup, hrole, ?_, ?_⟩
    all_goals
      rw [htoken]
      decide
  refine ⟨hanswer _, ?_, hanswer _, ?_, ?_⟩
  · -- only one peer can have been drawn
    obtain ⟨_, hknown, _⟩ := (hnode Node.acquainted none (Time.ofSecs 20)).2.2.2.2.2 _ (hanswer _)
    obtain ⟨x, hx, _, hsends, _⟩ := hknown (by decide)
    have hpeer : ∀ y ∈ (Node.acquainted.neighbors.expire (Time.ofSecs 20)).entries,
        y.address = addressOf 1 := by decide
    rw [hsends, hpeer x hx]
    rfl
  · obtain ⟨_, _, halone⟩ := (hnode Node.acquainted none (Time.ofSecs 40)).2.2.2.2.2 _ (hanswer _)
    exact (halone (by decide)).1
  · obtain ⟨⟨e, rest⟩, hp, hfirst⟩ := Option.map_eq_some_iff.1
      (by decide : relays.queue.pop?.map (fun p => (p.1.time, p.1.event)) =
        some (0, .action (.originate 1 (some 5))))
    obtain ⟨htime, he⟩ := Prod.mk.inj hfirst
    have hreachable : Reachable relays :=
      ⟨_, _, _, .step (.start trivial) (.plan ..) trivial⟩
    have hclock : (relays.turnTo e rest).clock = 0 := by
      rw [clock_turnTo, htime]
      rfl
    have hfails : (relays.turnTo e rest).FailsAt 1 (some 5) := by
      intro n hn
      have hrelay : (relays.node? 1).map (fun n => (n.isDown, n.role)) = some (false, .relay) := by
        decide
      rw [show relays.node? 1 = some n from hn] at hrelay
      obtain ⟨hpower, hrole⟩ := Prod.mk.inj (Option.some.inj hrelay)
      refine ⟨_, ((hnode n (some 5) _).2.1 .relay).2 ⟨hpower, ?_, hrole.symm⟩⟩
      rw [hrole]
      decide
    have hshown : (relays.turnTo e rest).clock < Time.horizon := by
      rw [hclock]
      decide
    obtain ⟨net', hnext, hswept⟩ := hevent relays 1 (some 5) e rest 0 hreachable hp
      (Nat.le_of_eq htime) he hfails hshown
    exact ⟨e, rest, net', hreachable, hp, hfails, hnext, hswept⟩

end Network

end TokenMesh
