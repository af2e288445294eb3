import TokenMesh.Proofs.Node.Reaction
import TokenMesh.Network

namespace TokenMesh

/-!
# Cold starts

A node that starts again after a power loss is, but for its counters, a node that has just been
switched on: what it knew and what it counted before the loss makes no difference to anything it
does from then on.  Only its role and its random choices go on where they were.

* `Node.bare`: a node without its counters and without the settings that only matter at its start;
* `Node.bare_perform`: what a node does is decided by what is bare of it;
* `Node.Reachable`: what a node with given settings can become;
* `Node.bare_restart`: what a cold start leaves of such a node;
* `Node.Twins`: nodes that nothing tells apart, whatever is done with both;
* `Node.cold_start_forgets`: nodes that have been restarted are twins, of each other and of a new
  node.
-/

namespace ProtocolSettings

/-- The settings apart from those that only matter when a node is switched on for the first time:
its first role and its seed. -/
def bare (s : ProtocolSettings) : ProtocolSettings := { s with role := .relay, seed := none }

end ProtocolSettings

namespace Node

/-- A node without its counters and without the settings that only matter at its start. -/
def bare (n : Node) : Node := { n with settings := n.settings.bare, counters := {} }

end Node

namespace Reaction

/-- A reaction without the counters of the node. -/
def bare (r : Reaction) : Reaction := { r with node := r.node.bare }

/-- The sweep that ends an event does not look at counters either. -/
theorem bare_swept {r r' : Reaction} (h : r.bare = r'.bare) (now : Nat) :
    (r.swept now).bare = (r'.swept now).bare := by
  have hswept : ∀ x : Reaction, (x.swept now).bare = (x.bare.swept now).bare := fun x => rfl
  rw [hswept r, hswept r', h]

end Reaction

namespace Node

/-! ### Counters decide nothing -/

theorem bare_onAnnounceTimer (n : Node) : n.bare.onAnnounceTimer.bare = n.onAnnounceTimer.bare := by
  simp only [onAnnounceTimer, apply_ite Reaction.bare]
  rfl

theorem bare_onBeaconTimer (n : Node) : n.bare.onBeaconTimer.bare = n.onBeaconTimer.bare := by
  simp only [onBeaconTimer, apply_ite Reaction.bare]
  rfl

theorem bare_onRestartTimer (n : Node) : n.bare.onRestartTimer.bare = n.onRestartTimer.bare := by
  simp only [onRestartTimer, apply_ite Reaction.bare]
  rfl

theorem bare_onAnnounce (n : Node) (peer : Address) (now : Nat) :
    (n.bare.onAnnounce peer now).bare = (n.onAnnounce peer now).bare := by
  have hoc : n.bare.neighbors.outcome peer = n.neighbors.outcome peer := rfl
  simp only [onAnnounce, hoc]
  cases n.neighbors.outcome peer <;> rfl

theorem bare_onBeacon (n : Node) (peer : Address) (version : Int16) :
    (n.bare.onBeacon peer version).bare = (n.onBeacon peer version).bare := by
  simp only [onBeacon, apply_ite Reaction.bare]
  rfl

theorem bare_onRecover (n : Node) (peer : Address) (offered : Token) :
    (n.bare.onRecover peer offered).bare = (n.onRecover peer offered).bare := by
  have hj : n.bare.token.judge offered = n.token.judge offered := rfl
  simp only [onRecover, hj]
  cases n.token.judge offered <;> rfl

theorem bare_forward (n : Node) (hops : Int32) (notices : List Notice) :
    (n.bare.forward hops notices).bare = (n.forward hops notices).bare := by
  have hpick : n.bare.neighbors.pick n.bare.generator = n.neighbors.pick n.generator := rfl
  simp only [forward, choosePeer, hpick]
  cases (n.neighbors.pick n.generator).1 <;> rfl

theorem bare_onData (n : Node) (sender : Address) (offered : Token) (hops : Int32) :
    (n.bare.onData sender offered hops).bare = (n.onData sender offered hops).bare := by
  have hforward : ∀ (h : Int32) (x : List Notice),
      ((n.bare.takeData offered).forward h x).bare = ((n.takeData offered).forward h x).bare := by
    intro h x
    rw [← bare_forward, ← bare_forward (n.takeData offered)]
    rfl
  simp only [onData, apply_ite Reaction.bare, hforward]
  rfl

theorem bare_onInbound (n : Node) (sender : Address) (m : Message) (now : Nat) :
    (n.bare.onInbound sender m now).bare = (n.onInbound sender m now).bare := by
  have hmessage : (n.bare.onMessage sender m now).bare = (n.onMessage sender m now).bare := by
    cases m with
    | announce => exact bare_onAnnounce ..
    | data value version hops => exact bare_onData ..
    | beacon version => exact bare_onBeacon ..
    | control version => rfl
    | recover value version => exact bare_onRecover ..
  simp only [onInbound, apply_ite Reaction.bare, hmessage]
  rfl

theorem bare_handle (n : Node) (e : Event) (now : Nat) :
    (n.bare.handle e now).bare = (n.handle e now).bare := by
  apply Reaction.bare_swept
  cases e with
  | announceTimer => exact bare_onAnnounceTimer n
  | beaconTimer => exact bare_onBeaconTimer n
  | restartTimer => exact bare_onRestartTimer n
  | inbound sender m => exact bare_onInbound ..

theorem bare_handleDatagram (n : Node) (sender : Address) (bytes : List UInt8) (now : Nat) :
    (n.bare.handleDatagram sender bytes now).bare = (n.handleDatagram sender bytes now).bare := by
  unfold handleDatagram
  split
  · exact bare_handle ..
  · exact Reaction.bare_swept rfl now

theorem bare_originate (n : Node) (value : Option Int32) (now : Nat) :
    (n.bare.originate value now).map Reaction.bare id =
      (n.originate value now).map Reaction.bare id := by
  have hadvance : (n.bare.sweep now).token.advance?
        (value.getD (n.bare.sweep now).token.nextValue) =
      n.token.advance? (value.getD n.token.nextValue) := rfl
  have hadvance' : (n.sweep now).token.advance? (value.getD (n.sweep now).token.nextValue) =
      n.token.advance? (value.getD n.token.nextValue) := rfl
  have hpick : ∀ t, { n.bare.sweep now with token := t }.choosePeer.1 =
      { n.sweep now with token := t }.choosePeer.1 := fun _ => rfl
  simp only [originate, apply_ite (Prod.map Reaction.bare id), hadvance, hadvance']
  cases n.token.advance? (value.getD n.token.nextValue) with
  | none => rfl
  | some t =>
    simp only [hpick]
    cases { n.sweep now with token := t }.choosePeer.1 <;> rfl

theorem bare_setRole (n : Node) (role : Role) :
    (n.bare.setRole role).bare = (n.setRole role).bare := by
  simp only [setRole, apply_ite Reaction.bare]
  rfl

/-- What a node does, and what becomes of it, is decided by what is bare of it. -/
theorem bare_perform (n : Node) (op : Operation) :
    (n.bare.perform op).map Reaction.bare id = (n.perform op).map Reaction.bare id := by
  cases op with
  | event e now => exact Prod.ext (bare_handle n e now) rfl
  | datagram sender bytes now => exact Prod.ext (bare_handleDatagram n sender bytes now) rfl
  | originate value now =>
    have h := bare_originate n value now
    simp only [perform]
    -- both are refused for one reason, or both originate one token
    rcases hbare : n.bare.originate value now with ⟨r', x'⟩
    rcases hn : n.originate value now with ⟨r, x⟩
    rw [hbare, hn] at h
    obtain ⟨hr, rfl⟩ := Prod.mk.inj h
    cases x' <;> exact Prod.ext hr rfl
  | setRole role => exact Prod.ext (bare_setRole n role) rfl
  | powerDown delay now =>
    cases hd : n.isDown with
    | true =>
      have hbare : n.bare.powerDown delay now = .error .restartPending := if_pos hd
      have hn : n.powerDown delay now = .error .restartPending := if_pos hd
      simp only [perform, hbare, hn]
      rfl
    | false =>
      have hup : ¬ n.isDown = true := by simp [hd]
      have hbare : n.bare.powerDown delay now = .ok
          { node := { n.bare with power := .down (now + delay) }
            notices := [n.bare.report (.poweringDown delay)] } := if_neg hup
      have hn : n.powerDown delay now = .ok
          { node := { n with power := .down (now + delay) }
            notices := [n.report (.poweringDown delay)] } := if_neg hup
      simp only [perform, hbare, hn]
      rfl

/-- So what two nodes do is the same as long as they are equal but for what does not matter. -/
theorem perform_congr {n n' : Node} (h : n.bare = n'.bare) (op : Operation) :
    (n.perform op).1.bare = (n'.perform op).1.bare ∧ (n.perform op).2 = (n'.perform op).2 := by
  have hop := bare_perform n op
  rw [h, bare_perform n' op] at hop
  exact Prod.mk.inj hop.symm

/-! ### Nodes that nothing tells apart -/

/-- What can be seen of operations that are done one after another: what each of them sends, reports
and answers. -/
def trace (n : Node) : List Operation → List (List Outbound × List Notice × Answer)
  | [] => []
  | op :: ops =>
    ((n.perform op).1.sends, (n.perform op).1.notices, (n.perform op).2) ::
      (n.perform op).1.node.trace ops

/-- Two nodes that show the same and know the same, whatever is done with both. -/
structure Twins (n n' : Node) : Prop where
  trace : ∀ ops, n.trace ops = n'.trace ops
  role : ∀ ops, (n.performAll ops).role = (n'.performAll ops).role
  token : ∀ ops, (n.performAll ops).token = (n'.performAll ops).token
  neighbors : ∀ ops, (n.performAll ops).neighbors = (n'.performAll ops).neighbors
  power : ∀ ops, (n.performAll ops).power = (n'.performAll ops).power
  generator : ∀ ops, (n.performAll ops).generator = (n'.performAll ops).generator

theorem bare_performAll {n n' : Node} (h : n.bare = n'.bare) (ops : List Operation) :
    (n.performAll ops).bare = (n'.performAll ops).bare := by
  induction ops generalizing n n' with
  | nil => exact h
  | cons op ops ih => exact ih (congrArg Reaction.node (perform_congr h op).1 :)

theorem trace_congr {n n' : Node} (h : n.bare = n'.bare) (ops : List Operation) :
    n.trace ops = n'.trace ops := by
  induction ops generalizing n n' with
  | nil => rfl
  | cons op ops ih =>
    obtain ⟨hreaction, hanswer⟩ := perform_congr h op
    have hsends : (n.perform op).1.sends = (n'.perform op).1.sends :=
      (congrArg Reaction.sends hreaction :)
    have hnotices : (n.perform op).1.notices = (n'.perform op).1.notices :=
      (congrArg Reaction.notices hreaction :)
    have hrest : (n.perform op).1.node.trace ops = (n'.perform op).1.node.trace ops :=
      ih (congrArg Reaction.node hreaction :)
    simp only [trace, hsends, hnotices, hanswer, hrest]

/-- Nodes that are equal but for what does not matter are twins. -/
theorem twins_of_bare {n n' : Node} (h : n.bare = n'.bare) : n.Twins n' where
  trace := trace_congr h
  role ops := (congrArg Node.role (bare_performAll h ops) :)
  token ops := (congrArg Node.token (bare_performAll h ops) :)
  neighbors ops := (congrArg Node.neighbors (bare_performAll h ops) :)
  power ops := (congrArg Node.power (bare_performAll h ops) :)
  generator ops := (congrArg Node.generator (bare_performAll h ops) :)

/-! ### What a cold start leaves -/

/-- What a node at an address can become with given settings, whatever choices the system makes for
one without a seed.  Beside the operations there is the sweep alone, which comes before every
command of an operator. -/
inductive Reachable (a : Address) (s : ProtocolSettings) : Node → Prop
  | fresh {entropy : Generator} : Reachable a s (.fresh a s entropy)
  | perform {n : Node} (h : Reachable a s n) (op : Operation) : Reachable a s (n.perform op).1.node
  | sweep {n : Node} (h : Reachable a s n) (now : Nat) : Reachable a s (n.sweep now)

theorem Reachable.performAll {a : Address} {s : ProtocolSettings} {n : Node}
    (h : Reachable a s n) (ops : List Operation) : Reachable a s (n.performAll ops) := by
  induction ops generalizing n with
  | nil => exact h
  | cons op ops ih => exact ih (h.perform op)

end Node

/-- Announcements leave the limits of a table alone, and those are all that is left of it once it
has been cleared. -/
theorem NeighborTable.clear_announce (t : NeighborTable) (sender : Address) (now : Nat) :
    (t.announce sender now).clear = t.clear := by
  unfold announce
  dsimp only
  split <;> rfl

namespace Node

theorem clear_onAnnounce (n : Node) (peer : Address) (now : Nat) :
    (n.onAnnounce peer now).node.neighbors.clear = n.neighbors.clear := by
  rw [neighbors_onAnnounce]
  exact n.neighbors.clear_announce peer now

theorem clear_onBeacon (n : Node) (peer : Address) (version : Int16) :
    (n.onBeacon peer version).node.neighbors.clear = n.neighbors.clear := by
  unfold onBeacon
  dsimp only
  split
  · rfl
  · split <;> rfl

theorem clear_onRecover (n : Node) (peer : Address) (offered : Token) :
    (n.onRecover peer offered).node.neighbors.clear = n.neighbors.clear := by
  unfold onRecover
  split <;> rfl

theorem clear_forward (n : Node) (hops : Int32) (notices : List Notice) :
    (n.forward hops notices).node.neighbors.clear = n.neighbors.clear := by
  unfold forward choosePeer
  dsimp only
  cases (n.neighbors.pick n.generator).1 <;> rfl

theorem clear_onData (n : Node) (sender : Address) (offered : Token) (hops : Int32) :
    (n.onData sender offered hops).node.neighbors.clear = n.neighbors.clear := by
  obtain ⟨_, _, hdata⟩ | ⟨_, _, hdata⟩ := n.onData_cases sender offered hops
  · rw [hdata]
    rfl
  · rw [hdata]
    exact clear_forward ..

theorem clear_react (n : Node) (e : Event) (now : Nat) :
    (n.react e now).node.neighbors.clear = n.neighbors.clear := by
  cases e with
  | announceTimer =>
    simp only [react, onAnnounceTimer]
    split <;> rfl
  | beaconTimer =>
    simp only [react, onBeaconTimer]
    split <;> rfl
  | restartTimer =>
    simp only [react, onRestartTimer]
    split <;> rfl
  | inbound sender m =>
    simp only [react, onInbound]
    split
    · rfl
    · split
      · rfl
      · cases m with
        | announce => exact clear_onAnnounce ..
        | data value version hops => exact clear_onData ..
        | beacon version => exact clear_onBeacon ..
        | control version => rfl
        | recover value version => exact clear_onRecover ..

theorem clear_launch (n : Node) (token : Token) (told : List Notice) :
    (n.launch token told).node.neighbors.clear = n.neighbors.clear := by
  unfold launch choosePeer
  dsimp only
  cases (n.neighbors.pick n.generator).1 <;> rfl

/-- Nothing that is done with a node changes the limits of its table. -/
theorem clear_perform (n : Node) (op : Operation) :
    (n.perform op).1.node.neighbors.clear = n.neighbors.clear := by
  cases op with
  | event e now => exact clear_react n e now
  | datagram sender bytes now =>
    simp only [perform, handleDatagram]
    split
    · exact clear_react ..
    · rfl
  | originate value now =>
    obtain ⟨e, he⟩ | ⟨t, _, _, _, ht⟩ := n.originate_cases value now
    · simp only [perform, he]
      rfl
    · simp only [perform, ht]
      exact clear_launch ..
  | setRole role =>
    simp only [perform, setRole]
    split <;> rfl
  | powerDown delay now =>
    cases hp : n.powerDown delay now with
    | ok r =>
      simp only [perform, hp]
      rw [(powerDown_eq_ok hp).2.1]
    | error e => simp only [perform, hp]

/-- Whatever a node has become, its address, its settings and the limits of its table are those that
it was switched on with. -/
theorem Reachable.origin {a : Address} {s : ProtocolSettings} {n : Node} (h : Reachable a s n) :
    n.address = a ∧ n.settings = s ∧
      n.neighbors.clear = .empty s.maxNeighbors s.neighborTimeout := by
  induction h with
  | fresh => exact ⟨rfl, rfl, rfl⟩
  | @perform n _ op ih =>
    have hlawful := lawful_perform n op
    exact ⟨hlawful.address.trans ih.1, hlawful.settings.trans ih.2.1,
      (clear_perform n op).trans ih.2.2⟩
  | sweep _ now ih => exact ih

/-- A node that starts again is a new one with the role and the generator that it had. -/
theorem bare_restart {a : Address} {s : ProtocolSettings} {n : Node} (h : Reachable a s n)
    (hd : n.isDown = true) (now : Nat) :
    (n.handle .restartTimer now).node.bare =
      { fresh a s with role := n.role, generator := n.generator }.bare := by
  obtain ⟨haddress, hsettings, hclear⟩ := h.origin
  show (n.onRestartTimer.node.sweep now).bare = _
  rw [onRestartTimer_of_down hd]
  show ({ n with
    settings := n.settings.bare, neighbors := n.neighbors.clear.expire now,
    token := .initial, power := .on, counters := {} } : Node) = _
  rw [haddress, hsettings, hclear]
  rfl

/-- Settings that agree but for what only matters at the start make the same nodes, once these are
given the same role and the same generator. -/
theorem bare_fresh {s s' : ProtocolSettings} (h : s.bare = s'.bare) (a : Address) (role : Role)
    (g : Generator) :
    ({ fresh a s with role := role, generator := g } : Node).bare =
      { fresh a s' with role := role, generator := g }.bare := by
  have hcapacity : s.maxNeighbors = s'.maxNeighbors := (congrArg ProtocolSettings.maxNeighbors h :)
  have htimeout : s.neighborTimeout = s'.neighborTimeout :=
    (congrArg ProtocolSettings.neighborTimeout h :)
  simp only [bare, fresh, h, hcapacity, htimeout]

/-- Of all that a node has known and counted, nothing is left once it has been restarted.  Take two
nodes at one address whose settings agree but for the first role and the seed, both without power,
whatever each of them has been through.  If both have the same role and make the same random
choices from here on, then after their restarts nothing tells them apart, and nothing tells them
from a new node with that role and those random choices. -/
theorem cold_start_forgets {a : Address} {s s' : ProtocolSettings} {n n' : Node}
    (h : Reachable a s n) (h' : Reachable a s' n') (hs : s.bare = s'.bare)
    (hd : n.isDown = true) (hd' : n'.isDown = true)
    (hrole : n.role = n'.role) (hgen : n.generator = n'.generator) (now : Nat) :
    (n.handle .restartTimer now).sends = (n'.handle .restartTimer now).sends ∧
    (n.handle .restartTimer now).node.Twins (n'.handle .restartTimer now).node ∧
    ∀ new : ProtocolSettings, new.bare = s.bare → new.role = n.role →
      (n.handle .restartTimer now).node.Twins { fresh a new with generator := n.generator } := by
  have hn := bare_restart h hd now
  have hn' := bare_restart h' hd' now
  refine ⟨?_, ?_, ?_⟩
  · show n.onRestartTimer.sends = n'.onRestartTimer.sends
    rw [sends_onRestartTimer, sends_onRestartTimer]
  · apply twins_of_bare
    rw [hn, hn', bare_fresh hs, hrole, hgen]
  · intro new hnew hnewrole
    apply twins_of_bare
    rw [hn, bare_fresh hnew.symm, ← hnewrole]
    rfl

/-! ### Two pasts -/

/-- A relay that has heard a peer and taken over a token, and has then lost its power. -/
def informed : Node :=
  (fresh (Network.addressOf 0) { seed := some 7 }).performAll
    [.event (.inbound (Network.addressOf 1) .announce) 5,
      .event (.inbound (Network.addressOf 1) (.recover 9 4)) 6,
      .event .beaconTimer 7, .powerDown 100 8]

/-- A source that has originated a token with nobody to hand it to, has become a relay, and has then
lost its power. -/
def uninformed : Node :=
  (fresh (Network.addressOf 0) { role := .source, seed := some 7 }).performAll
    [.originate (some 3) 1, .setRole .relay, .powerDown 50 2]

/-- The two nodes differ in all that a restart clears, and nothing tells them apart after it. -/
theorem cold_start_forgets_informed :
    informed.token ≠ uninformed.token ∧ informed.neighbors ≠ uninformed.neighbors ∧
    informed.counters ≠ uninformed.counters ∧
    (informed.handle .restartTimer 200).node.Twins (uninformed.handle .restartTimer 200).node ∧
    (informed.handle .restartTimer 200).node.Twins
      (fresh (Network.addressOf 0) { seed := some 7 }) := by
  have hinformed : Reachable (Network.addressOf 0) { seed := some 7 } informed :=
    Reachable.fresh.performAll _
  have huninformed :
      Reachable (Network.addressOf 0) { role := .source, seed := some 7 } uninformed :=
    Reachable.fresh.performAll _
  have hgen : informed.generator = .ofSeed 7 := by decide
  obtain ⟨_, htwins, hnew⟩ := cold_start_forgets hinformed huninformed rfl (by decide)
    (by decide) (by decide) (by decide) 200
  refine ⟨by decide, by decide, by decide, htwins, ?_⟩
  have hn := hnew { seed := some 7 } rfl (by decide)
  rw [hgen] at hn
  exact hn

end Node

end TokenMesh
