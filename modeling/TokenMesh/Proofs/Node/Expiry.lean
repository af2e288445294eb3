import TokenMesh.Proofs.Node.Contacts
import TokenMesh.Proofs.Node.Outage

namespace TokenMesh

/-!
# Expired neighbors

A node forgets the neighbors whose time has come in sweeps: after every event, and before it
originates a token.  So what it knows has outlasted its latest sweep.  A walk never begins with a
neighbor whose time has come.  But it may be handed on to one whose time has come since the latest
sweep, and such neighbors may keep others out of a full table.

* `NeighborTable.Outlasts`: all entries of a table expire after a given instant;
* `Node.Hears`: what a reaction does to the table of a node;
* `Node.SweptAt`: what a node can become, and when it was swept last;
* `Node.peers_of_data`, `Node.turnedAway_of_perform`: to whom data goes, and who is turned away;
* `Node.outlasts_sweep`: what a node acts on has outlasted its latest sweep.
-/

namespace NeighborTable

/-- All entries expire after a given instant; where there is none, there are no entries. -/
def Outlasts (t : NeighborTable) (instant? : Option Nat) : Prop :=
  ∀ e ∈ t.entries, ∃ u ∈ instant?, u < e.expiry

/-- What is left after a sweep has outlasted it. -/
theorem outlasts_expire (t : NeighborTable) (now : Nat) : (t.expire now).Outlasts (some now) := by
  intro e he
  exact ⟨now, rfl, of_decide_eq_true (List.mem_filter.1 he).2⟩

theorem size_expire_le (t : NeighborTable) (now : Nat) : (t.expire now).size ≤ t.size :=
  List.length_filter_le ..

@[simp] theorem capacity_announce (t : NeighborTable) (sender : Address) (now : Nat) :
    (t.announce sender now).capacity = t.capacity := by
  unfold announce
  dsimp only
  split <;> rfl

/-- A peer is turned away where it is not known and the table is full. -/
theorem outcome_eq_dropped_iff {t : NeighborTable} {sender : Address} :
    t.outcome sender = .dropped ↔ t.contains sender = false ∧ t.capacity ≤ t.size := by
  unfold outcome
  split
  · next h => simp [h]
  · next h =>
    split
    · next hlt => simp [Nat.not_le.2 hlt]
    · next hge => simp [h, Nat.le_of_not_lt hge]

/-- A peer is entered only where there is room. -/
theorem size_lt_of_inserted {t : NeighborTable} {sender : Address}
    (h : t.outcome sender = .inserted) : t.size < t.capacity := by
  unfold outcome at h
  split at h
  · cases h
  · split at h
    · next hlt => exact hlt
    · cases h

/-- An announcement never fills a table beyond its capacity. -/
theorem size_announce_le {t : NeighborTable} (h : t.size ≤ t.capacity) (sender : Address)
    (now : Nat) : (t.announce sender now).size ≤ t.capacity := by
  unfold announce
  dsimp only
  split
  · simpa [size] using h
  · next hroom =>
    have hlt := size_lt_of_inserted hroom
    simp only [size, List.length_append, List.length_singleton] at hlt ⊢
    exact hlt
  · exact h

end NeighborTable

/-- Who announces itself by an operation. -/
def Operation.announcer? : Operation → Option Address
  | event (.inbound sender .announce) _ => some sender
  | datagram sender bytes _ =>
    match Message.decode bytes with
    | .ok .announce => some sender
    | _ => none
  | _ => none

namespace Node

/-! ### The table -/

/-- A reaction leaves the table of a node as it is and turns nobody away. -/
structure LeavesTable (n : Node) (r : Reaction) : Prop where
  neighbors : r.node.neighbors = n.neighbors
  turnedAway : r.node.counters.neighborsDroppedFull = n.counters.neighborsDroppedFull

/-- What a reaction does to the table of a node, before the sweep that ends an event, if
    `announcer?` has announced itself. -/
inductive Hears (n : Node) (announcer? : Option Address) (now : Nat) (r : Reaction) : Prop
  | same (h : n.LeavesTable r)
  | announced (sender : Address) (hs : announcer? = some sender)
      (ht : r.node.neighbors = n.neighbors.announce sender now)
      (hc : r.node.counters.neighborsDroppedFull ≠ n.counters.neighborsDroppedFull →
        n.neighbors.outcome sender = .dropped)
  | cleared (ht : r.node.neighbors = n.neighbors.clear)
      (hc : r.node.counters.neighborsDroppedFull = n.counters.neighborsDroppedFull)

section hears

variable (n : Node)

theorem leavesTable_onBeacon (peer : Address) (version : Int16) :
    n.LeavesTable (n.onBeacon peer version) := by
  unfold onBeacon
  dsimp only
  split
  · exact ⟨rfl, rfl⟩
  · split <;> exact ⟨rfl, rfl⟩

theorem leavesTable_onRecover (peer : Address) (offered : Token) :
    n.LeavesTable (n.onRecover peer offered) := by
  unfold onRecover
  split <;> exact ⟨rfl, rfl⟩

theorem leavesTable_forward (hops : Int32) (notices : List Notice) :
    n.LeavesTable (n.forward hops notices) := by
  unfold forward choosePeer
  dsimp only
  split <;> exact ⟨rfl, rfl⟩

theorem leavesTable_launch (token : Token) (told : List Notice) :
    n.LeavesTable (n.launch token told) := by
  unfold launch choosePeer
  dsimp only
  split <;> exact ⟨rfl, rfl⟩

theorem leavesTable_onData (sender : Address) (offered : Token) (hops : Int32) :
    n.LeavesTable (n.onData sender offered hops) := by
  obtain ⟨_, _, hdata⟩ | ⟨_, _, hdata⟩ := n.onData_cases sender offered hops
  · rw [hdata]
    exact ⟨rfl, rfl⟩
  · rw [hdata]
    have h := (n.takeData offered).leavesTable_forward (nextHops hops)
      (n.dataNotices sender offered hops)
    exact ⟨h.neighbors, h.turnedAway⟩

theorem leavesTable_onAnnounceTimer : n.LeavesTable n.onAnnounceTimer := by
  unfold onAnnounceTimer
  split <;> exact ⟨rfl, rfl⟩

theorem leavesTable_onBeaconTimer : n.LeavesTable n.onBeaconTimer := by
  unfold onBeaconTimer
  split <;> exact ⟨rfl, rfl⟩

/-- Among all messages, only an announcement changes whom a node knows. -/
theorem leavesTable_onMessage {m : Message} (hm : m ≠ .announce) (sender : Address) (now : Nat) :
    n.LeavesTable (n.onMessage sender m now) := by
  cases m with
  | announce => exact absurd rfl hm
  | data value version hops => exact n.leavesTable_onData sender ⟨value, version⟩ hops
  | beacon version => exact n.leavesTable_onBeacon sender version
  | control version => exact ⟨rfl, rfl⟩
  | recover value version => exact n.leavesTable_onRecover sender ⟨value, version⟩

theorem hears_onAnnounce (sender : Address) (now : Nat) :
    n.Hears (some sender) now (n.onAnnounce sender now) := by
  unfold onAnnounce
  dsimp only
  -- entered, renewed or turned away
  split
  · exact .announced sender rfl rfl fun hne => absurd rfl hne
  · exact .announced sender rfl rfl fun hne => absurd rfl hne
  · next hdropped => exact .announced sender rfl rfl fun _ => hdropped

theorem hears_onInbound (sender : Address) (m : Message) (now : Nat) :
    n.Hears (Operation.event (.inbound sender m) now).announcer? now
      (n.onInbound sender m now) := by
  unfold onInbound
  -- without power, from itself, or from a peer
  split
  · exact .same ⟨rfl, rfl⟩
  · split
    · exact .same ⟨rfl, rfl⟩
    · by_cases hm : m = .announce
      · subst hm
        exact n.hears_onAnnounce sender now
      · exact .same (n.leavesTable_onMessage hm sender now)

theorem hears_react (e : Event) (now : Nat) :
    n.Hears (Operation.event e now).announcer? now (n.react e now) := by
  cases e with
  | announceTimer => exact .same n.leavesTable_onAnnounceTimer
  | beaconTimer => exact .same n.leavesTable_onBeaconTimer
  | restartTimer =>
    show n.Hears none now n.onRestartTimer
    unfold onRestartTimer
    split
    · exact .cleared rfl rfl
    · exact .same ⟨rfl, rfl⟩
  | inbound sender m => exact n.hears_onInbound sender m now

/-- What comes of the table of a node by an operation: one that sweeps may do something to it
    besides, and any other leaves it alone. -/
theorem hears_perform (op : Operation) :
    (∃ now r, op.sweepTime? = some now ∧ n.Hears op.announcer? now r ∧
      (n.perform op).1.node.neighbors = r.node.neighbors.expire now ∧
      (n.perform op).1.node.counters.neighborsDroppedFull =
        r.node.counters.neighborsDroppedFull) ∨
    (op.sweepTime? = none ∧ n.LeavesTable (n.perform op).1) := by
  cases op with
  | event e now => exact .inl ⟨now, n.react e now, rfl, n.hears_react e now, rfl, rfl⟩
  | datagram sender bytes now =>
    left
    cases hdec : Message.decode bytes with
    | ok m =>
      have hwho : (Operation.datagram sender bytes now).announcer? =
          (Operation.event (.inbound sender m) now).announcer? := by
        cases m <;> simp [Operation.announcer?, hdec]
      have hhandle : n.handleDatagram sender bytes now = n.handle (.inbound sender m) now := by
        simp only [handleDatagram, hdec]
      refine ⟨now, n.onInbound sender m now, rfl, hwho ▸ n.hears_onInbound sender m now, ?_⟩
      simp only [perform, hhandle]
      exact ⟨rfl, rfl⟩
    | error e =>
      have hdrop : n.handleDatagram sender bytes now =
          (n.dropMalformed sender bytes.length e).swept now := by
        simp only [handleDatagram, hdec]
      refine ⟨now, n.dropMalformed sender bytes.length e, rfl, .same ⟨rfl, rfl⟩, ?_⟩
      simp only [perform, hdrop]
      exact ⟨rfl, rfl⟩
  | originate value now =>
    refine .inl ⟨now, { node := n }, rfl, .same ⟨rfl, rfl⟩, ?_⟩
    obtain ⟨e, he⟩ | ⟨t, _, _, _, ht⟩ := n.originate_cases value now
    · simp only [perform, he]
      exact ⟨rfl, rfl⟩
    · simp only [perform, ht]
      have h := (n.sweep now).leavesTable_launch t
        (n.sweepNotices now ++ [n.report (.originating t)])
      exact ⟨h.neighbors, h.turnedAway⟩
  | setRole role =>
    refine .inr ⟨rfl, ?_⟩
    show n.LeavesTable (n.setRole role)
    unfold setRole
    split <;> exact ⟨rfl, rfl⟩
  | powerDown delay now =>
    refine .inr ⟨rfl, ?_⟩
    cases hp : n.powerDown delay now with
    | ok r =>
      have hnode := (powerDown_eq_ok hp).2.1
      simp only [perform, hp]
      exact ⟨by rw [hnode], by rw [hnode]⟩
    | error e =>
      simp only [perform, hp]
      exact ⟨rfl, rfl⟩

/-- Whoever is turned away has announced itself, is not known, and finds the table full. -/
theorem turnedAway_of_perform {op : Operation}
    (h : (n.perform op).1.node.counters.neighborsDroppedFull ≠
      n.counters.neighborsDroppedFull) :
    ∃ sender, op.announcer? = some sender ∧ n.neighbors.contains sender = false ∧
      n.neighbors.capacity ≤ n.neighbors.size := by
  obtain ⟨now, r, _, hr, _, hc⟩ | ⟨_, hsame⟩ := n.hears_perform op
  · rw [hc] at h
    cases hr with
    | same hsame => exact absurd hsame.turnedAway h
    | announced sender hs _ hdropped =>
      exact ⟨sender, hs, NeighborTable.outcome_eq_dropped_iff.1 (hdropped h)⟩
    | cleared _ hsame => exact absurd hsame h
  · exact absurd hsame.turnedAway h

end hears

/-! ### The latest sweep -/

/-- What a node at an address can become with given settings, and the instant at which it was swept
    last, if it was.  Times may go back. -/
inductive SweptAt (a : Address) (s : ProtocolSettings) : Option Nat → Node → Prop
  | fresh {entropy : Generator} : SweptAt a s none (.fresh a s entropy)
  | perform {swept? : Option Nat} {n : Node} (h : SweptAt a s swept? n) (op : Operation) :
      SweptAt a s (op.sweepTime?.or swept?) (n.perform op).1.node
  | sweep {swept? : Option Nat} {n : Node} (h : SweptAt a s swept? n) (now : Nat) :
      SweptAt a s (some now) (n.sweep now)

/-- What holds of the table of a node that was swept last at a given instant. -/
structure Tidy (s : ProtocolSettings) (swept? : Option Nat) (n : Node) : Prop where
  outlasts : n.neighbors.Outlasts swept?
  size_le : n.neighbors.size ≤ n.neighbors.capacity
  capacity : n.neighbors.capacity = s.maxNeighbors

section sweptAt

variable {a : Address} {s : ProtocolSettings} {swept? : Option Nat} {n : Node}

/-- What is heard leaves the table within its capacity. -/
theorem Tidy.hears (h : n.Tidy s swept?) {announcer? : Option Address} {now : Nat} {r : Reaction}
    (hr : n.Hears announcer? now r) :
    r.node.neighbors.size ≤ r.node.neighbors.capacity ∧
      r.node.neighbors.capacity = s.maxNeighbors := by
  cases hr with
  | same hsame =>
    rw [hsame.neighbors]
    exact ⟨h.size_le, h.capacity⟩
  | announced sender _ ht _ =>
    rw [ht, NeighborTable.capacity_announce]
    exact ⟨NeighborTable.size_announce_le h.size_le sender now, h.capacity⟩
  | cleared ht _ =>
    rw [ht]
    exact ⟨Nat.zero_le _, h.capacity⟩

theorem Tidy.perform (h : n.Tidy s swept?) (op : Operation) :
    (n.perform op).1.node.Tidy s (op.sweepTime?.or swept?) := by
  obtain ⟨now, r, hnow, hr, ht, _⟩ | ⟨hnone, hsame⟩ := n.hears_perform op
  · obtain ⟨hsize, hcapacity⟩ := h.hears hr
    rw [hnow, Option.some_or]
    refine ⟨?_, ?_, ?_⟩
    · rw [ht]
      exact r.node.neighbors.outlasts_expire now
    · rw [ht]
      exact Nat.le_trans (r.node.neighbors.size_expire_le now) hsize
    · rw [ht]
      exact hcapacity
  · have ht := hsame.neighbors
    rw [hnone, Option.none_or]
    exact ⟨ht ▸ h.outlasts, ht ▸ h.size_le, ht ▸ h.capacity⟩

theorem tidy_of_sweptAt (h : SweptAt a s swept? n) : n.Tidy s swept? := by
  induction h with
  | fresh =>
    refine ⟨?_, Nat.zero_le _, rfl⟩
    intro e he
    cases he
  | perform _ op ih => exact ih.perform op
  | @sweep _ n _ now ih =>
    exact ⟨n.neighbors.outlasts_expire now,
      Nat.le_trans (n.neighbors.size_expire_le now) ih.size_le, ih.capacity⟩

end sweptAt

/-! ### Data -/

/-- Data that a message prompts goes to somebody whom the node knows. -/
theorem mem_addresses_of_onInbound {n : Node} {sender : Address} {m : Message} {now : Nat}
    {peer : Address} {value : Int32} {version : Int16} {hops : Int32}
    (h : .unicast peer (.data value version hops) ∈ (n.onInbound sender m now).sends) :
    peer ∈ n.neighbors.addresses := by
  have hself : n.KnowsOnly (· ∈ n.neighbors.addresses) := fun _ ha => ha
  unfold onInbound at h
  split at h
  · cases h
  · split at h
    · cases h
    · rcases n.sends_onMessage sender m now with hnone | ⟨peer', m', hone, hp⟩
      · rw [hnone] at h
        cases h
      · -- data alone prompts data
        cases hp with
        | forward v w k t _ => exact (keepsTo_onData hself sender ⟨v, w⟩ k).peers _ _ h
        | _ =>
          rw [hone] at h
          simp [Message.answer] at h

/-- Timers write to nobody in particular. -/
theorem unicast_notMem_timer (n : Node) (kind : TimerKind) (now : Nat) (peer : Address)
    (m : Message) : .unicast peer m ∉ (n.handle kind.event now).sends := by
  intro h
  cases kind with
  | announce => rcases n.sends_announceTimer now with hs | hs <;> simp [TimerKind.event, hs] at h
  | beacon => rcases n.sends_timer_beacon now with hs | hs <;> simp [TimerKind.event, hs] at h
  | restart => simp [TimerKind.event, handle, react, Reaction.swept] at h

/-- Data goes to a neighbor whom the node knows.  Where it begins a walk, the time of that neighbor
    has not come. -/
theorem peers_of_data {n : Node} {op : Operation} {peer : Address} {value : Int32}
    {version : Int16} {hops : Int32}
    (h : .unicast peer (.data value version hops) ∈ (n.perform op).1.sends) :
    ∃ e ∈ n.neighbors.entries, e.address = peer ∧
      ∀ x now, op = .originate x now → now < e.expiry := by
  have hknown : peer ∈ n.neighbors.addresses → (∀ x now, op ≠ .originate x now) →
      ∃ e ∈ n.neighbors.entries, e.address = peer ∧
        ∀ x now, op = .originate x now → now < e.expiry := by
    intro hp hop
    obtain ⟨e, he, hpeer⟩ := List.mem_map.1 hp
    exact ⟨e, he, hpeer, fun x now heq => absurd heq (hop x now)⟩
  cases op with
  | event e now =>
    cases e with
    | announceTimer => exact absurd h (n.unicast_notMem_timer .announce now _ _)
    | beaconTimer => exact absurd h (n.unicast_notMem_timer .beacon now _ _)
    | restartTimer => exact absurd h (n.unicast_notMem_timer .restart now _ _)
    | inbound sender m => exact hknown (mem_addresses_of_onInbound h) (by simp)
  | datagram sender bytes now =>
    simp only [perform, handleDatagram] at h
    split at h
    · exact hknown (mem_addresses_of_onInbound h) (by simp)
    · cases h
  | originate x now =>
    obtain ⟨e, he⟩ | ⟨t, _, _, _, ht⟩ := n.originate_cases x now
    · simp only [perform, he] at h
      cases h
    · simp only [perform, ht] at h
      -- the peer is chosen from what the sweep has left
      have hself : (n.sweep now).KnowsOnly (· ∈ (n.sweep now).neighbors.addresses) :=
        fun _ ha => ha
      obtain ⟨e, he, hpeer⟩ := List.mem_map.1 ((keepsTo_launch hself t _).peers _ _ h)
      obtain ⟨hmem, hlive⟩ := List.mem_filter.1 he
      refine ⟨e, hmem, hpeer, ?_⟩
      rintro _ _ ⟨⟩
      exact of_decide_eq_true hlive
  | setRole role =>
    simp [perform] at h
  | powerDown delay now =>
    cases hp : n.powerDown delay now with
    | ok r =>
      simp only [perform, hp, (powerDown_eq_ok hp).2.2.1] at h
      cases h
    | error e =>
      simp only [perform, hp] at h
      cases h

/-- **What a node acts on has outlasted its latest sweep.**  Whatever has happened to a node, at
    whatever times, it knows no more peers than its settings allow, and none whose time had come
    at its latest sweep; every event, every datagram and every request to originate a token is one.
    Whatever it is told next, data that it sends goes to such a neighbor, and an origination only
    goes to one whose time has not come at all.  A peer is turned away for want of room only if it
    announces itself, is not known, and the table is filled with as many such neighbors as the
    settings allow. -/
theorem outlasts_sweep {a : Address} {s : ProtocolSettings} {swept? : Option Nat} {n : Node}
    (h : SweptAt a s swept? n) (op : Operation) :
    (∀ peer value version hops,
      .unicast peer (.data value version hops) ∈ (n.perform op).1.sends →
        ∃ e ∈ n.neighbors.entries, e.address = peer ∧ (∃ t ∈ swept?, t < e.expiry) ∧
          ∀ x now, op = .originate x now → now < e.expiry) ∧
    ((n.perform op).1.node.counters.neighborsDroppedFull ≠ n.counters.neighborsDroppedFull →
      ∃ sender, op.announcer? = some sender ∧ n.neighbors.contains sender = false ∧
        n.neighbors.size = s.maxNeighbors ∧
        ∀ e ∈ n.neighbors.entries, ∃ t ∈ swept?, t < e.expiry) := by
  have htidy := tidy_of_sweptAt h
  constructor
  · intro peer value version hops hdata
    obtain ⟨e, he, hpeer, hlive⟩ := peers_of_data hdata
    exact ⟨e, he, hpeer, htidy.outlasts e he, hlive⟩
  · intro hfull
    obtain ⟨sender, hwho, hunknown, hsize⟩ := n.turnedAway_of_perform hfull
    have hsize' := htidy.size_le
    rw [htidy.capacity] at hsize hsize'
    exact ⟨sender, hwho, hunknown, Nat.le_antisymm hsize' hsize, htidy.outlasts⟩

/-- A relay that has room for one peer, and has heard it once, at time zero. -/
def forgetful : Node :=
  (fresh (Network.addressOf 0) { maxNeighbors := 1, seed := some 7 }).performAll
    [.event (.inbound (Network.addressOf 1) .announce) 0]

theorem sweptAt_forgetful :
    SweptAt (Network.addressOf 0) { maxNeighbors := 1, seed := some 7 } (some 0) forgetful :=
  .perform .fresh (.event (.inbound (Network.addressOf 1) .announce) 0)

/-- The time of the peer comes after 30 seconds.  If nothing happens until data comes in five
    seconds later, the walk goes on to that peer nevertheless; and if another peer announces itself
    then, it is turned away although there is room for it as soon as the event has ended. -/
theorem expired_contacts :
    let now := Time.ofSecs 35
    let data := Operation.event (.inbound (Network.addressOf 2) (.data 5 1 0)) now
    let announcement := Operation.event (.inbound (Network.addressOf 2) .announce) now
    (¬ ∀ peer value version hops,
      .unicast peer (.data value version hops) ∈ (forgetful.perform data).1.sends →
        ∃ e ∈ forgetful.neighbors.entries, e.address = peer ∧ now < e.expiry) ∧
    ¬ ((forgetful.perform announcement).1.node.counters.neighborsDroppedFull ≠
        forgetful.counters.neighborsDroppedFull →
      ∀ e ∈ forgetful.neighbors.entries, now < e.expiry) := by
  have hentries : forgetful.neighbors.entries = [⟨Network.addressOf 1, Time.ofSecs 30⟩] := by
    decide
  refine ⟨?_, ?_⟩
  · intro h
    obtain ⟨e, he, _, hlive⟩ := h (Network.addressOf 1) 5 1 1 (by decide +kernel)
    rw [hentries, List.mem_singleton] at he
    subst he
    exact absurd hlive (by decide)
  · intro h
    have hlive := h (by decide) ⟨Network.addressOf 1, Time.ofSecs 30⟩ (by simp [hentries])
    exact absurd hlive (by decide)

/-- The walk and the peer that is turned away, each of them for the sake of a neighbor that has
    outlasted the latest sweep, at time zero. -/
theorem outlasts_sweep_forgetful :
    let now := Time.ofSecs 35
    let data := Operation.event (.inbound (Network.addressOf 2) (.data 5 1 0)) now
    let announcement := Operation.event (.inbound (Network.addressOf 2) .announce) now
    SweptAt (Network.addressOf 0) { maxNeighbors := 1, seed := some 7 } (some 0) forgetful ∧
    .unicast (Network.addressOf 1) (.data 5 1 1) ∈ (forgetful.perform data).1.sends ∧
    (∃ e ∈ forgetful.neighbors.entries, e.address = Network.addressOf 1 ∧ 0 < e.expiry) ∧
    (forgetful.perform announcement).1.node.counters.neighborsDroppedFull ≠
      forgetful.counters.neighborsDroppedFull ∧
    forgetful.neighbors.contains (Network.addressOf 2) = false ∧
    forgetful.neighbors.size = 1 := by
  have hsent : .unicast (Network.addressOf 1) (.data 5 1 1) ∈ (forgetful.perform
      (.event (.inbound (Network.addressOf 2) (.data 5 1 0)) (Time.ofSecs 35))).1.sends := by
    decide +kernel
  have hfull : (forgetful.perform (.event (.inbound (Network.addressOf 2) .announce)
      (Time.ofSecs 35))).1.node.counters.neighborsDroppedFull ≠
        forgetful.counters.neighborsDroppedFull := by
    decide
  obtain ⟨e, he, hpeer, ⟨t, ht, hlt⟩, _⟩ := (outlasts_sweep sweptAt_forgetful _).1 _ _ _ _ hsent
  obtain rfl := Option.some.inj ht
  obtain ⟨sender, hwho, hunknown, hsize, _⟩ := (outlasts_sweep sweptAt_forgetful _).2 hfull
  obtain rfl := Option.some.inj hwho
  exact ⟨sweptAt_forgetful, hsent, ⟨e, he, hpeer, hlt⟩, hfull, hunknown, hsize⟩

end Node

end TokenMesh
