import TokenMesh.Proofs.Node.Replies

namespace TokenMesh

/-!
# Contacts

A node writes to nobody but those whom it knows and the sender of what it has just heard, and it
gets to know nobody but that sender.

* `Node.KnowsOnly`: all peers that a node knows have a property;
* `Reaction.KeepsTo`: a node that has reacted knows and has written to such peers only;
* `Node.keepsTo_handleDatagram`, `Node.keepsTo_timer`, `Node.keepsTo_of_originate`: all reactions
  of a node keep to those whom it knows and the sender of what it hears.
-/

namespace NeighborTable

/-- Whoever is entered is listed last, and nobody else changes place. -/
theorem addresses_announce (t : NeighborTable) (sender : Address) (now : Nat) :
    (t.announce sender now).addresses =
      if t.outcome sender = .inserted then t.addresses ++ [sender] else t.addresses := by
  cases h : t.outcome sender with
  | inserted => simp [announce, h, addresses]
  | refreshed =>
    have hsame : ∀ e : Neighbor,
        (if e.address = sender then (⟨sender, now + t.timeout⟩ : Neighbor) else e).address =
          e.address := by
      intro e
      split
      · next he => exact he.symm
      · rfl
    simp [announce, h, addresses, hsame]
  | dropped => simp [announce, h]

/-- A table gets to know nobody but the sender of an announcement. -/
theorem mem_addresses_announce {t : NeighborTable} {sender a : Address} {now : Nat}
    (h : a ∈ (t.announce sender now).addresses) : a = sender ∨ a ∈ t.addresses := by
  rw [addresses_announce] at h
  split at h
  · rcases List.mem_append.1 h with h | h
    · exact .inr h
    · exact .inl (List.mem_singleton.1 h)
  · exact .inr h

/-- A table gets to know nobody by forgetting somebody. -/
theorem mem_addresses_expire {t : NeighborTable} {a : Address} {now : Nat}
    (h : a ∈ (t.expire now).addresses) : a ∈ t.addresses := by
  obtain ⟨e, he, rfl⟩ := List.mem_map.1 h
  exact List.mem_map_of_mem (List.mem_filter.1 he).1

/-- Only a peer that is known is chosen. -/
theorem mem_addresses_of_pick {t : NeighborTable} {g : Generator} {e : Neighbor}
    (h : (t.pick g).1 = some e) : e.address ∈ t.addresses := by
  unfold pick at h
  split at h
  · exact List.mem_map_of_mem (List.mem_of_getElem? h)
  · cases h

end NeighborTable

/-- All peers that a node knows have a property. -/
def Node.KnowsOnly (S : Address → Prop) (n : Node) : Prop := ∀ a ∈ n.neighbors.addresses, S a

/-- All peers that a node knows after a reaction have a property, and so have those to whom it has
    written. -/
structure Reaction.KeepsTo (S : Address → Prop) (r : Reaction) : Prop where
  known : r.node.KnowsOnly S
  peers : ∀ peer m, .unicast peer m ∈ r.sends → S peer

namespace Node

open Reaction

variable {S : Address → Prop} {n : Node}

theorem knowsOnly_sweep (h : n.KnowsOnly S) (now : Nat) : (n.sweep now).KnowsOnly S :=
  fun a ha => h a (NeighborTable.mem_addresses_expire ha)

theorem keepsTo_swept {r : Reaction} (h : r.KeepsTo S) (now : Nat) : (r.swept now).KeepsTo S :=
  ⟨knowsOnly_sweep h.known now, h.peers⟩

/-- A reaction that learns of nobody keeps to those whom the node knows, if it writes to such peers
    only. -/
theorem keepsTo_of_same {r : Reaction} (h : n.KnowsOnly S)
    (hn : r.node.neighbors = n.neighbors)
    (hs : ∀ peer m, .unicast peer m ∈ r.sends → S peer) : r.KeepsTo S :=
  ⟨fun a ha => h a (hn ▸ ha), hs⟩

/-! ### Messages -/

section inbound

variable {sender : Address} (h : n.KnowsOnly S) (hs : S sender)

include h hs

theorem keepsTo_onAnnounce (now : Nat) : (n.onAnnounce sender now).KeepsTo S := by
  have hknown : ∀ a ∈ (n.neighbors.announce sender now).addresses, S a := by
    intro a ha
    rcases NeighborTable.mem_addresses_announce ha with rfl | ha
    · exact hs
    · exact h a ha
  unfold onAnnounce
  dsimp only
  split <;> exact ⟨hknown, by simp⟩

theorem keepsTo_sendToken (what : Happening) : (n.sendToken sender what).KeepsTo S := by
  refine keepsTo_of_same h rfl ?_
  intro peer m hm
  obtain ⟨rfl, _⟩ : peer = sender ∧ m = .answer n.token := by simpa [sendToken] using hm
  exact hs

theorem keepsTo_onBeacon (version : Int16) : (n.onBeacon sender version).KeepsTo S := by
  unfold onBeacon
  dsimp only
  -- ahead of the peer, behind it, or level with it
  split
  · exact keepsTo_sendToken h hs _
  · split
    · refine keepsTo_of_same h rfl ?_
      intro peer m hm
      obtain ⟨rfl, _⟩ : peer = sender ∧ m = .control n.token.version := by
        simpa [requestToken] using hm
      exact hs
    · exact keepsTo_of_same h rfl (by simp)

end inbound

theorem keepsTo_onRecover (h : n.KnowsOnly S) (sender : Address) (offered : Token) :
    (n.onRecover sender offered).KeepsTo S := by
  unfold onRecover
  split <;> exact keepsTo_of_same h rfl (by simp)

/-- A walk goes on to somebody whom the node knows. -/
theorem keepsTo_forward (h : n.KnowsOnly S) (hops : Int32) (notices : List Notice) :
    (n.forward hops notices).KeepsTo S := by
  unfold forward choosePeer
  dsimp only
  cases hp : (n.neighbors.pick n.generator).1 with
  | none => exact keepsTo_of_same h rfl (by simp)
  | some e =>
    refine keepsTo_of_same h rfl ?_
    intro peer m hm
    obtain ⟨rfl, _⟩ : peer = e.address ∧ m = .carry n.token hops := by simpa using hm
    exact h _ (NeighborTable.mem_addresses_of_pick hp)

theorem keepsTo_onData (h : n.KnowsOnly S) (sender : Address) (offered : Token) (hops : Int32) :
    (n.onData sender offered hops).KeepsTo S := by
  have htaken : (n.takeData offered).KnowsOnly S := h
  obtain ⟨_, _, hdata⟩ | ⟨_, _, hdata⟩ := n.onData_cases sender offered hops
  · rw [hdata]
    exact keepsTo_of_same htaken rfl (by simp [absorb])
  · rw [hdata]
    exact keepsTo_forward htaken _ _

theorem keepsTo_onInbound (h : n.KnowsOnly S) {sender : Address} (hs : S sender) (m : Message)
    (now : Nat) : (n.onInbound sender m now).KeepsTo S := by
  unfold onInbound
  -- without power, from itself, or from a peer
  split
  · exact keepsTo_of_same h rfl (by simp)
  · split
    · exact keepsTo_of_same h rfl (by simp)
    · cases m with
      | announce => exact keepsTo_onAnnounce h hs now
      | data value version hops => exact keepsTo_onData h sender _ _
      | beacon version => exact keepsTo_onBeacon h hs version
      | control version => exact keepsTo_sendToken h hs _
      | recover value version => exact keepsTo_onRecover h sender _

/-! ### All reactions -/

/-- Timers write to nobody in particular, and a cold start forgets everybody. -/
theorem keepsTo_timer (h : n.KnowsOnly S) (kind : TimerKind) (now : Nat) :
    (n.handle kind.event now).KeepsTo S := by
  refine keepsTo_swept ?_ now
  cases kind with
  | announce =>
    show n.onAnnounceTimer.KeepsTo S
    unfold onAnnounceTimer
    split <;> exact keepsTo_of_same h rfl (by simp)
  | beacon =>
    show n.onBeaconTimer.KeepsTo S
    unfold onBeaconTimer
    split <;> exact keepsTo_of_same h rfl (by simp)
  | restart =>
    show n.onRestartTimer.KeepsTo S
    unfold onRestartTimer
    split
    · refine ⟨?_, by simp⟩
      intro a ha
      cases ha
    · exact keepsTo_of_same h rfl (by simp)

theorem keepsTo_handleDatagram (h : n.KnowsOnly S) {sender : Address} (hs : S sender)
    (bytes : List UInt8) (now : Nat) : (n.handleDatagram sender bytes now).KeepsTo S := by
  unfold handleDatagram
  split
  · exact keepsTo_swept (keepsTo_onInbound h hs _ now) now
  · exact keepsTo_swept (keepsTo_of_same h rfl (by simp [dropMalformed])) now

theorem keepsTo_launch (h : n.KnowsOnly S) (token : Token) (told : List Notice) :
    (n.launch token told).KeepsTo S := by
  unfold launch choosePeer
  dsimp only
  cases hp : (n.neighbors.pick n.generator).1 with
  | none => exact keepsTo_of_same h rfl (by simp)
  | some e =>
    refine keepsTo_of_same h rfl ?_
    intro peer m hm
    obtain ⟨rfl, _⟩ : peer = e.address ∧ m = .carry token 0 := by simpa using hm
    exact h _ (NeighborTable.mem_addresses_of_pick hp)

/-- A new walk begins with somebody whom the node knows. -/
theorem keepsTo_of_originate (h : n.KnowsOnly S) {value : Option Int32} {now : Nat} {r : Reaction}
    {x : Except Refusal Token} (ho : n.originate value now = (r, x)) : r.KeepsTo S := by
  have hswept := knowsOnly_sweep h now
  obtain ⟨e, he⟩ | ⟨t, _, _, _, ht⟩ := n.originate_cases value now
  · obtain ⟨rfl, _⟩ := Prod.mk.inj (he.symm.trans ho)
    exact keepsTo_of_same hswept rfl (by simp)
  · obtain ⟨rfl, _⟩ := Prod.mk.inj (ht.symm.trans ho)
    exact keepsTo_launch hswept t _

theorem keepsTo_setRole (h : n.KnowsOnly S) (role : Role) : (n.setRole role).KeepsTo S := by
  unfold setRole
  split <;> exact keepsTo_of_same h rfl (by simp)

end Node

end TokenMesh
