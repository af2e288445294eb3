import TokenMesh.Proofs.Node.Hops
import TokenMesh.Proofs.Node.Memory
import TokenMesh.Proofs.Node.Timers

namespace TokenMesh

/-!
# What an event makes a node send

One event makes a node send one message at most: a timer makes it multicast, and a message makes it
write to the sender or hand on a walk.  Without power it sends nothing, and it never writes to
itself.

* `Node.Reachable.notMem_addresses`: a node is not among those whom it knows;
* `Node.Replies`: what a node with power sends upon a message of somebody else;
* `Node.replies_onMessage`: that is what it sends;
* `Node.sends_by_event`: what a node sends upon any event.
-/

namespace Node

/-! ### Whom a node knows -/

section reachable

variable {a : Address} {s : ProtocolSettings} {n : Node}

/-- The table of any node has a history. -/
theorem Reachable.exists_marked (h : Reachable a s n) : ∃ marks, Marked a s marks n := by
  induction h with
  | fresh => exact ⟨_, .fresh⟩
  | perform _ op ih =>
    obtain ⟨marks, hm⟩ := ih
    exact ⟨_, hm.perform op⟩
  | sweep _ now ih =>
    obtain ⟨marks, hm⟩ := ih
    exact ⟨_, hm.sweep now⟩

/-- A node is not among those whom it knows. -/
theorem Reachable.notMem_addresses (h : Reachable a s n) : a ∉ n.neighbors.addresses := by
  obtain ⟨marks, hm⟩ := h.exists_marked
  intro hmem
  obtain ⟨e, he, haddress⟩ := List.mem_map.1 hmem
  -- whoever is listed has been heard, and a node does not hear itself
  obtain ⟨t, ht, _⟩ := ((recounts_of_marked hm).mem_iff e.address e.expiry).1 he
  obtain ⟨outcome, hheard⟩ := ht.mem
  exact hm.peer_ne hheard haddress

end reachable

/-! ### Replies -/

/-- What a node with power sends upon a message of somebody else.  Announcements and answers call
    for nothing.  A beacon calls for the token if the sender is behind, and for a request if the
    node is; a request calls for the token in any case.  Data is handed on to somebody whom the
    node knows, with the newer of the two tokens, unless the node is a sink, the walk is at its
    limit or nobody is known; and nothing is drawn where nothing is sent. -/
def Replies (n : Node) (sender : Address) (r : Reaction) : Message → Prop
  | .announce => r.sends = []
  | .recover _ _ => r.sends = []
  | .beacon version =>
    (r.sends = [.unicast sender (.answer n.token)] ↔ version < n.token.version) ∧
    (r.sends = [.unicast sender (.control n.token.version)] ↔ n.token.version < version) ∧
    (r.sends = [] ↔ version = n.token.version)
  | .control _ => r.sends = [.unicast sender (.answer n.token)]
  | .data value version hops =>
    r.node.token = n.token.accept ⟨value, version⟩ ∧
    (r.sends = [] ∨ ∃ peer ∈ n.neighbors.addresses,
      r.sends = [.unicast peer (.carry r.node.token (nextHops hops))]) ∧
    (r.sends = [] ↔
      n.role = .sink ∨ n.overLimit (nextHops hops) = true ∨ n.neighbors.entries = []) ∧
    (r.sends = [] → r.node.generator = n.generator)

/-- A beacon is replied to as the versions compare. -/
theorem replies_onBeacon (n : Node) (sender : Address) (version : Int16) :
    n.Replies sender (n.onBeacon sender version) (.beacon version) := by
  have hkinds : Message.answer n.token ≠ .control n.token.version := by simp [Message.answer]
  unfold onBeacon Replies
  dsimp only
  by_cases hlt : version < n.token.version
  · rw [if_pos hlt]
    simp [sendToken, hlt, hkinds, Int16.lt_asymm hlt, Int16.ne_of_lt hlt]
  · rw [if_neg hlt]
    by_cases hgt : n.token.version < version
    · rw [if_pos hgt]
      simp [requestToken, hlt, hgt, hkinds.symm, (Int16.ne_of_lt hgt).symm]
    · rw [if_neg hgt]
      have heq : version = n.token.version :=
        Int16.le_antisymm (Int16.not_lt.1 hgt) (Int16.not_lt.1 hlt)
      simp [heq]

/-- Data is handed on unless there is a reason not to. -/
theorem replies_onData (n : Node) (sender : Address) (value : Int32) (version : Int16)
    (hops : Int32) :
    n.Replies sender (n.onData sender ⟨value, version⟩ hops) (.data value version hops) := by
  have htoken := token_onData n sender ⟨value, version⟩ hops
  refine ⟨htoken, ?_⟩
  obtain ⟨hend, notices, hdata⟩ | ⟨hrole, hlimit, hdata⟩ :=
    n.onData_cases sender ⟨value, version⟩ hops
  · rw [hdata]
    refine ⟨.inl rfl, ⟨fun _ => ?_, fun _ => rfl⟩, fun _ => rfl⟩
    exact hend.imp_right .inl
  · rw [htoken, hdata]
    by_cases halone : n.neighbors.entries = []
    · obtain ⟨hnone, hgenerator, _⟩ := forward_of_alone (n := n.takeData ⟨value, version⟩) halone
        (nextHops hops) (n.dataNotices sender ⟨value, version⟩ hops)
      exact ⟨.inl hnone, ⟨fun _ => .inr (.inr halone), fun _ => hnone⟩, fun _ => hgenerator⟩
    · obtain ⟨peer, hpeer, hsends⟩ := forward_of_known (n := n.takeData ⟨value, version⟩) halone
        (nextHops hops) (n.dataNotices sender ⟨value, version⟩ hops)
      rw [hsends]
      refine ⟨.inr ⟨peer, hpeer, rfl⟩, ?_, by simp⟩
      simp [hrole, hlimit, halone]

/-- What a node with power does upon a message of somebody else is what it is called for. -/
theorem replies_onMessage (n : Node) (sender : Address) (m : Message) (now : Nat) :
    n.Replies sender (n.onMessage sender m now) m := by
  cases m with
  | announce =>
    obtain hnone | ⟨_, _, _, hp⟩ := n.sends_onMessage sender .announce now
    · exact hnone
    · cases hp
  | data value version hops => exact n.replies_onData sender value version hops
  | beacon version => exact n.replies_onBeacon sender version
  | control version => rfl
  | recover value version =>
    obtain hnone | ⟨_, _, _, hp⟩ := n.sends_onMessage sender (.recover value version) now
    · exact hnone
    · cases hp

/-- The sweep at the end of an event makes no difference to what is sent. -/
theorem replies_swept {n : Node} {sender : Address} {r : Reaction} {m : Message}
    (h : n.Replies sender r m) (now : Nat) : n.Replies sender (r.swept now) m := by
  cases m <;> exact h

/-! ### All events -/

/-- Without power nothing is sent. -/
theorem sends_handle_of_down {n : Node} (hd : n.isDown = true) (e : Event) (now : Nat) :
    (n.handle e now).sends = [] := by
  cases e with
  | restartTimer => exact n.sends_onRestartTimer
  | _ => exact (handle_of_down hd now rfl).2

/-- No event makes a node send more than one message. -/
theorem length_sends_handle_le (n : Node) (e : Event) (now : Nat) :
    (n.handle e now).sends.length ≤ 1 := by
  have htimer : ∀ kind : TimerKind, (n.handle kind.event now).sends.length ≤ 1 := by
    intro kind
    rw [sends_timer]
    split
    · exact Nat.zero_le 1
    · cases kind <;> simp
  cases e with
  | announceTimer => exact htimer .announce
  | beaconTimer => exact htimer .beacon
  | restartTimer => exact htimer .restart
  | inbound sender m =>
    show (n.onInbound sender m now).sends.length ≤ 1
    obtain hnone | ⟨peer, m', hone, _⟩ := n.sends_onInbound sender m now
    · rw [hnone]
      exact Nat.zero_le 1
    · rw [hone]
      exact Nat.le_refl 1

/-- A node ignores what it hears of itself. -/
theorem sends_handle_of_self (n : Node) (m : Message) (now : Nat) :
    (n.handle (.inbound n.address m) now).sends = [] := by
  show (n.onInbound n.address m now).sends = []
  unfold onInbound
  split
  · rfl
  · rw [if_pos rfl]

/-- A node does not write to itself. -/
theorem Reachable.peer_ne {a : Address} {s : ProtocolSettings} {n : Node} (h : Reachable a s n)
    {e : Event} {now : Nat} {peer : Address} {m : Message}
    (hm : .unicast peer m ∈ (n.handle e now).sends) : peer ≠ a := by
  have hothers : n.KnowsOnly (· ≠ a) := fun p hp heq => h.notMem_addresses (heq ▸ hp)
  have htimer : ∀ kind : TimerKind, .unicast peer m ∈ (n.handle kind.event now).sends → peer ≠ a :=
    fun kind hk => (keepsTo_timer hothers kind now).peers peer m hk
  cases e with
  | announceTimer => exact htimer .announce hm
  | beaconTimer => exact htimer .beacon hm
  | restartTimer => exact htimer .restart hm
  | inbound sender m' =>
    by_cases hself : sender = n.address
    · rw [hself, sends_handle_of_self] at hm
      cases hm
    · rw [h.origin.1] at hself
      exact (keepsTo_onInbound hothers hself m' now).peers peer m hm

/-- **What an event makes a node send.**  Whatever has been done with a node, an event at any time
    makes it send one message at most, and it never writes to itself.  Without power it sends
    nothing.  With power, the announcement timer makes it multicast an announcement and the beacon
    timer its version, while the restart timer makes it send nothing.  A message of its own does
    not, either; one of somebody else makes it send what that message calls for. -/
theorem sends_by_event {a : Address} {s : ProtocolSettings} {n : Node} (h : Reachable a s n)
    (e : Event) (now : Nat) :
    let r := n.handle e now
    r.sends.length ≤ 1 ∧
    (∀ peer m, .unicast peer m ∈ r.sends → peer ≠ a) ∧
    (n.isDown = true → r.sends = []) ∧
    (n.isDown = false →
      match e with
      | .announceTimer => r.sends = [.multicast .announce]
      | .beaconTimer => r.sends = [.multicast (.beacon n.token.version)]
      | .restartTimer => r.sends = []
      | .inbound sender m => if sender = a then r.sends = [] else n.Replies sender r m) := by
  refine ⟨n.length_sends_handle_le e now, fun _ _ hm => h.peer_ne hm,
    fun hd => sends_handle_of_down hd e now, fun hup => ?_⟩
  have hpowered : ¬ n.isDown = true := Bool.eq_false_iff.1 hup
  have htimer := fun kind => (n.sends_timer kind now).trans (if_neg hpowered)
  cases e with
  | announceTimer => exact htimer .announce
  | beaconTimer => exact htimer .beacon
  | restartTimer => exact htimer .restart
  | inbound sender m =>
    have haddress := h.origin.1
    dsimp only
    split
    · next hself =>
      rw [hself, ← haddress]
      exact n.sends_handle_of_self m now
    · next hne =>
      rw [← haddress] at hne
      show n.Replies sender ((n.onInbound sender m now).swept now) m
      rw [onInbound_of_up hup hne]
      exact replies_swept (n.replies_onMessage sender m now) now

/-- The node holds its fourth token.  It tells that version, pushes the token to a peer that is
    behind, asks one that is ahead, and hands on a newer token to the only peer that it knows. -/
theorem sends_by_event_acquainted :
    let peer := Network.addressOf 1
    let stranger := Network.addressOf 2
    Reachable (Network.addressOf 0) { role := .source, seed := some 7 } acquainted ∧
    acquainted.isDown = false ∧
    (acquainted.handle .beaconTimer 20).sends = [.multicast (.beacon 4)] ∧
    (acquainted.handle (.inbound stranger (.beacon 3)) 20).sends =
      [.unicast stranger (.recover 9 4)] ∧
    (acquainted.handle (.inbound stranger (.beacon 5)) 20).sends =
      [.unicast stranger (.control 4)] ∧
    (acquainted.handle (.inbound stranger (.data 8 6 1)) 20).sends =
      [.unicast peer (.data 8 6 2)] := by
  intro peer stranger
  have hreachable : Reachable (Network.addressOf 0) { role := .source, seed := some 7 }
      acquainted := Reachable.fresh.performAll _
  have hup : acquainted.isDown = false := by decide
  have htoken : acquainted.token = ⟨9, 4⟩ := by decide
  have hknown : acquainted.neighbors.addresses = [peer] := by decide
  have hbeacon := (sends_by_event hreachable .beaconTimer 20).2.2.2 hup
  -- the replies to a stranger, one message after the other
  have hreplies : ∀ m, acquainted.Replies stranger (acquainted.handle (.inbound stranger m) 20) m :=
    fun m => (sends_by_event hreachable (.inbound stranger m) 20).2.2.2 hup
  have hbehind := (hreplies (.beacon 3)).1.2 (by rw [htoken]; decide)
  have hahead := (hreplies (.beacon 5)).2.1.2 (by rw [htoken]; decide)
  obtain ⟨hkept, hsent, hended, _⟩ := hreplies (.data 8 6 1)
  rw [htoken] at hbeacon hbehind hahead hkept
  refine ⟨hreachable, hup, hbeacon, hbehind, hahead, ?_⟩
  obtain hnone | ⟨p, hp, hone⟩ := hsent
  · exact absurd (hended.1 hnone) (by decide)
  · rw [hknown, List.mem_singleton] at hp
    rw [hone, hp, hkept]
    rfl

end Node

end TokenMesh
