import TokenMesh.Proofs.Node.Reaction

namespace TokenMesh

/-!
# Replies

No reaction of a node sends more than one message, and what a message can bring a node to send is
closer to the end of a conversation: a beacon prompts a request or an answer, a request prompts an
answer, and an answer prompts nothing.  Data alone prompts data, with one more hop.

* `Message.Prompts`: which message can bring a node to send which;
* `Node.sends_onInbound`, `Node.sends_handleDatagram`: what comes in prompts one message at most;
* `Node.sends_announceTimer`, `Node.sends_timer_beacon`, `Node.sends_of_originate`: what else a
  node sends.
-/

/-- A message brings a node to send another one. -/
inductive Message.Prompts (n : Node) : Message → Message → Prop
  | request (version ours : Int16) : Prompts n (.beacon version) (.control ours)
  | push (version : Int16) (t : Token) : Prompts n (.beacon version) (.answer t)
  | answer (version : Int16) (t : Token) : Prompts n (.control version) (.answer t)
  | forward (value : Int32) (version : Int16) (hops : Int32) (t : Token)
      (h : n.overLimit (Node.nextHops hops) = false) :
      Prompts n (.data value version hops) (.carry t (Node.nextHops hops))

namespace Node

/-- A hop counts one more, until the count reaches the greatest number that it can hold. -/
theorem toInt_nextHops_eq_min (hops : Int32) :
    (nextHops hops).toInt = min (hops.toInt + 1) Int32.maxValue.toInt := by
  have hle := Int32.toInt_le hops
  have hge := Int32.le_toInt hops
  have hone : Int32.toInt 1 = 1 := rfl
  unfold nextHops
  split
  · next hmax =>
    rw [hmax]
    rfl
  · next hmax =>
    have hne : hops.toInt ≠ Int32.maxValue.toInt := fun h => hmax (Int32.toInt_inj.1 h)
    rw [Int32.toInt_maxValue] at hne hle ⊢
    -- nothing wraps below the greatest number
    rw [Int32.toInt_add, hone, Int.bmod_eq_of_le (by omega) (by omega)]
    omega

/-- Below the largest number of hops, every hop counts. -/
theorem toInt_nextHops {hops : Int32} (h : nextHops hops < Int32.maxValue) :
    (nextHops hops).toInt = hops.toInt + 1 := by
  have hmin := toInt_nextHops_eq_min hops
  have hlt := Int32.lt_iff_toInt_lt.1 h
  omega

/-- A walk goes on with one message, or ends. -/
theorem sends_forward (n : Node) (hops : Int32) (notices : List Notice) :
    (n.forward hops notices).sends = [] ∨
      ∃ peer, (n.forward hops notices).sends = [.unicast peer (.carry n.token hops)] := by
  unfold forward choosePeer
  simp only
  cases (n.neighbors.pick n.generator).1 with
  | none => exact .inl rfl
  | some e => exact .inr ⟨_, rfl⟩

/-- A node that listens answers with one message, or not at all. -/
theorem sends_onMessage (n : Node) (sender : Address) (m : Message) (now : Nat) :
    (n.onMessage sender m now).sends = [] ∨
      ∃ peer m', (n.onMessage sender m now).sends = [.unicast peer m'] ∧ m.Prompts n m' := by
  cases m with
  | announce =>
    left
    show (n.onAnnounce sender now).sends = []
    unfold onAnnounce
    simp only
    split <;> rfl
  | data value version hops =>
    show (n.onData sender ⟨value, version⟩ hops).sends = [] ∨ ∃ peer m',
      (n.onData sender ⟨value, version⟩ hops).sends = [.unicast peer m'] ∧ _
    obtain ⟨_, _, hdata⟩ | ⟨_, hlimit, hdata⟩ := n.onData_cases sender ⟨value, version⟩ hops
    · rw [hdata]
      exact .inl rfl
    · rw [hdata]
      rcases sends_forward (n.takeData ⟨value, version⟩) (nextHops hops)
        (n.dataNotices sender ⟨value, version⟩ hops) with h | ⟨peer, h⟩
      · exact .inl h
      · exact .inr ⟨peer, _, h, .forward value version hops _ hlimit⟩
  | beacon version =>
    show (n.onBeacon sender version).sends = [] ∨ ∃ peer m',
      (n.onBeacon sender version).sends = [.unicast peer m'] ∧ _
    unfold onBeacon
    simp only
    split
    · exact .inr ⟨sender, _, rfl, .push version n.token⟩
    · split
      · exact .inr ⟨sender, _, rfl, .request version n.token.version⟩
      · exact .inl rfl
  | control version => exact .inr ⟨sender, _, rfl, .answer version n.token⟩
  | recover value version =>
    left
    show (n.onRecover sender ⟨value, version⟩).sends = []
    unfold onRecover
    split <;> rfl

/-- A message prompts one message at most. -/
theorem sends_onInbound (n : Node) (sender : Address) (m : Message) (now : Nat) :
    (n.onInbound sender m now).sends = [] ∨
      ∃ peer m', (n.onInbound sender m now).sends = [.unicast peer m'] ∧ m.Prompts n m' := by
  unfold onInbound
  -- without power, from itself, or from a peer
  split
  · exact .inl rfl
  · split
    · exact .inl rfl
    · exact n.sends_onMessage sender m now

/-- A datagram prompts one message at most. -/
theorem sends_handleDatagram (n : Node) (sender : Address) (bytes : List UInt8) (now : Nat) :
    (n.handleDatagram sender bytes now).sends = [] ∨
      ∃ m peer m', Message.decode bytes = .ok m ∧
        (n.handleDatagram sender bytes now).sends = [.unicast peer m'] ∧ m.Prompts n m' := by
  unfold handleDatagram
  cases hdec : Message.decode bytes with
  | error e => exact .inl rfl
  | ok m =>
    exact (n.sends_onInbound sender m now).imp_right fun ⟨peer, m', h, hp⟩ =>
      ⟨m, peer, m', rfl, h, hp⟩

/-- An announcement timer sends one announcement at most. -/
theorem sends_announceTimer (n : Node) (now : Nat) :
    (n.handle .announceTimer now).sends = [] ∨
      (n.handle .announceTimer now).sends = [.multicast .announce] := by
  show n.onAnnounceTimer.sends = [] ∨ n.onAnnounceTimer.sends = [.multicast .announce]
  unfold onAnnounceTimer
  split
  · exact .inl rfl
  · exact .inr rfl

/-- A beacon timer sends one beacon at most. -/
theorem sends_timer_beacon (n : Node) (now : Nat) :
    (n.handle .beaconTimer now).sends = [] ∨
      (n.handle .beaconTimer now).sends = [.multicast (.beacon n.token.version)] := by
  show n.onBeaconTimer.sends = [] ∨ n.onBeaconTimer.sends = [.multicast (.beacon n.token.version)]
  unfold onBeaconTimer
  split
  · exact .inl rfl
  · exact .inr rfl

/-- An origination begins one walk at most. -/
theorem sends_of_originate {n : Node} {value : Option Int32} {now : Nat} {r : Reaction} {t : Token}
    (h : n.originate value now = (r, .ok t)) :
    r.sends = [] ∨ ∃ peer, r.sends = [.unicast peer (.carry t 0)] := by
  obtain ⟨e, he⟩ | ⟨u, _, _, _, hu⟩ := n.originate_cases value now
  · cases (Prod.mk.inj (he.symm.trans h)).2
  · obtain ⟨rfl, hut⟩ := Prod.mk.inj (hu.symm.trans h)
    obtain rfl := Except.ok.inj hut
    unfold launch choosePeer
    simp only
    split
    · exact .inr ⟨_, rfl⟩
    · exact .inl rfl

end Node

end TokenMesh
