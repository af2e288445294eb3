import TokenMesh.Proofs.Node.Replies

namespace TokenMesh

/-!
# Walks do not fork

Whatever a node does, it hands on data only when data has come in, and once at most; only an
origination begins something new.  What it hands on is a sound step of a walk.

* `Reaction.dataSent`: how often a reaction sends data;
* `Reaction.Unforked`: a reaction sends data no more often than it has heard data or begun a walk,
  as its node counts;
* `Node.unforked_handleDatagram`, `Node.unforked_timer`, `Node.unforked_of_originate`: all
  reactions are like that;
* `Message.Sound`: what data on its way looks like, and `Node.sound_handleDatagram`: what a node
  hands on looks like that if what it hears does.
-/

/-- How often data is sent. -/
def Reaction.dataSent (r : Reaction) : Nat := r.sends.countP (·.message.kind = .data)

/-- A reaction sends data no more often than it has heard data, or begun a walk as its node counts.
    Of what it counts, so many receptions were `heard` and so many walks `begun`. -/
structure Reaction.Unforked (n : Node) (heard begun : Nat) (r : Reaction) : Prop where
  sent : r.dataSent + n.counters.dataOriginated ≤ heard + r.node.counters.dataOriginated
  originated : r.node.counters.dataOriginated ≤ n.counters.dataOriginated + begun
  received : r.node.counters.dataReceived ≤ n.counters.dataReceived + heard

namespace Node

open Reaction

/-- Whoever begins no walk may send data once for each time that it has heard data. -/
theorem unforked_of_heard {n : Node} {r : Reaction} {heard : Nat} (hs : r.dataSent ≤ heard)
    (ho : r.node.counters.dataOriginated = n.counters.dataOriginated)
    (hr : r.node.counters.dataReceived ≤ n.counters.dataReceived + heard) :
    r.Unforked n heard 0 := by
  constructor <;> omega

/-- Whoever sends no data and leaves the counters of data alone forks no walk. -/
theorem unforked_of_same {n : Node} {r : Reaction} {heard : Nat} (hs : r.dataSent = 0)
    (ho : r.node.counters.dataOriginated = n.counters.dataOriginated)
    (hr : r.node.counters.dataReceived = n.counters.dataReceived) : r.Unforked n heard 0 := by
  apply unforked_of_heard _ ho <;> omega

theorem unforked_swept {n : Node} {r : Reaction} {heard begun : Nat}
    (h : r.Unforked n heard begun) (now : Nat) : (r.swept now).Unforked n heard begun :=
  ⟨h.sent, h.originated, h.received⟩

/-! ### Messages -/

section inbound

variable (n : Node) (sender : Address)

theorem unforked_onAnnounce (now : Nat) : (n.onAnnounce sender now).Unforked n 0 0 := by
  unfold onAnnounce
  dsimp only
  split <;> apply unforked_of_same <;> rfl

theorem unforked_sendToken (what : Happening) : (n.sendToken sender what).Unforked n 0 0 := by
  apply unforked_of_same <;> rfl

theorem unforked_onBeacon (version : Int16) : (n.onBeacon sender version).Unforked n 0 0 := by
  unfold onBeacon
  dsimp only
  -- ahead of the peer, behind it, or level with it
  split
  · apply unforked_sendToken
  · split <;> apply unforked_of_same <;> rfl

theorem unforked_onRecover (offered : Token) : (n.onRecover sender offered).Unforked n 0 0 := by
  unfold onRecover
  split <;> apply unforked_of_same <;> rfl

/-- A walk that goes on does so once, and it is counted as received. -/
theorem unforked_onData (offered : Token) (hops : Int32) :
    (n.onData sender offered hops).Unforked n 1 0 := by
  obtain ⟨_, _, hdata⟩ | ⟨_, _, hdata⟩ := n.onData_cases sender offered hops
  · rw [hdata]
    exact unforked_of_heard (Nat.zero_le 1) rfl (Nat.le_refl _)
  · rw [hdata]
    unfold forward choosePeer
    dsimp only
    -- whether there is somebody to go on to
    split
    · exact unforked_of_heard (Nat.le_refl 1) rfl (Nat.le_refl _)
    · exact unforked_of_heard (Nat.zero_le 1) rfl (Nat.le_refl _)

theorem unforked_onInbound (m : Message) (now : Nat) :
    (n.onInbound sender m now).Unforked n (if m.kind = .data then 1 else 0) 0 := by
  unfold onInbound
  by_cases hdown : n.isDown = true
  · rw [if_pos hdown]
    apply unforked_of_same <;> rfl
  by_cases hself : sender = n.address
  · rw [if_neg hdown, if_pos hself]
    apply unforked_of_same <;> rfl
  rw [if_neg hdown, if_neg hself]
  cases m with
  | announce => exact n.unforked_onAnnounce sender now
  | data value version hops => exact n.unforked_onData sender ⟨value, version⟩ hops
  | beacon version => exact n.unforked_onBeacon sender version
  | control version => exact n.unforked_sendToken sender _
  | recover value version => exact n.unforked_onRecover sender ⟨value, version⟩

end inbound

/-! ### All reactions -/

theorem unforked_timer (n : Node) (kind : TimerKind) (now : Nat) :
    (n.handle kind.event now).Unforked n 0 0 := by
  refine unforked_swept ?_ now
  cases kind with
  | announce =>
    show n.onAnnounceTimer.Unforked n 0 0
    unfold onAnnounceTimer
    split <;> apply unforked_of_same <;> rfl
  | beacon =>
    show n.onBeaconTimer.Unforked n 0 0
    unfold onBeaconTimer
    split <;> apply unforked_of_same <;> rfl
  | restart =>
    show n.onRestartTimer.Unforked n 0 0
    unfold onRestartTimer
    split <;> apply unforked_of_same <;> rfl

theorem unforked_setRole (n : Node) (role : Role) : (n.setRole role).Unforked n 0 0 := by
  unfold setRole
  split <;> apply unforked_of_same <;> rfl

theorem unforked_launch (n : Node) (token : Token) (told : List Notice) :
    (n.launch token told).Unforked n 0 1 := by
  unfold launch choosePeer
  dsimp only
  -- somebody to hand the token to, or nobody
  split
  · exact ⟨by rw [Nat.zero_add, Nat.add_comm]; exact Nat.le_refl _, Nat.le_refl _, Nat.le_refl _⟩
  · exact ⟨Nat.le_refl _, Nat.le_succ _, Nat.le_refl _⟩

/-- A new walk begins with one message at most, which is counted. -/
theorem unforked_of_originate {n : Node} {value : Option Int32} {now : Nat} {r : Reaction}
    {t : Token} (h : n.originate value now = (r, .ok t)) : r.Unforked n 0 1 := by
  obtain ⟨e, he⟩ | ⟨u, _, _, _, hu⟩ := n.originate_cases value now
  · cases (Prod.mk.inj (he.symm.trans h)).2
  · obtain ⟨rfl, _⟩ := Prod.mk.inj (hu.symm.trans h)
    have hl := (n.sweep now).unforked_launch u (n.sweepNotices now ++ [n.report (.originating u)])
    exact ⟨hl.sent, hl.originated, hl.received⟩

theorem unforked_of_refused {n : Node} {value : Option Int32} {now : Nat} {r : Reaction}
    {e : Refusal} (h : n.originate value now = (r, .error e)) : r.Unforked n 0 0 := by
  obtain ⟨e', he⟩ | ⟨u, _, _, _, hu⟩ := n.originate_cases value now
  · obtain ⟨rfl, _⟩ := Prod.mk.inj (he.symm.trans h)
    apply unforked_of_same <;> rfl
  · cases (Prod.mk.inj (hu.symm.trans h)).2

end Node

/-! ### Sound steps -/

/-- Data on its way in a network whose walks are limited by `most`: it brings a token that has been
    originated, it has made no negative number of hops, and no more than the limit if that makes
    sense. -/
def Message.Sound (most : Option Int32) : Message → Prop
  | .data _ version hops => 1 ≤ version ∧ 0 ≤ hops ∧ ∀ m ∈ most, 0 ≤ m → hops ≤ m
  | _ => True

/-- All that a reaction sends is sound. -/
def Reaction.Sound (most : Option Int32) (r : Reaction) : Prop :=
  ∀ out ∈ r.sends, out.message.Sound most

/-- Accepting a token leaves nothing older behind. -/
theorem Token.le_version_accept (held offered : Token) :
    offered.version ≤ (held.accept offered).version := by
  by_cases h : held.version < offered.version
  · rw [accept_of_lt h]
    exact Int16.le_refl _
  · rw [accept_of_not_lt h]
    exact Int16.not_lt.1 h

namespace Node

variable {most : Option Int32} {r : Reaction}

theorem sound_of_silent (h : r.sends = []) : r.Sound most := by
  intro out hout
  rw [h] at hout
  cases hout

theorem sound_of_single {out : Outbound} (h : r.sends = [out]) (ho : out.message.Sound most) :
    r.Sound most := by
  intro out' hout
  rw [h] at hout
  rw [List.mem_singleton.1 hout]
  exact ho

/-- The count of hops never becomes negative. -/
theorem nonneg_nextHops {hops : Int32} (h : 0 ≤ hops) : 0 ≤ nextHops hops := by
  rcases Int32.lt_or_le (nextHops hops) Int32.maxValue with hlt | hle
  · have hnext := toInt_nextHops hlt
    have h := Int32.le_iff_toInt_le.1 h
    rw [Int32.le_iff_toInt_le, hnext]
    omega
  · exact Int32.le_trans (by decide) hle

/-- A walk that is not beyond its limit has made no more hops than that. -/
theorem le_of_not_overLimit {n : Node} {hops m : Int32} (h : n.overLimit hops = false)
    (hm : n.settings.maxHops = some m) : hops ≤ m := by
  unfold overLimit at h
  rw [hm] at h
  exact Int32.not_lt.1 (by simpa using h)

/-- A node hands on the newer of two tokens, under one more hop, and only within the limit. -/
theorem sound_onData {n : Node} {value : Int32} {version : Int16} {hops : Int32}
    (h : (Message.data value version hops).Sound n.settings.maxHops) (sender : Address) :
    (n.onData sender ⟨value, version⟩ hops).Sound n.settings.maxHops := by
  obtain ⟨hversion, hhops, _⟩ := h
  obtain ⟨_, _, hdata⟩ | ⟨_, hlimit, hdata⟩ := n.onData_cases sender ⟨value, version⟩ hops
  · rw [hdata]
    exact sound_of_silent rfl
  · rw [hdata]
    rcases sends_forward (n.takeData ⟨value, version⟩) (nextHops hops)
      (n.dataNotices sender ⟨value, version⟩ hops) with hnone | ⟨peer, hone⟩
    · exact sound_of_silent hnone
    · refine sound_of_single hone ⟨?_, nonneg_nextHops hhops, ?_⟩
      · exact Int16.le_trans hversion (n.token.le_version_accept ⟨value, version⟩)
      · exact fun m hm _ => le_of_not_overLimit hlimit hm

/-- What a node answers to a sound message is sound. -/
theorem sound_onInbound {n : Node} {m : Message} (h : m.Sound n.settings.maxHops)
    (sender : Address) (now : Nat) : (n.onInbound sender m now).Sound n.settings.maxHops := by
  unfold onInbound
  split
  · exact sound_of_silent rfl
  · split
    · exact sound_of_silent rfl
    · rcases n.sends_onMessage sender m now with hnone | ⟨peer, m', hone, hp⟩
      · exact sound_of_silent hnone
      · -- data alone prompts data
        cases hp with
        | forward value version hops t _ => exact sound_onData h sender
        | _ => exact sound_of_single hone trivial

theorem sound_handleDatagram {n : Node} {bytes : List UInt8}
    (h : ∀ m, Message.decode bytes = .ok m → m.Sound n.settings.maxHops) (sender : Address)
    (now : Nat) : (n.handleDatagram sender bytes now).Sound n.settings.maxHops := by
  unfold handleDatagram
  cases hdec : Message.decode bytes with
  | error e => exact sound_of_silent rfl
  | ok m => exact sound_onInbound (h m hdec) sender now

theorem sound_timer (n : Node) (kind : TimerKind) (now : Nat) :
    (n.handle kind.event now).Sound most := by
  cases kind with
  | announce =>
    rcases n.sends_announceTimer now with hnone | hone
    · exact sound_of_silent hnone
    · exact sound_of_single hone trivial
  | beacon =>
    rcases n.sends_timer_beacon now with hnone | hone
    · exact sound_of_silent hnone
    · exact sound_of_single hone trivial
  | restart => exact sound_of_silent n.sends_onRestartTimer

/-- A walk begins without hops and with a token that is newer than what all nodes start with. -/
theorem sound_of_originate {n : Node} {value : Option Int32} {now : Nat} {t : Token}
    (h : n.originate value now = (r, .ok t)) (ht : 1 ≤ t.version) : r.Sound most := by
  rcases sends_of_originate h with hnone | ⟨peer, hone⟩
  · exact sound_of_silent hnone
  · exact sound_of_single hone ⟨ht, Int32.le_refl 0, fun _ _ hm => hm⟩

end Node

end TokenMesh
