import Mathlib.Algebra.GroupWithZero.Nat
import TokenMesh.Node.Handling

namespace TokenMesh

/-!
# Reactions of a node

What all reactions of a node have in common, whatever happened to it.

* `Message.token?`: the token that a message carries;
* `Counters.sentOf`: the messages of a kind that a node has sent;
* `Reaction.Lawful`: a reaction counts exactly what it sends, sends no token but the one that the
  node holds in the end, and multicasts announcements and beacons only;
* `Reaction.Steady`: a reaction that neither takes a node's power nor gives it back;
* `Node.onData_cases`: data is absorbed, or handed on.

`lawful_handle`, `lawful_handleDatagram` and their kin show every operation on a node lawful.
-/

namespace Message

/-- The token that a message carries, if it carries one. -/
def token? : Message → Option Token
  | data value version _ => some ⟨value, version⟩
  | recover value version => some ⟨value, version⟩
  | _ => none

@[simp] theorem token?_carry (t : Token) (hops : Int32) : (carry t hops).token? = some t := rfl

@[simp] theorem token?_answer (t : Token) : (answer t).token? = some t := rfl

/-- Whether messages of a kind go to all nodes in radio range. -/
def Kind.isBroadcast : Kind → Bool
  | announce => true
  | beacon => true
  | _ => false

/-- All kinds of message. -/
def Kind.all : List Kind := [announce, data, beacon, control, recover]

end Message

namespace Token

/-- An offered token is taken over only if it is strictly newer. -/
theorem accept_cases (held offered : Token) :
    held.accept offered = held ∨
      held.version < offered.version ∧ held.accept offered = offered := by
  by_cases h : held.version < offered.version
  · exact .inr ⟨h, accept_of_lt h⟩
  · exact .inl (accept_of_not_lt h)

end Token

namespace Outbound

/-- Whether a message is sent to all nodes in radio range. -/
def isMulticast : Outbound → Bool
  | unicast .. => false
  | multicast _ => true

end Outbound

namespace Counters

/-- The messages of a kind that a node has sent. -/
def sentOf (c : Counters) : Message.Kind → Nat
  | .announce => c.announcesSent
  | .data => c.dataOriginated + c.dataForwarded
  | .beacon => c.beaconsSent
  | .control => c.controlsSent
  | .recover => c.recoversSent

/-- The total is the sum over the kinds. -/
theorem messagesSent_eq_sum (c : Counters) :
    c.messagesSent = (Message.Kind.all.map c.sentOf).sum := by
  simp only [messagesSent, Message.Kind.all, sentOf, List.map_cons, List.map_nil, List.sum_cons,
    List.sum_nil]
  omega

end Counters

namespace Reaction

/-- What every reaction of a node `n` keeps to. -/
structure Lawful (n : Node) (r : Reaction) : Prop where
  address : r.node.address = n.address
  settings : r.node.settings = n.settings
  /-- Every message sent is counted under its kind, and nothing else is. -/
  sentOf : ∀ k, r.node.counters.sentOf k =
    n.counters.sentOf k + r.sends.countP (·.message.kind = k)
  /-- A token that is sent is the one that the node holds in the end. -/
  token : ∀ out ∈ r.sends, ∀ t ∈ out.message.token?, t = r.node.token
  multicast : ∀ out ∈ r.sends, out.isMulticast = out.message.kind.isBroadcast
  /-- All reports are about the node itself. -/
  notices : ∀ x ∈ r.notices, ∃ h, x = .node n.address h

/-- The node has power if and only if it had it before, and has not been switched on since. -/
structure Steady (n : Node) (r : Reaction) : Prop where
  power : r.node.power = n.power
  restarts : r.node.counters.restarts = n.counters.restarts

theorem Steady.restartDeadline? {n : Node} {r : Reaction} (h : r.Steady n) :
    r.node.restartDeadline? = n.restartDeadline? := by
  unfold Node.restartDeadline?
  rw [h.power]

theorem Steady.isDown {n : Node} {r : Reaction} (h : r.Steady n) : r.node.isDown = n.isDown := by
  unfold Node.isDown
  rw [h.power]

/-- A reaction that sends nothing and leaves the counters of messages alone. -/
theorem Lawful.of_silent {n : Node} {r : Reaction} (hs : r.sends = [])
    (ha : r.node.address = n.address) (hset : r.node.settings = n.settings)
    (hc : r.node.counters.sentOf = n.counters.sentOf)
    (hn : ∀ x ∈ r.notices, ∃ h, x = .node n.address h) : r.Lawful n where
  address := ha
  settings := hset
  sentOf k := by rw [hc, hs]; rfl
  token := by simp [hs]
  multicast := by simp [hs]
  notices := hn

/-- A reaction that sends one message and counts it. -/
theorem Lawful.of_single {n : Node} {r : Reaction} {out : Outbound} (hs : r.sends = [out])
    (ha : r.node.address = n.address) (hset : r.node.settings = n.settings)
    (hc : ∀ k, r.node.counters.sentOf k =
      n.counters.sentOf k + if out.message.kind = k then 1 else 0)
    (ht : ∀ t ∈ out.message.token?, t = r.node.token)
    (hm : out.isMulticast = out.message.kind.isBroadcast)
    (hn : ∀ x ∈ r.notices, ∃ h, x = .node n.address h) : r.Lawful n where
  address := ha
  settings := hset
  sentOf k := by rw [hc, hs]; simp [List.countP_cons]
  token := by simpa [hs] using ht
  multicast := by simpa [hs] using hm
  notices := hn

/-- The total of a node that reacts grows by what it sends. -/
theorem Lawful.messagesSent {n : Node} {r : Reaction} (h : r.Lawful n) :
    r.node.counters.messagesSent = n.counters.messagesSent + r.sends.length := by
  have hlen : (Message.Kind.all.map fun k => r.sends.countP (·.message.kind = k)).sum =
      r.sends.length := by
    -- every message is of exactly one kind
    induction r.sends with
    | nil => rfl
    | cons out sends ih =>
      rw [List.length_cons, ← ih]
      simp only [Message.Kind.all, List.map_cons, List.map_nil, List.sum_cons, List.sum_nil,
        List.countP_cons]
      cases out.message.kind <;> simp <;> omega
  rw [Counters.messagesSent_eq_sum, Counters.messagesSent_eq_sum, ← hlen]
  simp only [Message.Kind.all, List.map_cons, List.map_nil, List.sum_cons, List.sum_nil, h.sentOf]
  omega

end Reaction

namespace Node

open Reaction

/-! ### The sweep -/

@[simp] theorem address_sweep (n : Node) (now : Nat) : (n.sweep now).address = n.address := rfl
@[simp] theorem settings_sweep (n : Node) (now : Nat) : (n.sweep now).settings = n.settings := rfl
@[simp] theorem role_sweep (n : Node) (now : Nat) : (n.sweep now).role = n.role := rfl
@[simp] theorem token_sweep (n : Node) (now : Nat) : (n.sweep now).token = n.token := rfl
@[simp] theorem power_sweep (n : Node) (now : Nat) : (n.sweep now).power = n.power := rfl
@[simp] theorem isDown_sweep (n : Node) (now : Nat) : (n.sweep now).isDown = n.isDown := rfl

/-- A sweep sends nothing, so it leaves the counters of messages alone. -/
@[simp] theorem sentOf_sweep (n : Node) (now : Nat) :
    (n.sweep now).counters.sentOf = n.counters.sentOf := by
  funext k; cases k <;> rfl

theorem notices_sweep {n : Node} {now : Nat} {x : Notice} (hx : x ∈ n.sweepNotices now) :
    ∃ h, x = .node n.address h := by
  obtain ⟨e, _, rfl⟩ := List.mem_map.1 hx
  exact ⟨_, rfl⟩

/-- The sweep at the end of an event keeps a reaction lawful. -/
theorem lawful_swept {n : Node} {r : Reaction} (h : r.Lawful n) (now : Nat) :
    (r.swept now).Lawful n where
  address := h.address
  settings := h.settings
  sentOf k := by
    show (r.node.sweep now).counters.sentOf k = _
    rw [sentOf_sweep]; exact h.sentOf k
  token := h.token
  multicast := h.multicast
  notices x hx := by
    rcases List.mem_append.1 hx with hx | hx
    · exact h.notices x hx
    · rw [← h.address]; exact notices_sweep hx

theorem steady_swept {n : Node} {r : Reaction} (h : r.Steady n) (now : Nat) :
    (r.swept now).Steady n := ⟨h.power, h.restarts⟩

/-! ### Timers -/

theorem lawful_onAnnounceTimer (n : Node) : n.onAnnounceTimer.Lawful n := by
  unfold onAnnounceTimer
  split
  · exact .of_silent rfl rfl rfl rfl (by simp)
  · refine .of_single rfl rfl rfl ?_ (by simp [Outbound.message, Message.token?]) rfl
      (by simp [report])
    intro k
    cases k <;> rfl

theorem steady_onAnnounceTimer (n : Node) : n.onAnnounceTimer.Steady n := by
  unfold onAnnounceTimer
  split <;> exact ⟨rfl, rfl⟩

theorem lawful_onBeaconTimer (n : Node) : n.onBeaconTimer.Lawful n := by
  unfold onBeaconTimer
  split
  · exact .of_silent rfl rfl rfl rfl (by simp)
  · refine .of_single rfl rfl rfl ?_ (by simp [Outbound.message, Message.token?]) rfl
      (by simp [report])
    intro k
    cases k <;> rfl

theorem steady_onBeaconTimer (n : Node) : n.onBeaconTimer.Steady n := by
  unfold onBeaconTimer
  split <;> exact ⟨rfl, rfl⟩

theorem lawful_onRestartTimer (n : Node) : n.onRestartTimer.Lawful n := by
  unfold onRestartTimer
  -- the counters outlive a cold start
  split
  · refine .of_silent rfl rfl rfl ?_ (by simp [report, coldStart])
    funext k; cases k <;> rfl
  · exact .of_silent rfl rfl rfl rfl (by simp [report])

/-! ### Messages -/

theorem lawful_onAnnounce (n : Node) (peer : Address) (now : Nat) :
    (n.onAnnounce peer now).Lawful n := by
  unfold onAnnounce
  -- entered, renewed, or turned away
  split
  · refine .of_silent rfl rfl rfl ?_ (by simp [report])
    funext k; cases k <;> rfl
  · exact .of_silent rfl rfl rfl rfl (by simp [report])
  · refine .of_silent rfl rfl rfl ?_ (by simp [report])
    funext k; cases k <;> rfl

theorem steady_onAnnounce (n : Node) (peer : Address) (now : Nat) :
    (n.onAnnounce peer now).Steady n := by
  unfold onAnnounce
  split <;> exact ⟨rfl, rfl⟩

@[simp] theorem neighbors_onAnnounce (n : Node) (peer : Address) (now : Nat) :
    (n.onAnnounce peer now).node.neighbors = n.neighbors.announce peer now := by
  unfold onAnnounce
  dsimp only
  split <;> rfl

theorem lawful_sendToken (n : Node) (peer : Address) (h : Happening) :
    (n.sendToken peer h).Lawful n := by
  refine .of_single rfl rfl rfl ?_ ?_ rfl (by simp [sendToken, report])
  · intro k
    cases k <;> rfl
  · simp [Outbound.message, sendToken]

theorem lawful_requestToken (n : Node) (peer : Address) (h : Happening) :
    (n.requestToken peer h).Lawful n := by
  refine .of_single rfl rfl rfl ?_ ?_ rfl (by simp [requestToken, report])
  · intro k
    cases k <;> rfl
  · simp [Outbound.message, Message.token?]

theorem lawful_onBeacon (n : Node) (peer : Address) (version : Int16) :
    (n.onBeacon peer version).Lawful n := by
  unfold onBeacon
  simp only
  -- ahead of the peer, behind it, or level with it
  split
  · exact lawful_sendToken ..
  · split
    · exact lawful_requestToken ..
    · exact .of_silent rfl rfl rfl rfl (by simp)

theorem steady_onBeacon (n : Node) (peer : Address) (version : Int16) :
    (n.onBeacon peer version).Steady n := by
  unfold onBeacon
  simp only
  -- what is sent makes no difference
  split
  · exact ⟨rfl, rfl⟩
  · split <;> exact ⟨rfl, rfl⟩

theorem lawful_onRecover (n : Node) (peer : Address) (offered : Token) :
    (n.onRecover peer offered).Lawful n := by
  unfold onRecover
  -- a newer token is taken over, any other is only counted
  split
  · refine .of_silent rfl rfl rfl ?_ (by simp [report])
    funext k; cases k <;> rfl
  · refine .of_silent rfl rfl rfl ?_ (by simp)
    funext k; cases k <;> rfl

theorem steady_onRecover (n : Node) (peer : Address) (offered : Token) :
    (n.onRecover peer offered).Steady n := by
  unfold onRecover
  split <;> exact ⟨rfl, rfl⟩

/-- Reports of arriving data are about the node itself. -/
theorem notices_dataNotices {n : Node} {sender : Address} {offered : Token} {hops : Int32}
    {x : Notice} (hx : x ∈ n.dataNotices sender offered hops) :
    ∃ h, x = .node n.address h := by
  unfold dataNotices at hx
  simp only at hx
  split at hx
  · simp only [List.mem_cons, List.not_mem_nil, or_false] at hx
    rcases hx with rfl | rfl <;> exact ⟨_, rfl⟩
  · rw [List.mem_singleton.1 hx]; exact ⟨_, rfl⟩

theorem lawful_absorb {n : Node} {notices : List Notice}
    (hn : ∀ x ∈ notices, ∃ h, x = .node n.address h) : (n.absorb notices).Lawful n := by
  refine .of_silent rfl rfl rfl ?_ hn
  funext k; cases k <;> rfl

theorem lawful_forward {n : Node} {notices : List Notice} (hops : Int32)
    (hn : ∀ x ∈ notices, ∃ h, x = .node n.address h) : (n.forward hops notices).Lawful n := by
  unfold forward choosePeer
  simp only
  -- somebody to forward to, or nobody
  cases (n.neighbors.pick n.generator).1 with
  | some e =>
    refine .of_single rfl rfl rfl ?_ ?_ rfl hn
    · intro k
      cases k <;> rfl
    · simp [Outbound.message]
  | none =>
    refine .of_silent rfl rfl rfl ?_ ?_
    · funext k; cases k <;> rfl
    · simpa [report, or_imp, forall_and] using hn

theorem steady_forward (n : Node) (hops : Int32) (notices : List Notice) :
    (n.forward hops notices).Steady n := by
  unfold forward choosePeer
  simp only
  cases (n.neighbors.pick n.generator).1 <;> exact ⟨rfl, rfl⟩

/-- A walk goes on with the token that the node holds. -/
@[simp] theorem token_forward (n : Node) (hops : Int32) (notices : List Notice) :
    (n.forward hops notices).node.token = n.token := by
  unfold forward choosePeer
  simp only
  cases (n.neighbors.pick n.generator).1 <;> rfl

/-- What is lawful for the node that has taken the data is so for the node before. -/
theorem lawful_of_takeData {n : Node} (offered : Token) {r : Reaction}
    (h : r.Lawful (n.takeData offered)) : r.Lawful n where
  address := h.address
  settings := h.settings
  sentOf k := by
    have := h.sentOf k
    cases k <;> exact this
  token := h.token
  multicast := h.multicast
  notices := h.notices

theorem forwards_eq_false_iff {role : Role} : role.forwards = false ↔ role = .sink := by
  cases role <;> simp [Role.forwards]

/-- A sink absorbs all data, others that whose walk is at its limit; any other data is handed on. -/
theorem onData_cases (n : Node) (sender : Address) (offered : Token) (hops : Int32) :
    ((n.role = .sink ∨ n.overLimit (nextHops hops) = true) ∧
      ∃ notices, n.onData sender offered hops = (n.takeData offered).absorb notices) ∨
    (n.role ≠ .sink ∧ n.overLimit (nextHops hops) = false ∧
      n.onData sender offered hops =
        (n.takeData offered).forward (nextHops hops) (n.dataNotices sender offered hops)) := by
  have hlimit : (n.takeData offered).overLimit (nextHops hops) = n.overLimit (nextHops hops) := rfl
  have hrole : (n.takeData offered).role = n.role := rfl
  unfold onData
  dsimp only
  rw [hlimit, hrole]
  by_cases hsink : n.role = .sink
  · exact .inl ⟨.inl hsink, _, if_pos (by rw [hsink]; rfl)⟩
  · have hforwards : ¬ (!n.role.forwards) = true := by
      simpa using fun h => hsink (forwards_eq_false_iff.1 h)
    rw [if_neg hforwards]
    cases ho : n.overLimit (nextHops hops) with
    | true => exact .inl ⟨.inr rfl, _, if_pos rfl⟩
    | false => exact .inr ⟨hsink, rfl, if_neg Bool.false_ne_true⟩

theorem lawful_onData (n : Node) (sender : Address) (offered : Token) (hops : Int32) :
    (n.onData sender offered hops).Lawful n := by
  have hn : ∀ x ∈ n.dataNotices sender offered hops, ∃ h, x = .node n.address h :=
    fun x hx => notices_dataNotices hx
  unfold onData
  simp only
  refine lawful_of_takeData offered ?_
  -- a sink, a walk at its limit, or one that goes on
  split
  · exact lawful_absorb hn
  · split
    · apply lawful_absorb
      intro x hx
      rcases List.mem_append.1 hx with hx | hx
      · exact hn x hx
      · rw [List.mem_singleton.1 hx]; exact ⟨_, rfl⟩
    · exact lawful_forward _ hn

theorem steady_onData (n : Node) (sender : Address) (offered : Token) (hops : Int32) :
    (n.onData sender offered hops).Steady n := by
  obtain ⟨_, _, hdata⟩ | ⟨_, _, hdata⟩ := n.onData_cases sender offered hops
  · rw [hdata]
    exact ⟨rfl, rfl⟩
  · rw [hdata]
    have h := steady_forward (n.takeData offered) (nextHops hops)
      (n.dataNotices sender offered hops)
    exact ⟨h.power, h.restarts⟩

/-- Data leaves the newer of two tokens. -/
theorem token_onData (n : Node) (sender : Address) (offered : Token) (hops : Int32) :
    (n.onData sender offered hops).node.token = n.token.accept offered := by
  obtain ⟨_, _, hdata⟩ | ⟨_, _, hdata⟩ := n.onData_cases sender offered hops
  · rw [hdata]
    rfl
  · rw [hdata, token_forward]
    rfl

/-- An answer leaves the newer of two tokens. -/
theorem token_onRecover (n : Node) (peer : Address) (offered : Token) :
    (n.onRecover peer offered).node.token = n.token.accept offered := by
  unfold onRecover Token.accept
  cases n.token.judge offered with
  | accepted => rfl
  | stale => rfl

/-- A node with power listens to all others. -/
theorem onInbound_of_up {n : Node} {sender : Address} (hup : n.isDown = false)
    (hne : sender ≠ n.address) (m : Message) (now : Nat) :
    n.onInbound sender m now = n.onMessage sender m now := by
  unfold onInbound
  rw [if_neg (by rw [hup]; exact Bool.false_ne_true), if_neg hne]

theorem lawful_onInbound (n : Node) (sender : Address) (m : Message) (now : Nat) :
    (n.onInbound sender m now).Lawful n := by
  unfold onInbound
  -- without power, from itself, or from a peer
  split
  · refine .of_silent rfl rfl rfl ?_ (by simp)
    funext k; cases k <;> rfl
  · split
    · exact .of_silent rfl rfl rfl rfl (by simp)
    · cases m with
      | announce => exact lawful_onAnnounce ..
      | data value version hops => exact lawful_onData ..
      | beacon version => exact lawful_onBeacon ..
      | control version => exact lawful_sendToken ..
      | recover value version => exact lawful_onRecover ..

theorem steady_onInbound (n : Node) (sender : Address) (m : Message) (now : Nat) :
    (n.onInbound sender m now).Steady n := by
  unfold onInbound
  split
  · exact ⟨rfl, rfl⟩
  · split
    · exact ⟨rfl, rfl⟩
    · cases m with
      | announce => exact steady_onAnnounce ..
      | data value version hops => exact steady_onData ..
      | beacon version => exact steady_onBeacon ..
      | control version => exact ⟨rfl, rfl⟩
      | recover value version => exact steady_onRecover ..

/-- A message leaves the token as it is or brings a strictly newer one. -/
theorem token_onInbound (n : Node) (sender : Address) (m : Message) (now : Nat) :
    (n.onInbound sender m now).node.token = n.token ∨
      ∃ t ∈ m.token?, n.token.version < t.version ∧
        (n.onInbound sender m now).node.token = t := by
  unfold onInbound
  split
  · exact .inl rfl
  · split
    · exact .inl rfl
    · cases m with
      | announce =>
        simp only [onMessage, onAnnounce]
        split <;> exact .inl rfl
      | data value version hops =>
        rw [onMessage, token_onData]
        exact (Token.accept_cases ..).imp_right fun h => ⟨_, rfl, h⟩
      | beacon version =>
        simp only [onMessage, onBeacon]
        split
        · exact .inl rfl
        · split <;> exact .inl rfl
      | control version => exact .inl rfl
      | recover value version =>
        rw [onMessage, token_onRecover]
        exact (Token.accept_cases ..).imp_right fun h => ⟨_, rfl, h⟩

/-! ### All operations -/

theorem lawful_handle (n : Node) (e : Event) (now : Nat) : (n.handle e now).Lawful n := by
  refine lawful_swept ?_ now
  cases e with
  | announceTimer => exact lawful_onAnnounceTimer n
  | beaconTimer => exact lawful_onBeaconTimer n
  | restartTimer => exact lawful_onRestartTimer n
  | inbound sender m => exact lawful_onInbound ..

/-- Only the restart timer gives power back. -/
theorem steady_handle (n : Node) {e : Event} (he : e ≠ .restartTimer) (now : Nat) :
    (n.handle e now).Steady n := by
  refine steady_swept ?_ now
  cases e with
  | announceTimer => exact steady_onAnnounceTimer n
  | beaconTimer => exact steady_onBeaconTimer n
  | restartTimer => exact absurd rfl he
  | inbound sender m => exact steady_onInbound ..

theorem lawful_handleDatagram (n : Node) (sender : Address) (bytes : List UInt8) (now : Nat) :
    (n.handleDatagram sender bytes now).Lawful n := by
  unfold handleDatagram
  split
  · exact lawful_handle ..
  · next e _ =>
    have h : (n.dropMalformed sender bytes.length e).Lawful n := by
      refine .of_silent rfl rfl rfl ?_ (by simp [dropMalformed, report])
      funext k; cases k <;> rfl
    exact lawful_swept h now

theorem steady_handleDatagram (n : Node) (sender : Address) (bytes : List UInt8) (now : Nat) :
    (n.handleDatagram sender bytes now).Steady n := by
  unfold handleDatagram
  split
  · exact steady_handle n (by simp) now
  · next e _ =>
    have h : (n.dropMalformed sender bytes.length e).Steady n := ⟨rfl, rfl⟩
    exact steady_swept h now

theorem lawful_setRole (n : Node) (role : Role) : (n.setRole role).Lawful n := by
  unfold setRole
  split
  · exact .of_silent rfl rfl rfl rfl (by simp)
  · exact .of_silent rfl rfl rfl rfl (by simp [report])

theorem steady_setRole (n : Node) (role : Role) : (n.setRole role).Steady n := by
  unfold setRole
  split <;> exact ⟨rfl, rfl⟩

@[simp] theorem token_setRole (n : Node) (role : Role) : (n.setRole role).node.token = n.token := by
  unfold setRole
  split <;> rfl

@[simp] theorem sends_setRole (n : Node) (role : Role) : (n.setRole role).sends = [] := by
  unfold setRole
  split <;> rfl

/-- The first step of a walk: a node that has taken over its new token hands it to a random
    neighbor, if there is one. -/
def launch (n : Node) (token : Token) (told : List Notice) : Reaction :=
  let (peer, n) := { n with token := token }.choosePeer
  match peer with
  | some peer =>
    { node := { n with counters := { n.counters with
        dataOriginated := n.counters.dataOriginated + 1 } }
      sends := [.unicast peer (.carry token 0)]
      notices := told }
  | none =>
    { node := { n with counters := { n.counters with
        forwardsWithoutNeighbor := n.counters.forwardsWithoutNeighbor + 1 } }
      notices := told ++ [n.report .keptLocally] }

/-- A request to originate is refused, which leaves the sweep alone, or launches the next token of
    a source with power. -/
theorem originate_cases (n : Node) (value : Option Int32) (now : Nat) :
    (∃ e, n.originate value now =
      ({ node := n.sweep now, notices := n.sweepNotices now }, .error e)) ∨
    (∃ t, n.isDown = false ∧ n.role = .source ∧
      n.token.advance? (value.getD n.token.nextValue) = some t ∧
      n.originate value now =
        ((n.sweep now).launch t (n.sweepNotices now ++ [n.report (.originating t)]), .ok t)) := by
  unfold originate
  -- refused without power, in another role than that of a source, and after the last version
  by_cases hd : (n.sweep now).isDown = true
  · exact .inl ⟨_, if_pos hd⟩
  by_cases hr : (n.sweep now).role = .source
  · cases ht : (n.sweep now).token.advance? (value.getD (n.sweep now).token.nextValue) with
    | none => exact .inl ⟨_, by rw [if_neg hd, if_neg (not_not_intro hr), ht]⟩
    | some t =>
      refine .inr ⟨t, by simpa using hd, hr, ht, ?_⟩
      rw [if_neg hd, if_neg (not_not_intro hr), ht]
      dsimp only [launch]
      rcases ({ n.sweep now with token := t } : Node).choosePeer with ⟨_ | peer, m⟩ <;> rfl
  · exact .inl ⟨_, by rw [if_neg hd, if_pos hr]⟩

@[simp] theorem token_launch (n : Node) (token : Token) (told : List Notice) :
    (n.launch token told).node.token = token := by
  unfold launch choosePeer
  simp only
  cases (n.neighbors.pick n.generator).1 <;> rfl

theorem steady_launch (n : Node) (token : Token) (told : List Notice) :
    (n.launch token told).Steady n := by
  unfold launch choosePeer
  simp only
  cases (n.neighbors.pick n.generator).1 <;> exact ⟨rfl, rfl⟩

theorem lawful_launch {n : Node} {told : List Notice} (token : Token)
    (hn : ∀ x ∈ told, ∃ h, x = .node n.address h) : (n.launch token told).Lawful n := by
  unfold launch choosePeer
  simp only
  -- somebody to hand the token to, or nobody
  cases (n.neighbors.pick n.generator).1 with
  | some e =>
    refine .of_single rfl rfl rfl ?_ ?_ rfl hn
    · intro k
      cases k with
      | data => exact Nat.add_right_comm ..
      | _ => rfl
    · simp [Outbound.message]
  | none =>
    refine .of_silent rfl rfl rfl ?_ ?_
    · funext k; cases k <;> rfl
    · simpa [report, or_imp, forall_and] using hn

section originate

variable {n : Node} {value : Option Int32} {now : Nat} {r : Reaction}

theorem lawful_of_originate {x : Except Refusal Token} (h : n.originate value now = (r, x)) :
    r.Lawful n := by
  have hn : ∀ x ∈ n.sweepNotices now, ∃ h, x = .node n.address h := fun x hx => notices_sweep hx
  obtain ⟨e, he⟩ | ⟨t, _, _, _, ht⟩ := n.originate_cases value now
  · obtain ⟨rfl, _⟩ := Prod.mk.inj (he.symm.trans h)
    exact .of_silent rfl rfl rfl (sentOf_sweep n now) hn
  · obtain ⟨rfl, _⟩ := Prod.mk.inj (ht.symm.trans h)
    have hl : ((n.sweep now).launch t (n.sweepNotices now ++ [n.report (.originating t)])).Lawful
        (n.sweep now) := by
      apply lawful_launch t
      intro x hx
      rcases List.mem_append.1 hx with hx | hx
      · exact hn x hx
      · rw [List.mem_singleton.1 hx]
        exact ⟨_, rfl⟩
    -- the launch starts from the swept node, which has sent as much
    refine ⟨hl.address, hl.settings, ?_, hl.token, hl.multicast, hl.notices⟩
    intro k
    rw [hl.sentOf k, sentOf_sweep]

theorem steady_of_originate {x : Except Refusal Token} (h : n.originate value now = (r, x)) :
    r.Steady n := by
  obtain ⟨e, he⟩ | ⟨t, _, _, _, ht⟩ := n.originate_cases value now
  · obtain ⟨rfl, _⟩ := Prod.mk.inj (he.symm.trans h)
    exact ⟨rfl, rfl⟩
  · obtain ⟨rfl, _⟩ := Prod.mk.inj (ht.symm.trans h)
    have hs := steady_launch (n.sweep now) t (n.sweepNotices now ++ [n.report (.originating t)])
    exact ⟨hs.power, hs.restarts⟩

/-- A source that originates a token holds it from then on, and it is the next one. -/
theorem originate_eq_ok {t : Token} (h : n.originate value now = (r, .ok t)) :
    n.token.advance? (value.getD n.token.nextValue) = some t ∧ r.node.token = t := by
  obtain ⟨e, he⟩ | ⟨u, _, _, hadv, hu⟩ := n.originate_cases value now
  · cases (Prod.mk.inj (he.symm.trans h)).2
  · obtain ⟨rfl, hut⟩ := Prod.mk.inj (hu.symm.trans h)
    obtain rfl := Except.ok.inj hut
    exact ⟨hadv, token_launch ..⟩

/-- Where nothing is originated, nothing is sent, and the node keeps its token. -/
theorem originate_eq_error {e : Refusal} (h : n.originate value now = (r, .error e)) :
    r.node.token = n.token ∧ r.sends = [] := by
  obtain ⟨e', he⟩ | ⟨u, _, _, _, hu⟩ := n.originate_cases value now
  · obtain ⟨rfl, _⟩ := Prod.mk.inj (he.symm.trans h)
    exact ⟨rfl, rfl⟩
  · cases (Prod.mk.inj (hu.symm.trans h)).2

end originate

/-! ### Power -/

/-- A node that is to be switched on again is down. -/
theorem isDown_of_restartDeadline? {n : Node} {t : Nat} (h : n.restartDeadline? = some t) :
    n.isDown = true := by
  unfold restartDeadline? at h
  unfold isDown
  split at h <;> simp_all

theorem restartDeadline?_of_up {n : Node} (h : n.isDown = false) : n.restartDeadline? = none := by
  unfold isDown at h
  unfold restartDeadline?
  split at h <;> simp_all

/-- A node with power keeps everything when its restart timer fires. -/
theorem onRestartTimer_of_up {n : Node} (h : n.isDown = false) : n.onRestartTimer.node = n := by
  unfold onRestartTimer
  rw [if_neg (by simp [h])]

/-- A node without power starts again from nothing when its restart timer fires. -/
theorem onRestartTimer_of_down {n : Node} (h : n.isDown = true) :
    n.onRestartTimer.node = { n.coldStart with counters := { n.counters with
      restarts := n.counters.restarts + 1 } } := by
  unfold onRestartTimer
  rw [if_pos h]
  rfl

@[simp] theorem sends_onRestartTimer (n : Node) : n.onRestartTimer.sends = [] := by
  unfold onRestartTimer
  split <;> rfl

/-- Power failures take nothing but the power; they are refused where there is none. -/
theorem powerDown_eq_ok {n : Node} {delay now : Nat} {r : Reaction}
    (h : n.powerDown delay now = .ok r) :
    n.isDown = false ∧ r.node = { n with power := .down (now + delay) } ∧ r.sends = [] ∧
      r.Lawful n := by
  unfold powerDown at h
  split at h
  · cases h
  · next hd =>
    cases h
    exact ⟨by simpa using hd, rfl, rfl, .of_silent rfl rfl rfl rfl (by simp [report])⟩

/-- Whatever is done with a node, its reaction is lawful. -/
theorem lawful_perform (n : Node) (op : Operation) : (n.perform op).1.Lawful n := by
  cases op with
  | event e now => exact lawful_handle ..
  | datagram sender bytes now => exact lawful_handleDatagram ..
  | originate value now =>
    rcases ho : n.originate value now with ⟨r, e | t⟩
    · simpa only [perform, ho] using lawful_of_originate ho
    · simpa only [perform, ho] using lawful_of_originate ho
  | setRole role => exact lawful_setRole ..
  | powerDown delay now =>
    cases hp : n.powerDown delay now with
    | ok r =>
      simp only [perform, hp]
      exact (powerDown_eq_ok hp).2.2.2
    | error e =>
      simp only [perform, hp]
      exact .of_silent rfl rfl rfl rfl (by simp)

end Node

end TokenMesh
