import TokenMesh.Proofs.Message.Canonical
import TokenMesh.Proofs.Node.Outage

namespace TokenMesh

/-!
# Raw datagrams

A datagram is either one message, and then it is that event and nothing else, or it is dropped: the
node counts it, sends nothing, and forgets its expired neighbors as after any other event.

* `Message.decode_eq_error_iff`: the datagrams that are dropped are those that are no message in
  writing;
* `Node.handleDatagram_of_ok`, `Node.handleDatagram_of_error`: a message, and a drop;
* `Node.neighbors_handle_timer`: the sweep that both are compared with;
* `Node.event_or_inert`: nothing else comes of a datagram.
-/

namespace Message

/-- What cannot be read is what no message is written as. -/
theorem decode_eq_error_iff {bytes : List UInt8} :
    (∃ e, decode bytes = .error e) ↔ ∀ m : Message, bytes ≠ m.encode := by
  constructor
  · rintro ⟨e, he⟩ m rfl
    cases (decode_encode m).symm.trans he
  · intro h
    cases hd : decode bytes with
    | error e => exact ⟨e, rfl⟩
    | ok m => exact absurd (eq_encode_of_decode hd) (h m)

end Message

namespace Node

variable {n : Node} {sender : Address} {bytes : List UInt8} {now : Nat}

/-- A datagram that holds a message is handled as that message. -/
theorem handleDatagram_of_ok {m : Message} (h : Message.decode bytes = .ok m) :
    n.handleDatagram sender bytes now = n.handle (.inbound sender m) now := by
  unfold handleDatagram
  rw [h]

/-- A datagram that holds no message is dropped, and the sweep follows. -/
theorem handleDatagram_of_error {e : WireError} (h : Message.decode bytes = .error e) :
    n.handleDatagram sender bytes now = (n.dropMalformed sender bytes.length e).swept now := by
  unfold handleDatagram
  rw [h]

/-- A timer for an announcement or a beacon leaves the table to the sweep. -/
theorem neighbors_handle_timer {k : TimerKind} (hk : k ≠ .restart) :
    (n.handle k.event now).node.neighbors = n.neighbors.expire now ∧
      (n.handle k.event now).node.counters.neighborsExpired =
        n.counters.neighborsExpired + (n.neighbors.due now).length := by
  cases k with
  | announce =>
    unfold handle react TimerKind.event onAnnounceTimer
    cases n.isDown <;> exact ⟨rfl, rfl⟩
  | beacon =>
    unfold handle react TimerKind.event onBeaconTimer
    cases n.isDown <;> exact ⟨rfl, rfl⟩
  | restart => exact absurd rfl hk

/-- **Raw datagrams.**  Bytes that a message is written as are handled as that message, whoever sent
    them and whether the node has power or not.  All other bytes are inert: nothing is sent, they
    are counted and reported as malformed, and the entries whose time has come are swept and counted
    just as after a timer has fired.  All else in the node stays as it is: its token, role, power
    and restart deadline, its generator, and every other counter. -/
theorem event_or_inert (n : Node) (sender : Address) (bytes : List UInt8) (now : Nat) :
    (∀ m : Message, bytes = m.encode →
      n.handleDatagram sender bytes now = n.handle (.inbound sender m) now) ∧
    ((∀ m : Message, bytes ≠ m.encode) →
      (n.handleDatagram sender bytes now).sends = [] ∧
      (n.handleDatagram sender bytes now).node =
        { n with
          neighbors := { n.neighbors with
            entries := n.neighbors.entries.filter fun e => now < e.expiry }
          counters := { n.counters with
            malformedDropped := n.counters.malformedDropped + 1
            neighborsExpired := n.counters.neighborsExpired +
              (n.neighbors.entries.filter fun e => e.expiry ≤ now).length } } ∧
      (∃ e, Message.decode bytes = .error e ∧ (n.handleDatagram sender bytes now).notices =
        n.report (.malformed bytes.length sender e) :: n.sweepNotices now) ∧
      ∀ k : TimerKind, k ≠ .restart →
        (n.handleDatagram sender bytes now).node.neighbors =
            (n.handle k.event now).node.neighbors ∧
          (n.handleDatagram sender bytes now).node.counters.neighborsExpired =
            (n.handle k.event now).node.counters.neighborsExpired) := by
  constructor
  · rintro m rfl
    exact handleDatagram_of_ok (Message.decode_encode m)
  · intro h
    obtain ⟨e, he⟩ := Message.decode_eq_error_iff.2 h
    rw [handleDatagram_of_error he]
    refine ⟨rfl, rfl, ⟨e, he, rfl⟩, fun k hk => ?_⟩
    rw [(neighbors_handle_timer hk).1, (neighbors_handle_timer hk).2]
    exact ⟨rfl, rfl⟩

/-- A node that has heard a peer hears it again in writing, and not from a datagram that is cut
    short, not even where that comes from its own address. -/
theorem event_or_inert_acquainted :
    acquainted.handleDatagram (Network.addressOf 1) Message.announce.encode 20 =
        acquainted.handle (.inbound (Network.addressOf 1) .announce) 20 ∧
      (∀ m : Message, [0, 0, 0] ≠ m.encode) ∧
      (acquainted.handleDatagram (Network.addressOf 0) [0, 0, 0] (Time.ofSecs 60)).sends = [] ∧
      (acquainted.handleDatagram (Network.addressOf 0) [0, 0, 0] (Time.ofSecs 60)).node =
        { acquainted with
          neighbors := { acquainted.neighbors with entries := [] }
          counters := { acquainted.counters with
            malformedDropped := 1
            neighborsExpired := 1 } } := by
  have hcut : ∀ m : Message, [0, 0, 0] ≠ m.encode :=
    Message.decode_eq_error_iff.1 ⟨.unexpectedEnd 1, by decide⟩
  obtain ⟨hevent, _⟩ :=
    event_or_inert acquainted (Network.addressOf 1) Message.announce.encode 20
  obtain ⟨_, hinert⟩ := event_or_inert acquainted (Network.addressOf 0) [0, 0, 0] (Time.ofSecs 60)
  obtain ⟨hsends, hnode, _⟩ := hinert hcut
  refine ⟨hevent .announce rfl, hcut, hsends, ?_⟩
  rw [hnode]
  decide

end Node

end TokenMesh
