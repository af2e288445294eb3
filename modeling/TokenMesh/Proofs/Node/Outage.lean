import TokenMesh.Proofs.Node.ColdStart

namespace TokenMesh

/-!
# Outages

A node without power sends nothing and refuses whatever it is asked to do, until its restart timer
fires.  Time goes on for it all the same: the neighbors whose time comes are forgotten.

* `Operation.isRestart`: whether an operation is the one that ends an outage;
* `Operation.isMissed`, `Operation.isMalformed`, `Operation.sweepTime?`: what a node without power
  counts of an operation, and when it forgets neighbors;
* `Node.idle`: all that becomes of a node in an outage;
* `Node.perform_of_down`, `Node.performAll_of_down`: nothing else becomes of it;
* `Node.outage_isolation`: an outage from the power failure on.
-/

namespace NeighborTable

/-- The table without the entries whose time has come at one of some instants. -/
def expireAll (t : NeighborTable) (times : List Nat) : NeighborTable :=
  { t with entries := t.entries.filter fun e => times.all (· < e.expiry) }

/-- How many entries there are whose time has come at one of some instants. -/
def countDue (t : NeighborTable) (times : List Nat) : Nat :=
  t.entries.countP fun e => times.any (e.expiry ≤ ·)

@[simp] theorem expireAll_nil (t : NeighborTable) : t.expireAll [] = t := by
  have hall : t.entries.filter (fun _ => true) = t.entries :=
    List.filter_eq_self.2 fun _ _ => rfl
  simp only [expireAll, List.all_nil, hall]

@[simp] theorem countDue_nil (t : NeighborTable) : t.countDue [] = 0 := by
  simp [countDue]

/-- Entries expire one instant after the other. -/
theorem expireAll_cons (t : NeighborTable) (now : Nat) (times : List Nat) :
    t.expireAll (now :: times) = (t.expire now).expireAll times := by
  simp [expireAll, expire, List.filter_filter, Bool.and_comm]

/-- An entry that has expired cannot expire again. -/
theorem countDue_cons (t : NeighborTable) (now : Nat) (times : List Nat) :
    t.countDue (now :: times) = (t.due now).length + (t.expire now).countDue times := by
  unfold countDue due expire
  dsimp only
  induction t.entries with
  | nil => rfl
  | cons e es ih =>
    by_cases h : e.expiry ≤ now
    · have hgone : ¬ now < e.expiry := Nat.not_lt.2 h
      rw [List.countP_cons_of_pos (by simp [h]), List.filter_cons_of_pos (by simpa using h),
        List.filter_cons_of_neg (by simpa using hgone), List.length_cons, ih]
      omega
    · have hstays : now < e.expiry := Nat.lt_of_not_le h
      have hany : (now :: times).any (e.expiry ≤ ·) = times.any (e.expiry ≤ ·) := by simp [h]
      rw [List.filter_cons_of_neg (by simpa using h),
        List.filter_cons_of_pos (by simpa using hstays), List.countP_cons, List.countP_cons, ih,
        hany]
      omega

end NeighborTable

namespace Operation

/-- Whether an operation is the restart timer, which alone ends an outage. -/
def isRestart : Operation → Bool
  | event .restartTimer _ => true
  | _ => false

/-- Whether an operation brings a message, which a node without power misses. -/
def isMissed : Operation → Bool
  | event (.inbound ..) _ => true
  | datagram _ bytes _ =>
    match Message.decode bytes with
    | .ok _ => true
    | .error _ => false
  | _ => false

/-- Whether an operation brings a datagram that holds no message. -/
def isMalformed : Operation → Bool
  | datagram _ bytes _ =>
    match Message.decode bytes with
    | .ok _ => false
    | .error _ => true
  | _ => false

/-- The instant at which an operation makes a node forget the neighbors whose time has come. -/
def sweepTime? : Operation → Option Nat
  | event _ now => some now
  | datagram _ _ now => some now
  | originate _ now => some now
  | setRole _ => none
  | powerDown .. => none

/-- The role of a node after an operation. -/
def roleAfter (role : Role) : Operation → Role
  | setRole role => role
  | _ => role

/-- What a node without power answers. -/
def answerWithoutPower : Operation → Answer
  | originate .. => .refused .poweredDown
  | powerDown .. => .refused .restartPending
  | _ => .done

end Operation

namespace Node

/-- All that becomes of a node without power: it has the role that was set last, has forgotten the
    neighbors whose time has come, and has counted those and what it could not hear. -/
def idle (n : Node) (ops : List Operation) : Node :=
  { n with
    role := ops.foldl Operation.roleAfter n.role
    neighbors := n.neighbors.expireAll (ops.filterMap Operation.sweepTime?)
    counters := { n.counters with
      droppedWhileDown := n.counters.droppedWhileDown + ops.countP Operation.isMissed
      malformedDropped := n.counters.malformedDropped + ops.countP Operation.isMalformed
      neighborsExpired := n.counters.neighborsExpired +
        n.neighbors.countDue (ops.filterMap Operation.sweepTime?) } }

/-- Before anything is done, nothing has become of a node. -/
@[simp] theorem idle_nil (n : Node) : n.idle [] = n := by
  simp [idle]

/-- What one operation does to a node without power. -/
theorem idle_singleton (n : Node) (op : Operation) :
    n.idle [op] = { n with
      role := op.roleAfter n.role
      neighbors := (op.sweepTime?.map n.neighbors.expire).getD n.neighbors
      counters := { n.counters with
        droppedWhileDown := n.counters.droppedWhileDown + if op.isMissed then 1 else 0
        malformedDropped := n.counters.malformedDropped + if op.isMalformed then 1 else 0
        neighborsExpired := n.counters.neighborsExpired +
          (op.sweepTime?.map fun now => (n.neighbors.due now).length).getD 0 } } := by
  cases ht : op.sweepTime? with
  | none => simp [idle, ht, List.countP_cons]
  | some now =>
    simp [idle, ht, NeighborTable.expireAll_cons, NeighborTable.countDue_cons, List.countP_cons]

/-- What becomes of a node in an outage becomes of it one operation after the other. -/
theorem idle_cons (n : Node) (op : Operation) (ops : List Operation) :
    n.idle (op :: ops) = (n.idle [op]).idle ops := by
  rw [idle_singleton]
  cases ht : op.sweepTime? with
  | none =>
    simp only [idle, ht, List.foldl_cons, List.filterMap_cons, List.countP_cons, Option.map_none,
      Option.getD_none, Nat.zero_add, Nat.add_assoc, Nat.add_comm (List.countP _ _)]
  | some now =>
    simp only [idle, ht, List.foldl_cons, List.filterMap_cons, List.countP_cons, Option.map_some,
      Option.getD_some, NeighborTable.expireAll_cons, NeighborTable.countDue_cons, Nat.add_assoc,
      Nat.add_comm (List.countP _ _)]

/-! ### One operation -/

section perform

variable {n : Node} (hd : n.isDown = true)

include hd

/-- Timers do nothing, and messages are only counted. -/
theorem handle_of_down {e : Event} (now : Nat) (he : (Operation.event e now).isRestart = false) :
    (n.handle e now).node = n.idle [.event e now] ∧ (n.handle e now).sends = [] := by
  rw [idle_singleton]
  cases e with
  | announceTimer =>
    show (n.onAnnounceTimer.swept now).node = _ ∧ n.onAnnounceTimer.sends = []
    unfold onAnnounceTimer
    rw [if_pos hd]
    exact ⟨rfl, rfl⟩
  | beaconTimer =>
    show (n.onBeaconTimer.swept now).node = _ ∧ n.onBeaconTimer.sends = []
    unfold onBeaconTimer
    rw [if_pos hd]
    exact ⟨rfl, rfl⟩
  | restartTimer => cases he
  | inbound sender m =>
    show ((n.onInbound sender m now).swept now).node = _ ∧ (n.onInbound sender m now).sends = []
    unfold onInbound
    rw [if_pos hd]
    exact ⟨rfl, rfl⟩

/-- A datagram is counted as one that was missed, or as one that holds no message. -/
theorem handleDatagram_of_down (sender : Address) (bytes : List UInt8) (now : Nat) :
    (n.handleDatagram sender bytes now).node = n.idle [.datagram sender bytes now] ∧
      (n.handleDatagram sender bytes now).sends = [] := by
  have hmissed : (Operation.datagram sender bytes now).isMissed =
    match Message.decode bytes with
    | .ok _ => true
    | .error _ => false := rfl
  have hmalformed : (Operation.datagram sender bytes now).isMalformed =
    match Message.decode bytes with
    | .ok _ => false
    | .error _ => true := rfl
  rw [idle_singleton, hmissed, hmalformed]
  unfold handleDatagram
  cases Message.decode bytes with
  | ok m =>
    obtain ⟨hnode, hsends⟩ := handle_of_down hd (e := .inbound sender m) now rfl
    rw [idle_singleton] at hnode
    exact ⟨hnode, hsends⟩
  | error e => exact ⟨rfl, rfl⟩

/-- What a node without power does, it does in silence, and it refuses what it is asked to do. -/
theorem perform_of_down {op : Operation} (hop : op.isRestart = false) :
    (n.perform op).1.node = n.idle [op] ∧ (n.perform op).1.sends = [] ∧
      (n.perform op).2 = op.answerWithoutPower := by
  cases op with
  | event e now =>
    obtain ⟨hnode, hsends⟩ := handle_of_down hd now hop
    exact ⟨hnode, hsends, by cases e <;> rfl⟩
  | datagram sender bytes now =>
    obtain ⟨hnode, hsends⟩ := handleDatagram_of_down hd sender bytes now
    exact ⟨hnode, hsends, rfl⟩
  | originate value now =>
    have ho : n.originate value now =
        ({ node := n.sweep now, notices := n.sweepNotices now }, .error .poweredDown) := if_pos hd
    have hperform : n.perform (.originate value now) =
        ({ node := n.sweep now, notices := n.sweepNotices now }, .refused .poweredDown) := by
      simp only [perform, ho]
    rw [hperform, idle_singleton]
    exact ⟨rfl, rfl, rfl⟩
  | setRole role =>
    rw [idle_singleton]
    simp only [perform, setRole]
    split
    · next h =>
      refine ⟨?_, rfl, rfl⟩
      subst h
      rfl
    · exact ⟨rfl, rfl, rfl⟩
  | powerDown delay now =>
    have hp : n.powerDown delay now = .error .restartPending := if_pos hd
    have hperform : n.perform (.powerDown delay now) =
        ({ node := n }, .refused .restartPending) := by
      simp only [perform, hp]
    rw [hperform, idle_singleton]
    exact ⟨rfl, rfl, rfl⟩

end perform

/-! ### A whole outage -/

/-- In an outage nothing becomes of a node but what `Node.idle` says, whatever is done with it. -/
theorem performAll_of_down {n : Node} (hd : n.isDown = true) {ops : List Operation}
    (hops : ∀ op ∈ ops, op.isRestart = false) : n.performAll ops = n.idle ops := by
  induction ops generalizing n with
  | nil => exact n.idle_nil.symm
  | cons op ops ih =>
    have hop := (perform_of_down hd (hops op List.mem_cons_self)).1
    show (n.perform op).1.node.performAll ops = _
    rw [hop, idle_cons n op ops]
    -- the node is still without power
    exact ih hd fun op' h => hops op' (List.mem_cons_of_mem _ h)

/-- In an outage nothing is sent, and every request is refused. -/
theorem trace_of_down {n : Node} (hd : n.isDown = true) {ops : List Operation}
    (hops : ∀ op ∈ ops, op.isRestart = false) :
    (n.trace ops).map (fun x => (x.1, x.2.2)) = ops.map fun op => ([], op.answerWithoutPower) := by
  induction ops generalizing n with
  | nil => rfl
  | cons op ops ih =>
    obtain ⟨hnode, hsends, hanswer⟩ := perform_of_down hd (hops op List.mem_cons_self)
    have hrest := ih (n := n.idle [op]) hd fun op' h => hops op' (List.mem_cons_of_mem _ h)
    simp only [trace, List.map_cons, hnode, hsends, hanswer, hrest]

/-- A power failure is refused only where a restart is pending, and always there. -/
theorem powerDown_eq_error_iff {n : Node} {delay now : Nat} {e : Refusal} :
    n.powerDown delay now = .error e ↔ n.isDown = true ∧ e = .restartPending := by
  unfold powerDown
  by_cases hd : n.isDown = true
  · simp [hd, eq_comm]
  · simp [hd]

/-- **Isolation in an outage.**  Whatever is done with a node between a power failure and its
    restart timer, in any order and at any times: nothing is sent, and each request to originate a
    token and each further power failure is refused.  The node has no power and keeps its token,
    its random choices and the deadline of its restart.  It can only be given another role, forget
    the neighbors whose time has come, and count those, the messages that it misses and the
    datagrams that hold none.  A power failure itself is refused exactly where there is no power to
    lose, which leaves everything as it is. -/
theorem outage_isolation {up : Node} {delay start : Nat} {r : Reaction}
    (h : up.powerDown delay start = .ok r) {ops : List Operation}
    (hops : ∀ op ∈ ops, op.isRestart = false) :
    (r.node.trace ops).map (fun x => (x.1, x.2.2)) =
        ops.map (fun op => ([], op.answerWithoutPower)) ∧
      r.node.performAll ops = { up with power := .down (start + delay) }.idle ops ∧
      (r.node.performAll ops).isDown = true ∧
      (r.node.performAll ops).restartDeadline? = some (start + delay) ∧
      (r.node.performAll ops).token = up.token ∧
      (r.node.performAll ops).generator = up.generator ∧
      (r.node.performAll ops).neighbors =
        up.neighbors.expireAll (ops.filterMap Operation.sweepTime?) ∧
      ∀ (n : Node) (delay now : Nat),
        ((∃ e, n.powerDown delay now = .error e) ↔ n.isDown = true) ∧
          ∀ e, n.powerDown delay now = .error e →
            n.perform (.powerDown delay now) = ({ node := n }, .refused e) := by
  obtain ⟨_, hnode, _, _⟩ := powerDown_eq_ok h
  have hd : r.node.isDown = true := by
    rw [hnode]
    rfl
  have hall := performAll_of_down hd hops
  rw [hnode] at hall
  refine ⟨trace_of_down hd hops, by rw [hnode, hall], ?_⟩
  rw [hnode, hall]
  refine ⟨rfl, rfl, rfl, rfl, rfl, fun n delay now => ⟨?_, ?_⟩⟩
  · simp only [powerDown_eq_error_iff, exists_and_left, exists_eq, and_true]
  · intro e he
    simp only [perform, he]

/-- A source that has heard a peer and taken over its token. -/
def acquainted : Node :=
  (fresh (Network.addressOf 0) { role := .source, seed := some 7 }).performAll
    [.event (.inbound (Network.addressOf 1) .announce) 5,
      .event (.inbound (Network.addressOf 1) (.recover 9 4)) 6]

/-- A timer, a message, a datagram that holds none, requests of all kinds, and another message when
    the time of the peer has come. -/
def misfortunes : List Operation :=
  [.event .announceTimer 20, .event (.inbound (Network.addressOf 1) (.recover 8 5)) 30,
    .datagram (Network.addressOf 1) [] 40, .originate (some 3) 50, .setRole .relay,
    .powerDown 5 60, .datagram (Network.addressOf 1) Message.announce.encode (Time.ofSecs 60)]

/-- The node keeps its token, has missed two messages and one datagram that holds none, and has
    forgotten its peer. -/
theorem outage_isolation_acquainted : ∃ r, acquainted.powerDown 100 10 = .ok r ∧
    (∀ op ∈ misfortunes, op.isRestart = false) ∧
    (∀ x ∈ r.node.trace misfortunes, x.1 = []) ∧
    (r.node.performAll misfortunes).restartDeadline? = some 110 ∧
    (r.node.performAll misfortunes).token = ⟨9, 4⟩ ∧
    (r.node.performAll misfortunes).neighbors.addresses = [] ∧
    (r.node.performAll misfortunes).counters =
      { acquainted.counters with
        droppedWhileDown := 2
        malformedDropped := 1
        neighborsExpired := 1 } := by
  obtain ⟨r, hr⟩ : ∃ r, acquainted.powerDown 100 10 = .ok r :=
    ⟨_, if_neg (by decide)⟩
  have hops : ∀ op ∈ misfortunes, op.isRestart = false := by decide
  obtain ⟨htrace, hall, _, hdeadline, htoken, _, hneighbors, _⟩ := outage_isolation hr hops
  refine ⟨r, hr, hops, ?_, hdeadline, htoken.trans (by decide), ?_, ?_⟩
  · intro x hx
    have hmem := List.mem_map_of_mem (f := fun x => (x.1, x.2.2)) hx
    rw [htrace] at hmem
    obtain ⟨op, _, heq⟩ := List.mem_map.1 hmem
    exact (Prod.mk.inj heq).1.symm
  · rw [hneighbors]
    decide
  · rw [hall]
    decide

end Node

end TokenMesh
