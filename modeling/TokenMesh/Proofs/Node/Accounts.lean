import TokenMesh.Proofs.Node.Expiry
import TokenMesh.Proofs.Node.Requests

namespace TokenMesh

/-!
# The accounts of a node

All that a node counts has to do with something that has happened to it.  So its counters agree with
its past and with each other: what it has sent, what has become of walks that it took part in, and
what has become of the neighbors that it has entered.

* `Counters.noteAll`: counters after some of them have gone up, one after the other;
* `Node.noted`: which counters go up with an operation;
* `Node.Accounts`: the accounts between two states of a node, which add up by `Accounts.trans`;
* `Node.accounts_perform`: those counters go up, and what they have to do with the operation;
* `Node.Lived`: what a node can become, and its past;
* `Node.accounts_balance`: the accounts of a node from its start on.
-/

/-- The counters of a node, by name. -/
inductive Counter
  | announcesSent
  | beaconsSent
  | dataOriginated
  | dataForwarded
  | dataReceived
  | dataAbsorbed
  | forwardsWithoutNeighbor
  | controlsSent
  | recoversSent
  | recoversAccepted
  | recoversRejected
  | neighborsAdded
  | neighborsDroppedFull
  | neighborsExpired
  | malformedDropped
  | droppedWhileDown
  | restarts
deriving DecidableEq, Repr

namespace Counters

/-- How often a counter has gone up. -/
def get (c : Counters) : Counter → Nat
  | .announcesSent => c.announcesSent
  | .beaconsSent => c.beaconsSent
  | .dataOriginated => c.dataOriginated
  | .dataForwarded => c.dataForwarded
  | .dataReceived => c.dataReceived
  | .dataAbsorbed => c.dataAbsorbed
  | .forwardsWithoutNeighbor => c.forwardsWithoutNeighbor
  | .controlsSent => c.controlsSent
  | .recoversSent => c.recoversSent
  | .recoversAccepted => c.recoversAccepted
  | .recoversRejected => c.recoversRejected
  | .neighborsAdded => c.neighborsAdded
  | .neighborsDroppedFull => c.neighborsDroppedFull
  | .neighborsExpired => c.neighborsExpired
  | .malformedDropped => c.malformedDropped
  | .droppedWhileDown => c.droppedWhileDown
  | .restarts => c.restarts

/-- The counters after one of them has gone up. -/
def note (c : Counters) : Counter → Counters
  | .announcesSent => { c with announcesSent := c.announcesSent + 1 }
  | .beaconsSent => { c with beaconsSent := c.beaconsSent + 1 }
  | .dataOriginated => { c with dataOriginated := c.dataOriginated + 1 }
  | .dataForwarded => { c with dataForwarded := c.dataForwarded + 1 }
  | .dataReceived => { c with dataReceived := c.dataReceived + 1 }
  | .dataAbsorbed => { c with dataAbsorbed := c.dataAbsorbed + 1 }
  | .forwardsWithoutNeighbor => { c with forwardsWithoutNeighbor := c.forwardsWithoutNeighbor + 1 }
  | .controlsSent => { c with controlsSent := c.controlsSent + 1 }
  | .recoversSent => { c with recoversSent := c.recoversSent + 1 }
  | .recoversAccepted => { c with recoversAccepted := c.recoversAccepted + 1 }
  | .recoversRejected => { c with recoversRejected := c.recoversRejected + 1 }
  | .neighborsAdded => { c with neighborsAdded := c.neighborsAdded + 1 }
  | .neighborsDroppedFull => { c with neighborsDroppedFull := c.neighborsDroppedFull + 1 }
  | .neighborsExpired => { c with neighborsExpired := c.neighborsExpired + 1 }
  | .malformedDropped => { c with malformedDropped := c.malformedDropped + 1 }
  | .droppedWhileDown => { c with droppedWhileDown := c.droppedWhileDown + 1 }
  | .restarts => { c with restarts := c.restarts + 1 }

/-- The counters after some of them have gone up, one after the other. -/
def noteAll (c : Counters) (ks : List Counter) : Counters := ks.foldl note c

theorem get_note (c : Counters) (k k' : Counter) :
    (c.note k).get k' = c.get k' + if k = k' then 1 else 0 := by
  cases k <;> cases k' <;> rfl

theorem noteAll_append (c : Counters) (ks ks' : List Counter) :
    c.noteAll (ks ++ ks') = (c.noteAll ks).noteAll ks' :=
  List.foldl_append

/-- A counter goes up as often as it is noted. -/
theorem get_noteAll (c : Counters) (ks : List Counter) (k : Counter) :
    (c.noteAll ks).get k = c.get k + ks.count k := by
  induction ks generalizing c with
  | nil => rfl
  | cons k' ks ih =>
    show ((c.note k').noteAll ks).get k = _
    rw [ih, get_note, List.count_cons]
    simp only [beq_iff_eq]
    omega

/-- Neighbors whose time has come are noted one by one. -/
theorem noteAll_expired (c : Counters) (dropped : Nat) :
    c.noteAll (List.replicate dropped .neighborsExpired) =
      { c with neighborsExpired := c.neighborsExpired + dropped } := by
  induction dropped generalizing c with
  | zero => rfl
  | succ dropped ih =>
    rw [List.replicate_succ]
    show (c.note .neighborsExpired).noteAll _ = _
    rw [ih]
    simp only [note, mk.injEq, true_and, and_true]
    omega

end Counters

namespace NeighborTable

/-- A table grows by the peers that are entered. -/
theorem size_announce (t : NeighborTable) (sender : Address) (now : Nat) :
    (t.announce sender now).size = t.size + if t.outcome sender = .inserted then 1 else 0 := by
  unfold announce size
  dsimp only
  cases t.outcome sender <;> simp

/-- A sweep splits a table. -/
theorem size_expire_add (t : NeighborTable) (now : Nat) :
    (t.expire now).size + (t.due now).length = t.size := by
  show (t.entries.filter fun e => now < e.expiry).length +
    (t.entries.filter fun e => e.expiry ≤ now).length = t.entries.length
  rw [← List.countP_eq_length_filter, ← List.countP_eq_length_filter,
    List.length_eq_countP_add_countP fun e : Neighbor => decide (now < e.expiry)]
  simp only [decide_eq_true_eq, Nat.not_lt]

end NeighborTable

/-- Who brings which message by an operation. -/
def Operation.arrival? : Operation → Option (Address × Message)
  | event (.inbound sender m) _ => some (sender, m)
  | datagram sender bytes _ =>
    match Message.decode bytes with
    | .ok m => some (sender, m)
    | .error _ => none
  | _ => none

namespace Node

/-! ### What goes up -/

/-- The counters that go up with a message that a node listens to. -/
def notedOf (n : Node) (sender : Address) : Message → List Counter
  | .announce =>
    match n.neighbors.outcome sender with
    | .inserted => [.neighborsAdded]
    | .refreshed => []
    | .dropped => [.neighborsDroppedFull]
  | .data _ _ hops =>
    if n.role = .sink ∨ n.overLimit (nextHops hops) = true then [.dataReceived, .dataAbsorbed]
    else if n.neighbors.isEmpty then [.dataReceived, .forwardsWithoutNeighbor]
    else [.dataReceived, .dataForwarded]
  | .beacon version =>
    if version < n.token.version then [.recoversSent]
    else if n.token.version < version then [.controlsSent]
    else []
  | .control _ => [.recoversSent]
  | .recover _ version =>
    if n.token.version < version then [.recoversAccepted] else [.recoversRejected]

/-- The counters that go up with an event, before the sweep that ends it. -/
def notedUpon (n : Node) : Event → List Counter
  | .announceTimer => if n.isDown then [] else [.announcesSent]
  | .beaconTimer => if n.isDown then [] else [.beaconsSent]
  | .restartTimer => if n.isDown then [.restarts] else []
  | .inbound sender m =>
    if n.isDown then [.droppedWhileDown]
    else if sender = n.address then []
    else n.notedOf sender m

/-- The counters that go up with a sweep. -/
def dues (n : Node) (now : Nat) : List Counter :=
  List.replicate (n.neighbors.due now).length .neighborsExpired

/-- The counters that go up with a whole event. -/
def notedThrough (n : Node) (e : Event) (now : Nat) : List Counter :=
  n.notedUpon e ++ (n.react e now).node.dues now

/-- The counters that go up with an operation. -/
def noted (n : Node) : Operation → List Counter
  | .event e now => n.notedThrough e now
  | .datagram sender bytes now =>
    match Message.decode bytes with
    | .ok m => n.notedThrough (.inbound sender m) now
    | .error _ => .malformedDropped :: n.dues now
  | .originate value now =>
    n.dues now ++
      match (n.originate value now).2 with
      | .error _ => []
      | .ok _ =>
        if (n.neighbors.expire now).isEmpty then [.forwardsWithoutNeighbor] else [.dataOriginated]
  | .setRole _ => []
  | .powerDown .. => []

section counters

variable (n : Node)

theorem counters_forward (hops : Int32) (notices : List Notice) :
    (n.forward hops notices).node.counters = n.counters.note
      (if n.neighbors.isEmpty then .forwardsWithoutNeighbor else .dataForwarded) := by
  unfold forward NeighborTable.isEmpty
  rcases n.choosePeer_cases with ⟨hnone, hpeer⟩ | ⟨e, he, g, hpeer⟩
  · rw [hpeer, hnone]
    rfl
  · rw [hpeer, List.isEmpty_eq_false_iff.2 (List.ne_nil_of_mem he)]
    rfl

theorem counters_launch (token : Token) (told : List Notice) :
    (n.launch token told).node.counters = n.counters.note
      (if n.neighbors.isEmpty then .forwardsWithoutNeighbor else .dataOriginated) := by
  unfold NeighborTable.isEmpty
  by_cases h : n.neighbors.entries = []
  · rw [(launch_of_alone h token told).2, h]
    rfl
  · obtain ⟨_, _, _, _, hnode⟩ := launch_of_known h token told
    rw [hnode, List.isEmpty_eq_false_iff.2 h]
    rfl

theorem counters_onMessage (sender : Address) (m : Message) (now : Nat) :
    (n.onMessage sender m now).node.counters = n.counters.noteAll (n.notedOf sender m) := by
  cases m with
  | announce =>
    unfold onMessage onAnnounce notedOf
    dsimp only
    cases n.neighbors.outcome sender <;> rfl
  | data value version hops =>
    show (n.onData sender ⟨value, version⟩ hops).node.counters = _
    unfold notedOf
    dsimp only
    obtain ⟨hend, _, hdata⟩ | ⟨hrole, hlimit, hdata⟩ :=
      n.onData_cases sender ⟨value, version⟩ hops
    · rw [hdata, if_pos hend]
      rfl
    · have hgoes : ¬ (n.role = .sink ∨ n.overLimit (nextHops hops) = true) :=
        not_or.2 ⟨hrole, Bool.eq_false_iff.1 hlimit⟩
      have hsame : (n.takeData ⟨value, version⟩).neighbors = n.neighbors := rfl
      rw [hdata, if_neg hgoes, counters_forward, hsame]
      cases n.neighbors.isEmpty <;> rfl
  | beacon version =>
    unfold onMessage onBeacon notedOf
    dsimp only
    split
    · rfl
    · split <;> rfl
  | control version => rfl
  | recover value version =>
    unfold onMessage onRecover notedOf Token.judge
    dsimp only
    by_cases hnewer : n.token.version < version
    · rw [if_pos hnewer, if_pos hnewer]
      rfl
    · rw [if_neg hnewer, if_neg hnewer]
      rfl

theorem counters_react (e : Event) (now : Nat) :
    (n.react e now).node.counters = n.counters.noteAll (n.notedUpon e) := by
  cases e with
  | announceTimer =>
    unfold react onAnnounceTimer notedUpon
    cases n.isDown <;> rfl
  | beaconTimer =>
    unfold react onBeaconTimer notedUpon
    cases n.isDown <;> rfl
  | restartTimer =>
    unfold react onRestartTimer notedUpon
    cases n.isDown <;> rfl
  | inbound sender m =>
    unfold react onInbound notedUpon
    dsimp only
    -- without power, from itself, or from a peer
    split
    · rfl
    · split
      · rfl
      · exact n.counters_onMessage sender m now

theorem counters_sweep (now : Nat) : (n.sweep now).counters = n.counters.noteAll (n.dues now) :=
  (n.counters.noteAll_expired _).symm

end counters

/-! ### What it has to do with what has happened -/

/-- Whether an operation originates a token, which begins a walk. -/
def begins (n : Node) (op : Operation) : Bool :=
  match (n.perform op).2 with
  | .token _ => true
  | _ => false

/-- Whether a node hears an answer by an operation: it has power, and the answer is from somebody
    else. -/
def hearsAnswer (n : Node) (op : Operation) : Bool :=
  !n.isDown && op.arrival?.any fun (sender, m) => sender != n.address && m.kind == .recover

/-- Whether an operation makes a node start from nothing. -/
def isColdStarted (n : Node) (op : Operation) : Bool := n.isDown && op.isRestart

/-- How many neighbors an operation makes a node lose at once, whatever their time. -/
def discards (n : Node) (op : Operation) : Nat :=
  if n.isColdStarted op then n.neighbors.size else 0

/-- The accounts between two states of a node.  Meanwhile some counters have gone up, so many walks
    have begun, so many answers have been heard, the node has been restarted so often, and so many
    neighbors have been discarded. -/
structure Accounts (n : Node) (ks : List Counter) (begun heard restarted discarded : Nat)
    (n' : Node) : Prop where
  counters : n'.counters = n.counters.noteAll ks
  /-- A walk that arrives or begins is handed on, or ends. -/
  walks : ks.count .dataReceived + begun =
    ks.count .dataOriginated + ks.count .dataForwarded + ks.count .dataAbsorbed +
      ks.count .forwardsWithoutNeighbor
  /-- An answer is taken over or not. -/
  answers : ks.count .recoversAccepted + ks.count .recoversRejected = heard
  restarts : ks.count .restarts = restarted
  /-- Neighbors stay, their time comes, or they are discarded. -/
  table : n.neighbors.size + ks.count .neighborsAdded =
    n'.neighbors.size + ks.count .neighborsExpired + discarded

namespace Accounts

variable {n n' n'' : Node} {ks ks' : List Counter} {b b' h h' r r' d d' : Nat}

theorem trans (hn : n.Accounts ks b h r d n') (hn' : n'.Accounts ks' b' h' r' d' n'') :
    n.Accounts (ks ++ ks') (b + b') (h + h') (r + r') (d + d') n'' := by
  have hw := hn.walks
  have hw' := hn'.walks
  have ha := hn.answers
  have ha' := hn'.answers
  have hr := hn.restarts
  have hr' := hn'.restarts
  have ht := hn.table
  have ht' := hn'.table
  refine ⟨?_, ?_, ?_, ?_, ?_⟩
  · rw [hn'.counters, hn.counters, Counters.noteAll_append]
  all_goals
    simp only [List.count_append]
    omega

/-- A node that keeps its counters and its table. -/
theorem of_same (hc : n'.counters = n.counters) (ht : n'.neighbors = n.neighbors) :
    n.Accounts [] 0 0 0 0 n' :=
  ⟨hc, rfl, rfl, rfl, by rw [ht]; rfl⟩

end Accounts

section accounts

variable (n : Node)

theorem accounts_sweep (now : Nat) : n.Accounts (n.dues now) 0 0 0 0 (n.sweep now) := by
  have hcount : ∀ k, (n.dues now).count k =
      if Counter.neighborsExpired = k then (n.neighbors.due now).length else 0 := by
    intro k
    unfold dues
    rw [List.count_replicate]
    simp only [beq_iff_eq]
  have hsize := n.neighbors.size_expire_add now
  refine ⟨n.counters_sweep now, ?_, ?_, ?_, ?_⟩
  all_goals simp only [hcount, reduceCtorEq, if_false, if_true]
  exact hsize.symm

theorem accounts_onMessage (sender : Address) (m : Message) (now : Nat) :
    n.Accounts (n.notedOf sender m) 0 (if m.kind = .recover then 1 else 0) 0 0
      (n.onMessage sender m now).node := by
  have hcounters := n.counters_onMessage sender m now
  generalize hks : n.notedOf sender m = ks at hcounters ⊢
  by_cases hm : m = .announce
  · subst hm
    have hsize : (n.onMessage sender .announce now).node.neighbors.size =
        n.neighbors.size + if n.neighbors.outcome sender = .inserted then 1 else 0 := by
      show (n.onAnnounce sender now).node.neighbors.size = _
      rw [neighbors_onAnnounce, NeighborTable.size_announce]
    unfold notedOf at hks
    dsimp only at hks
    -- entered, renewed, or turned away
    split at hks
    all_goals
      next ho =>
      rw [ho] at hsize
      subst hks
      exact ⟨hcounters, rfl, rfl, rfl, hsize.symm⟩
  · have hsize : n.neighbors.size = (n.onMessage sender m now).node.neighbors.size := by
      rw [(n.leavesTable_onMessage hm sender now).neighbors]
    unfold notedOf at hks
    cases m with
    | announce => exact absurd rfl hm
    | control version =>
      subst hks
      exact ⟨hcounters, rfl, rfl, rfl, hsize⟩
    | _ =>
      dsimp only at hks
      -- whichever case it is, the counters are known
      repeat' split at hks
      all_goals
        subst hks
        exact ⟨hcounters, rfl, rfl, rfl, hsize⟩

theorem accounts_onInbound (sender : Address) (m : Message) (now : Nat) :
    n.Accounts (n.notedUpon (.inbound sender m)) 0
      (if n.hearsAnswer (.event (.inbound sender m) now) then 1 else 0) 0 0
      (n.onInbound sender m now).node := by
  have hheard : n.hearsAnswer (.event (.inbound sender m) now) =
      (!n.isDown && (sender != n.address && m.kind == .recover)) := rfl
  rw [hheard]
  unfold notedUpon onInbound
  dsimp only
  by_cases hd : n.isDown = true
  · rw [if_pos hd, if_pos hd, hd]
    exact ⟨rfl, rfl, rfl, rfl, rfl⟩
  rw [if_neg hd, if_neg hd, Bool.eq_false_iff.2 hd]
  by_cases hself : sender = n.address
  · rw [if_pos hself, if_pos hself, hself, bne_self_eq_false]
    exact .of_same rfl rfl
  · rw [if_neg hself, if_neg hself, bne_iff_ne.2 hself]
    simpa using n.accounts_onMessage sender m now

/-- What comes of an event before the sweep that ends it. -/
theorem accounts_react (e : Event) (now : Nat) :
    n.Accounts (n.notedUpon e) 0 (if n.hearsAnswer (.event e now) then 1 else 0)
      (if n.isColdStarted (.event e now) then 1 else 0) (n.discards (.event e now))
      (n.react e now).node := by
  have hcounters := n.counters_react e now
  cases e with
  | announceTimer =>
    have hsize : n.neighbors.size = n.onAnnounceTimer.node.neighbors.size := by
      rw [n.leavesTable_onAnnounceTimer.neighbors]
    unfold discards isColdStarted hearsAnswer notedUpon at *
    generalize n.isDown = down at *
    cases down <;> exact ⟨hcounters, rfl, rfl, rfl, hsize⟩
  | beaconTimer =>
    have hsize : n.neighbors.size = n.onBeaconTimer.node.neighbors.size := by
      rw [n.leavesTable_onBeaconTimer.neighbors]
    unfold discards isColdStarted hearsAnswer notedUpon at *
    generalize n.isDown = down at *
    cases down <;> exact ⟨hcounters, rfl, rfl, rfl, hsize⟩
  | restartTimer =>
    show n.Accounts _ 0 _ _ _ n.onRestartTimer.node
    unfold discards isColdStarted hearsAnswer notedUpon
    cases hd : n.isDown with
    | true =>
      -- the table is left empty
      rw [onRestartTimer_of_down hd]
      exact ⟨rfl, rfl, rfl, rfl, (Nat.zero_add _).symm⟩
    | false =>
      rw [onRestartTimer_of_up hd]
      exact .of_same rfl rfl
  | inbound sender m =>
    have hnever : n.isColdStarted (.event (.inbound sender m) now) = false := Bool.and_false _
    unfold discards
    rw [hnever]
    exact n.accounts_onInbound sender m now

theorem accounts_handle (e : Event) (now : Nat) :
    n.Accounts (n.notedThrough e now) 0 (if n.hearsAnswer (.event e now) then 1 else 0)
      (if n.isColdStarted (.event e now) then 1 else 0) (n.discards (.event e now))
      (n.handle e now).node :=
  (n.accounts_react e now).trans ((n.react e now).node.accounts_sweep now)

/-- An operation that brings no message and is not the restart timer. -/
theorem accounts_of_quiet {op : Operation} (ha : op.arrival? = none) (hr : op.isRestart = false)
    (h : n.Accounts (n.noted op) (if n.begins op then 1 else 0) 0 0 0 (n.perform op).1.node) :
    n.Accounts (n.noted op) (if n.begins op then 1 else 0) (if n.hearsAnswer op then 1 else 0)
      (if n.isColdStarted op then 1 else 0) (n.discards op) (n.perform op).1.node := by
  have hsilent : n.hearsAnswer op = false := by simp [hearsAnswer, ha]
  have hwarm : n.isColdStarted op = false := by simp [isColdStarted, hr]
  unfold discards
  rw [hsilent, hwarm]
  exact h

/-- What comes of an operation. -/
theorem accounts_perform (op : Operation) :
    n.Accounts (n.noted op) (if n.begins op then 1 else 0) (if n.hearsAnswer op then 1 else 0)
      (if n.isColdStarted op then 1 else 0) (n.discards op) (n.perform op).1.node := by
  cases op with
  | event e now => exact n.accounts_handle e now
  | datagram sender bytes now =>
    cases hdec : Message.decode bytes with
    | ok m =>
      -- the datagram is as good as its message
      have hnoted : n.noted (.datagram sender bytes now) =
          n.noted (.event (.inbound sender m) now) := by
        simp only [noted, hdec]
      have hheard : n.hearsAnswer (.datagram sender bytes now) =
          n.hearsAnswer (.event (.inbound sender m) now) := by
        simp only [hearsAnswer, Operation.arrival?, hdec]
      have hnode : (n.perform (.datagram sender bytes now)).1 =
          n.handle (.inbound sender m) now := by
        simp only [perform, handleDatagram, hdec]
      rw [hnoted, hheard, hnode]
      exact n.accounts_handle (.inbound sender m) now
    | error e =>
      apply n.accounts_of_quiet (by simp [Operation.arrival?, hdec]) rfl
      have hdropped : n.Accounts [.malformedDropped] 0 0 0 0
          (n.dropMalformed sender bytes.length e).node := ⟨rfl, rfl, rfl, rfl, rfl⟩
      simp only [noted, perform, handleDatagram, hdec]
      exact hdropped.trans (accounts_sweep _ now)
  | originate value now =>
    apply n.accounts_of_quiet rfl rfl
    obtain ⟨e, he⟩ | ⟨t, _, _, _, ht⟩ := n.originate_cases value now
    · simp only [noted, begins, perform, he]
      exact (n.accounts_sweep now).trans (.of_same rfl rfl)
    · let r := (n.sweep now).launch t (n.sweepNotices now ++ [n.report (.originating t)])
      have hcounters : r.node.counters = _ := counters_launch ..
      have htable : r.node.neighbors = _ := (leavesTable_launch ..).neighbors
      have hlaunched : (n.sweep now).Accounts
          (if (n.neighbors.expire now).isEmpty then [.forwardsWithoutNeighbor]
            else [.dataOriginated]) 1 0 0 0 r.node := by
        have hswept : (n.sweep now).neighbors = n.neighbors.expire now := rfl
        rw [hswept] at hcounters
        generalize (n.neighbors.expire now).isEmpty = alone at *
        cases alone <;> exact ⟨hcounters, rfl, rfl, rfl, by rw [htable]; rfl⟩
      simp only [noted, begins, perform, ht]
      exact (n.accounts_sweep now).trans hlaunched
  | setRole role =>
    apply n.accounts_of_quiet rfl rfl
    show n.Accounts [] 0 0 0 0 (n.setRole role).node
    unfold setRole
    split <;> exact .of_same rfl rfl
  | powerDown delay now =>
    apply n.accounts_of_quiet rfl rfl
    cases hp : n.powerDown delay now with
    | ok r =>
      simp only [noted, begins, perform, hp]
      rw [(powerDown_eq_ok hp).2.1]
      exact .of_same rfl rfl
    | error e =>
      simp only [noted, begins, perform, hp]
      exact .of_same rfl rfl

/-- The counters that are noted go up with an operation, and no others. -/
theorem counters_perform (op : Operation) :
    (n.perform op).1.node.counters = n.counters.noteAll (n.noted op) :=
  (n.accounts_perform op).counters

end accounts

/-! ### The past of a node -/

/-- What a node at an address can become with given settings, and its past: all that has been done
    with it, each operation with the node that it was done with, the latest first.  A sweep alone is
    no operation. -/
inductive Lived (a : Address) (s : ProtocolSettings) : List (Node × Operation) → Node → Prop
  | fresh {entropy : Generator} : Lived a s [] (.fresh a s entropy)
  | perform {past : List (Node × Operation)} {n : Node} (h : Lived a s past n) (op : Operation) :
      Lived a s ((n, op) :: past) (n.perform op).1.node
  | sweep {past : List (Node × Operation)} {n : Node} (h : Lived a s past n) (now : Nat) :
      Lived a s past (n.sweep now)

/-- What is added to the past of a node that goes through some operations. -/
def moments (n : Node) : List Operation → List (Node × Operation)
  | [] => []
  | op :: ops => (n.perform op).1.node.moments ops ++ [(n, op)]

/-- All that a node has sent, by its past. -/
def sent (past : List (Node × Operation)) : List Outbound :=
  past.flatMap fun (n, op) => (n.perform op).1.sends

section lived

variable {a : Address} {s : ProtocolSettings} {past : List (Node × Operation)} {n : Node}

theorem Lived.performAll (h : Lived a s past n) (ops : List Operation) :
    Lived a s (n.moments ops ++ past) (n.performAll ops) := by
  induction ops generalizing n past with
  | nil => exact h
  | cons op ops ih =>
    rw [moments, List.append_assoc]
    exact ih (h.perform op)

/-- The accounts of a node with its past. -/
theorem accounts_of_lived (h : Lived a s past n) :
    ∃ entropy ks, (fresh a s entropy).Accounts ks (past.countP fun (n, op) => n.begins op)
      (past.countP fun (n, op) => n.hearsAnswer op) (past.countP fun (n, op) => n.isColdStarted op)
      (past.map fun (n, op) => n.discards op).sum n := by
  induction h with
  | @fresh entropy => exact ⟨entropy, [], .of_same rfl rfl⟩
  | @perform past n _ op ih =>
    obtain ⟨entropy, ks, hks⟩ := ih
    refine ⟨entropy, ks ++ n.noted op, ?_⟩
    rw [List.countP_cons, List.countP_cons, List.countP_cons, List.map_cons, List.sum_cons,
      Nat.add_comm (n.discards op)]
    exact hks.trans (n.accounts_perform op)
  | sweep _ now ih =>
    obtain ⟨entropy, ks, hks⟩ := ih
    exact ⟨entropy, _, hks.trans (accounts_sweep _ now)⟩

/-- A node has counted what it has sent. -/
theorem sentOf_of_lived (h : Lived a s past n) (k : Message.Kind) :
    n.counters.sentOf k = (sent past).countP (·.message.kind = k) := by
  induction h with
  | fresh => cases k <;> rfl
  | @perform past n _ op ih =>
    rw [(n.lawful_perform op).sentOf k, ih, Nat.add_comm]
    exact List.countP_append.symm
  | sweep _ now ih =>
    rw [sentOf_sweep]
    exact ih

theorem messagesSent_of_lived (h : Lived a s past n) :
    n.counters.messagesSent = (sent past).length := by
  induction h with
  | fresh => rfl
  | @perform past n _ op ih =>
    rw [(n.lawful_perform op).messagesSent, ih, Nat.add_comm]
    exact List.length_append.symm
  | sweep _ now ih => exact ih

/-- **Accounts.**  Whatever has been done with a node, its counters agree with its past.  It has
    counted the messages that it has sent, those of each kind and all of them.  All data that it has
    received, and all tokens that it has originated, have been handed on or absorbed, or there was
    nobody to hand them to.  All answers of others that reached it with power were taken over or
    not.  All neighbors that it has entered are in its table, or their time had come, or a cold
    start discarded them; and it has counted the cold starts.  Whatever is done next, no counter
    goes down. -/
theorem accounts_balance (h : Lived a s past n) :
    let c := n.counters
    ((sent past).countP (·.message.kind = .announce) = c.announcesSent ∧
      (sent past).countP (·.message.kind = .beacon) = c.beaconsSent ∧
      (sent past).countP (·.message.kind = .data) = c.dataOriginated + c.dataForwarded ∧
      (sent past).countP (·.message.kind = .control) = c.controlsSent ∧
      (sent past).countP (·.message.kind = .recover) = c.recoversSent ∧
      c.messagesSent = (sent past).length) ∧
    c.dataReceived + past.countP (fun (n, op) => n.begins op) =
      c.dataOriginated + c.dataForwarded + c.dataAbsorbed + c.forwardsWithoutNeighbor ∧
    c.recoversAccepted + c.recoversRejected = past.countP (fun (n, op) => n.hearsAnswer op) ∧
    c.neighborsAdded = c.neighborsExpired + n.neighbors.size +
      (past.map fun (n, op) => n.discards op).sum ∧
    c.restarts = past.countP (fun (n, op) => n.isColdStarted op) ∧
    (∀ k op, c.get k ≤ (n.perform op).1.node.counters.get k) ∧
    ∀ k now, c.get k ≤ (n.sweep now).counters.get k := by
  intro c
  obtain ⟨entropy, ks, hks⟩ := accounts_of_lived h
  -- each counter tells how often it is among those that have gone up
  have hcount : ∀ k, c.get k = ks.count k := by
    intro k
    show n.counters.get k = _
    rw [hks.counters, Counters.get_noteAll]
    cases k <;> exact Nat.zero_add _
  have hsent := sentOf_of_lived h
  refine ⟨⟨(hsent .announce).symm, (hsent .beacon).symm, (hsent .data).symm, (hsent .control).symm,
    (hsent .recover).symm, messagesSent_of_lived h⟩, ?_, ?_, ?_, ?_, ?_, ?_⟩
  · have hwalks := hks.walks
    rw [← hcount, ← hcount, ← hcount, ← hcount, ← hcount] at hwalks
    exact hwalks
  · have hanswers := hks.answers
    rw [← hcount, ← hcount] at hanswers
    exact hanswers
  · have htable := hks.table
    have hnone : (fresh a s entropy).neighbors.size = 0 := rfl
    rw [hnone, ← hcount, ← hcount] at htable
    show c.get .neighborsAdded = c.get .neighborsExpired + _ + _
    omega
  · have hrestarts := hks.restarts
    rw [← hcount] at hrestarts
    exact hrestarts
  · intro k op
    rw [n.counters_perform, Counters.get_noteAll]
    exact Nat.le_add_right ..
  · intro k now
    rw [n.counters_sweep, Counters.get_noteAll]
    exact Nat.le_add_right ..

end lived

/-- A source hears a peer, begins a walk, takes over one of two answers, and absorbs data while it
    is a sink.  It misses an answer while it has no power, starts from nothing, and hears another
    peer, whose time has come when it begins its second walk. -/
def eventful : List Operation :=
  [.event .announceTimer 0,
    .event (.inbound (Network.addressOf 1) .announce) 5,
    .originate (some 4) 10,
    .event (.inbound (Network.addressOf 1) (.recover 9 2)) 20,
    .event (.inbound (Network.addressOf 1) (.recover 8 1)) 30,
    .setRole .sink,
    .datagram (Network.addressOf 1) (Message.data 7 3 0).encode 35,
    .setRole .source,
    .powerDown 50 40,
    .event (.inbound (Network.addressOf 1) (.recover 9 9)) 60,
    .event .restartTimer 90,
    .event (.inbound (Network.addressOf 2) .announce) 100,
    .originate none (Time.ofSecs 60)]

/-- It has sent an announcement and data.  Of two walks that it has begun and one that it has
    received, only the first was handed on.  One of its two neighbors was discarded, and the time of
    the other one had come. -/
theorem accounts_balance_eventful :
    let start := fresh (Network.addressOf 0) { role := .source, seed := some 7 }
    let past := start.moments eventful
    let n := start.performAll eventful
    let c := n.counters
    Lived (Network.addressOf 0) { role := .source, seed := some 7 } past n ∧
    c.announcesSent = 1 ∧ c.dataOriginated + c.dataForwarded = 1 ∧ c.messagesSent = 2 ∧
    c.dataReceived + 2 =
      c.dataOriginated + c.dataForwarded + c.dataAbsorbed + c.forwardsWithoutNeighbor ∧
    c.recoversAccepted + c.recoversRejected = 2 ∧
    c.neighborsAdded = c.neighborsExpired + 0 + 1 ∧
    c.restarts = 1 := by
  intro start past n c
  have hlived : Lived (Network.addressOf 0) { role := .source, seed := some 7 } past n := by
    have h : Lived _ _ (start.moments eventful ++ []) n := Lived.fresh.performAll eventful
    rwa [List.append_nil] at h
  obtain ⟨⟨hannounce, _, hdata, _, _, hall⟩, hwalks, hanswers, htable, hrestarts, _⟩ :=
    accounts_balance hlived
  have hpast : (sent past).countP (·.message.kind = .announce) = 1 ∧
      (sent past).countP (·.message.kind = .data) = 1 ∧ (sent past).length = 2 ∧
      past.countP (fun (n, op) => n.begins op) = 2 ∧
      past.countP (fun (n, op) => n.hearsAnswer op) = 2 ∧
      past.countP (fun (n, op) => n.isColdStarted op) = 1 ∧
      (past.map fun (n, op) => n.discards op).sum = 1 ∧ n.neighbors.size = 0 := by
    decide +kernel
  obtain ⟨hone, hwalk, htotal, hbegun, hheard, hrestarted, hdiscarded, hsize⟩ := hpast
  rw [hone] at hannounce
  rw [hwalk] at hdata
  rw [htotal] at hall
  rw [hbegun] at hwalks
  rw [hheard] at hanswers
  rw [hsize, hdiscarded] at htable
  rw [hrestarted] at hrestarts
  exact ⟨hlived, hannounce.symm, hdata.symm, hall, hwalks, hanswers, htable, hrestarts⟩

end Node

end TokenMesh
