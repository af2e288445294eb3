import Mathlib.Data.List.Dedup
import TokenMesh.Proofs.Node.Expiry

namespace TokenMesh

/-!
# What a neighbor table remembers

The table of a node is soft state: announcements enter peers and renew them, sweeps drop those
whose time has come, and a cold start drops them all.  All of it can be told from the history of
the table, whatever the times in it, which may go back.

* `NeighborTable.Mark`: what happens to a table; a history lists the latest mark first;
* `NeighborTable.Remembers`: by its history, a table has recorded a peer and not forgotten it since;
* `NeighborTable.entered`: in which order the peers were entered;
* `NeighborTable.Recounts`: a table holds what its history says, and marks keep that up;
* `Node.marks`: what an operation does to the table of a node;
* `Node.Marked`: what a node can become, and the history of its table;
* `Node.soft_state`: the table of a node holds what its history says.
-/

namespace NeighborTable

/-- What happens to a table. -/
inductive Mark
  | heard (peer : Address) (outcome : AnnounceOutcome) (now : Nat)
  | swept (now : Nat)
  | cleared
deriving DecidableEq, Repr

namespace Mark

/-- A peer has been heard at an instant, and it was not turned away. -/
def Records (peer : Address) (t : Nat) (m : Mark) : Prop :=
  ∃ outcome, m = .heard peer outcome t ∧ outcome ≠ .dropped

/-- What was recorded of a peer at an instant stays: it is not replaced by another record, its time
    has not come at a sweep, and the table is not cleared. -/
def Spares (timeout : Nat) (peer : Address) (t : Nat) : Mark → Prop
  | heard peer' outcome _ => peer' = peer → outcome = .dropped
  | swept now => now < t + timeout
  | cleared => False

instance (timeout : Nat) (peer : Address) (t : Nat) : DecidablePred (Spares timeout peer t)
  | heard peer' outcome _ => inferInstanceAs (Decidable (peer' = peer → outcome = .dropped))
  | swept now => inferInstanceAs (Decidable (now < t + timeout))
  | cleared => inferInstanceAs (Decidable False)

/-- Who is entered. -/
def entrant? : Mark → Option Address
  | heard peer .inserted _ => some peer
  | _ => none

@[simp] theorem records_heard {peer peer' : Address} {outcome : AnnounceOutcome} {t now : Nat} :
    (heard peer' outcome now).Records peer t ↔ peer' = peer ∧ now = t ∧ outcome ≠ .dropped := by
  constructor
  · rintro ⟨_, ⟨⟩, hne⟩
    exact ⟨rfl, rfl, hne⟩
  · rintro ⟨rfl, rfl, hne⟩
    exact ⟨outcome, rfl, hne⟩

@[simp] theorem not_records_swept {peer : Address} {t now : Nat} :
    ¬ (swept now).Records peer t := by
  rintro ⟨_, ⟨⟩, _⟩

@[simp] theorem not_records_cleared {peer : Address} {t : Nat} : ¬ cleared.Records peer t := by
  rintro ⟨_, ⟨⟩, _⟩

theorem entrant?_heard (peer : Address) (outcome : AnnounceOutcome) (now : Nat) :
    (heard peer outcome now).entrant? = if outcome = .inserted then some peer else none := by
  cases outcome <;> rfl

end Mark

/-- By a history, a peer was recorded last at an instant, and since then there has been no cold
    start, and no sweep at an instant at which the time of that record had come. -/
def Remembers (timeout : Nat) (marks : List Mark) (peer : Address) (t : Nat) : Prop :=
  ∃ later m earlier, marks = later ++ m :: earlier ∧ m.Records peer t ∧
    ∀ m' ∈ later, m'.Spares timeout peer t

/-- By a history, the peers that were entered one after another. -/
def entered (marks : List Mark) : List Address := (marks.filterMap Mark.entrant?).reverse

theorem not_remembers_nil {timeout : Nat} {peer : Address} {t : Nat} :
    ¬ Remembers timeout [] peer t := by
  rintro ⟨later, m, earlier, h, _⟩
  cases later <;> cases h

/-- Who is remembered has been heard. -/
theorem Remembers.mem {timeout : Nat} {marks : List Mark} {peer : Address} {t : Nat}
    (h : Remembers timeout marks peer t) : ∃ outcome, .heard peer outcome t ∈ marks := by
  obtain ⟨later, m, earlier, rfl, ⟨outcome, rfl, _⟩, _⟩ := h
  exact ⟨outcome, by simp⟩

/-- What the latest mark does not record has been remembered before, and the mark spares it. -/
theorem remembers_cons {timeout : Nat} {m : Mark} {marks : List Mark} {peer : Address} {t : Nat} :
    Remembers timeout (m :: marks) peer t ↔
      m.Records peer t ∨ m.Spares timeout peer t ∧ Remembers timeout marks peer t := by
  constructor
  · rintro ⟨_ | ⟨m', later⟩, m'', earlier, hsplit, hrecords, hspares⟩
    · obtain ⟨rfl, rfl⟩ := List.cons.inj hsplit
      exact .inl hrecords
    · obtain ⟨rfl, rfl⟩ := List.cons.inj hsplit
      obtain ⟨hm, hlater⟩ := List.forall_mem_cons.1 hspares
      exact .inr ⟨hm, later, m'', earlier, rfl, hrecords, hlater⟩
  · rintro (hrecords | ⟨hm, later, m', earlier, rfl, hrecords, hspares⟩)
    · exact ⟨[], m, marks, rfl, hrecords, by simp⟩
    · exact ⟨m :: later, m', earlier, rfl, hrecords, List.forall_mem_cons.2 ⟨hm, hspares⟩⟩

/-- A peer that was not turned away has been recorded, and all others are remembered as before. -/
theorem remembers_heard {timeout : Nat} {sender : Address} {outcome : AnnounceOutcome} {now : Nat}
    {marks : List Mark} {peer : Address} {t : Nat} :
    Remembers timeout (.heard sender outcome now :: marks) peer t ↔
      if sender = peer ∧ outcome ≠ .dropped then t = now else Remembers timeout marks peer t := by
  rw [remembers_cons, Mark.records_heard]
  split
  · next h =>
    obtain ⟨rfl, hne⟩ := h
    simp [Mark.Spares, hne, eq_comm]
  · next h =>
    have hspares : sender = peer → outcome = .dropped := by simpa using h
    have hnot : ¬ (sender = peer ∧ now = t ∧ outcome ≠ .dropped) := fun ⟨hp, _, hne⟩ => h ⟨hp, hne⟩
    simp only [hnot, false_or, Mark.Spares, and_iff_right hspares]

theorem entered_cons (m : Mark) (marks : List Mark) :
    entered (m :: marks) = entered marks ++ m.entrant?.toList := by
  cases h : m.entrant? <;> simp [entered, h]

/-- Of some distinct peers, listed by when they were last entered, and one who is entered after all
    of them, that one comes last. -/
theorem sublist_dedup_concat {as peers : List Address} {peer : Address}
    (h : as.Sublist peers.dedup) (hpeer : peer ∉ as) :
    (as ++ [peer]).Sublist (peers ++ [peer]).dedup := by
  induction peers generalizing as with
  | nil =>
    obtain rfl : as = [] := List.sublist_nil.1 h
    exact List.Sublist.refl _
  | cons a peers ih =>
    by_cases hlater : a ∈ peers
    · -- the first entry does not count
      rw [List.dedup_cons_of_mem hlater] at h
      rw [List.cons_append, List.dedup_cons_of_mem (List.mem_append_left _ hlater)]
      exact ih h hpeer
    · rw [List.dedup_cons_of_notMem hlater] at h
      by_cases ha : a = peer
      · -- it is entered again, and not listed until then
        subst ha
        rw [List.cons_append, List.dedup_cons_of_mem (List.mem_append_right _ (by simp))]
        refine ih ?_ hpeer
        rcases List.sublist_cons_iff.1 h with h | ⟨as', rfl, _⟩
        · exact h
        · simp at hpeer
      · rw [List.cons_append, List.dedup_cons_of_notMem (by simp [hlater, ha])]
        rcases List.sublist_cons_iff.1 h with h | ⟨as', rfl, hrest⟩
        · exact (ih h hpeer).cons _
        · exact (ih hrest fun hmem => hpeer (List.mem_cons_of_mem _ hmem)).cons_cons _

/-! ### The entries of a table -/

section entries

variable {t : NeighborTable} {peer sender : Address} {expiry now : Nat}

@[simp] theorem timeout_announce (t : NeighborTable) (sender : Address) (now : Nat) :
    (t.announce sender now).timeout = t.timeout := by
  unfold announce
  dsimp only
  split <;> rfl

/-- Exactly the peers that are known are renewed. -/
theorem outcome_eq_refreshed_iff : t.outcome sender = .refreshed ↔ sender ∈ t.addresses := by
  have hknown : t.contains sender = true ↔ sender ∈ t.addresses := by simp [contains, addresses]
  unfold outcome
  split
  · next h => simp [hknown.1 h]
  · next h =>
    have hunknown : sender ∉ t.addresses := fun hmem => h (hknown.2 hmem)
    split <;> simp [hunknown]

/-- A peer that is entered was not known. -/
theorem notMem_addresses_of_inserted (h : t.outcome sender = .inserted) :
    sender ∉ t.addresses := by
  intro hmem
  rw [outcome_eq_refreshed_iff.2 hmem] at h
  cases h

/-- To renew a peer sets its expiry, and no other one. -/
theorem mem_announce_of_refreshed (h : t.outcome sender = .refreshed) :
    ⟨peer, expiry⟩ ∈ (t.announce sender now).entries ↔
      if sender = peer then expiry = now + t.timeout else ⟨peer, expiry⟩ ∈ t.entries := by
  have hentries : (t.announce sender now).entries = t.entries.map fun e =>
      if e.address = sender then ⟨sender, now + t.timeout⟩ else e := by
    simp only [announce, h]
  rw [hentries, List.mem_map]
  by_cases hpeer : sender = peer
  · subst hpeer
    rw [if_pos rfl]
    constructor
    · rintro ⟨e, _, heq⟩
      split at heq
      · exact (Neighbor.mk.inj heq).2.symm
      · next hne => exact absurd (congrArg Neighbor.address heq) hne
    · rintro rfl
      obtain ⟨e, he, hsender⟩ := List.mem_map.1 (outcome_eq_refreshed_iff.1 h)
      exact ⟨e, he, if_pos hsender⟩
  · rw [if_neg hpeer]
    constructor
    · rintro ⟨e, he, heq⟩
      split at heq
      · exact absurd (Neighbor.mk.inj heq).1 hpeer
      · exact heq ▸ he
    · intro he
      exact ⟨⟨peer, expiry⟩, he, if_neg (Ne.symm hpeer)⟩

/-- After an announcement, only the sender has another expiry, unless it was turned away. -/
theorem mem_announce_iff :
    ⟨peer, expiry⟩ ∈ (t.announce sender now).entries ↔
      if sender = peer ∧ t.outcome sender ≠ .dropped then expiry = now + t.timeout
      else ⟨peer, expiry⟩ ∈ t.entries := by
  cases h : t.outcome sender with
  | refreshed =>
    rw [mem_announce_of_refreshed h]
    simp
  | inserted =>
    by_cases hpeer : sender = peer
    · subst hpeer
      have hnew : ⟨sender, expiry⟩ ∉ t.entries := fun hmem =>
        notMem_addresses_of_inserted h (List.mem_map_of_mem (f := (·.address)) hmem)
      simp [announce, h, hnew]
    · simp [announce, h, hpeer, Ne.symm hpeer]
  | dropped => simp [announce, h]

end entries

/-! ### A table and its history -/

/-- A table holds what its history says: no peer twice, no more of them than there is room for,
    each with the time of its record, and in the order in which they were entered. -/
structure Recounts (t : NeighborTable) (marks : List Mark) : Prop where
  nodup : t.addresses.Nodup
  size_le : t.size ≤ t.capacity
  mem_iff : ∀ peer expiry, ⟨peer, expiry⟩ ∈ t.entries ↔
    ∃ u, Remembers t.timeout marks peer u ∧ expiry = u + t.timeout
  order : t.addresses.Sublist (entered marks).dedup

theorem recounts_empty (capacity timeout : Nat) : (empty capacity timeout).Recounts [] := by
  refine ⟨List.nodup_nil, Nat.zero_le _, ?_, List.nil_sublist _⟩
  intro peer expiry
  simp [empty, not_remembers_nil]

namespace Recounts

variable {t : NeighborTable} {marks : List Mark} (h : t.Recounts marks)

include h

theorem heard (sender : Address) (now : Nat) :
    (t.announce sender now).Recounts (.heard sender (t.outcome sender) now :: marks) := by
  refine ⟨?_, ?_, ?_, ?_⟩
  · rw [addresses_announce]
    split
    · next hnew =>
      rw [← List.concat_eq_append]
      exact h.nodup.concat (notMem_addresses_of_inserted hnew)
    · exact h.nodup
  · rw [capacity_announce]
    exact size_announce_le h.size_le sender now
  · intro peer expiry
    rw [mem_announce_iff, timeout_announce]
    simp only [remembers_heard]
    split
    · simp
    · exact h.mem_iff peer expiry
  · rw [addresses_announce, entered_cons, Mark.entrant?_heard]
    split
    · next hnew => exact sublist_dedup_concat h.order (notMem_addresses_of_inserted hnew)
    · simpa using h.order

theorem swept (now : Nat) : (t.expire now).Recounts (.swept now :: marks) := by
  have hsublist : (t.expire now).addresses.Sublist t.addresses := List.filter_sublist.map _
  refine ⟨h.nodup.sublist hsublist, Nat.le_trans (t.size_expire_le now) h.size_le, ?_, ?_⟩
  · intro peer expiry
    have hmem : ⟨peer, expiry⟩ ∈ (t.expire now).entries ↔
        ⟨peer, expiry⟩ ∈ t.entries ∧ now < expiry := by
      simp [expire]
    show _ ↔ ∃ u, Remembers t.timeout (.swept now :: marks) peer u ∧ expiry = u + t.timeout
    rw [hmem, h.mem_iff]
    simp only [remembers_cons, Mark.not_records_swept, false_or, Mark.Spares]
    constructor
    · rintro ⟨⟨u, hu, rfl⟩, hlive⟩
      exact ⟨u, ⟨hlive, hu⟩, rfl⟩
    · rintro ⟨u, ⟨hlive, hu⟩, rfl⟩
      exact ⟨⟨u, hu, rfl⟩, hlive⟩
  · rw [entered_cons]
    simpa [Mark.entrant?] using hsublist.trans h.order

omit h in
theorem cleared (t : NeighborTable) (marks : List Mark) :
    t.clear.Recounts (.cleared :: marks) := by
  refine ⟨List.nodup_nil, Nat.zero_le _, ?_, List.nil_sublist _⟩
  intro peer expiry
  simp [clear, remembers_cons, Mark.Spares]

end Recounts

end NeighborTable

namespace Node

open NeighborTable

/-! ### What an operation does -/

/-- What an operation does to the table of a node before the sweep that goes with it: a restart
    timer clears it if the node has no power, and an announcement is heard if it has power and the
    announcement is not its own. -/
def mark? (n : Node) (op : Operation) (now : Nat) : Option Mark :=
  if n.isDown then
    if op.isRestart then some .cleared else none
  else
    op.announcer?.bind fun sender =>
      if sender = n.address then none
      else some (.heard sender (n.neighbors.outcome sender) now)

/-- What an operation does to the table of a node, the latest mark first: one that sweeps may do
    something besides, and any other does nothing. -/
def marks (n : Node) (op : Operation) : List Mark :=
  match op.sweepTime? with
  | some now => .swept now :: (n.mark? op now).toList
  | none => []

/-- The history of the table of a node that goes through some operations. -/
def history (n : Node) : List Operation → List Mark
  | [] => []
  | op :: ops => (n.perform op).1.node.history ops ++ n.marks op

section mark?

variable (n : Node)

/-- An operation that neither restarts a node nor announces anybody does nothing. -/
theorem mark?_eq_none {op : Operation} (hr : op.isRestart = false) (ha : op.announcer? = none)
    (now : Nat) : n.mark? op now = none := by
  simp [mark?, hr, ha]

/-- A message does something only if it is an announcement that the node listens to. -/
theorem mark?_inbound (sender : Address) (m : Message) (now : Nat) :
    n.mark? (.event (.inbound sender m) now) now =
      if n.isDown = false ∧ sender ≠ n.address ∧ m = .announce then
        some (.heard sender (n.neighbors.outcome sender) now)
      else none := by
  unfold mark?
  cases hd : n.isDown with
  | true => simp [Operation.isRestart]
  | false =>
    by_cases hself : sender = n.address
    · cases m <;> simp [Operation.announcer?, hself]
    · cases m <;> simp [Operation.announcer?, hself]

/-- A datagram does what the message in it does. -/
theorem mark?_datagram {sender : Address} {bytes : List UInt8} {m : Message} (now : Nat)
    (h : Message.decode bytes = .ok m) :
    n.mark? (.datagram sender bytes now) now = n.mark? (.event (.inbound sender m) now) now := by
  have hwho : (Operation.datagram sender bytes now).announcer? =
      (Operation.event (.inbound sender m) now).announcer? := by
    cases m <;> simp [Operation.announcer?, h]
  unfold mark?
  rw [hwho]
  rfl

end mark?

/-- What a node hears is not its own. -/
theorem peer_ne_of_mem_marks {n : Node} {op : Operation} {peer : Address}
    {outcome : AnnounceOutcome} {now : Nat} (h : .heard peer outcome now ∈ n.marks op) :
    peer ≠ n.address := by
  unfold Node.marks at h
  split at h
  · have h := Option.mem_toList.1 (List.mem_of_ne_of_mem (by simp) h)
    unfold mark? at h
    -- without power, nothing is heard
    split at h
    · split at h <;> cases h
    · obtain ⟨sender, _, h⟩ := Option.bind_eq_some_iff.1 h
      split at h
      · cases h
      · next hne =>
        cases h
        exact hne
  · cases h

/-- A node learns and forgets nothing about its peers by an operation that does not sweep. -/
theorem leavesTable_perform {n : Node} {op : Operation} (hs : op.sweepTime? = none) :
    n.LeavesTable (n.perform op).1 := by
  obtain ⟨now, _, hnow, _⟩ | ⟨_, hsame⟩ := n.hears_perform op
  · rw [hs] at hnow
    cases hnow
  · exact hsame

/-- What is left of a table when an operation has ended has outlasted the sweep at its instant. -/
theorem outlasts_perform {n : Node} {op : Operation} {now : Nat} (hs : op.sweepTime? = some now) :
    (n.perform op).1.node.neighbors.Outlasts (some now) := by
  obtain ⟨now', r, hnow, _, ht, _⟩ | ⟨hnone, _⟩ := n.hears_perform op
  · rw [hs] at hnow
    obtain rfl := Option.some.inj hnow
    rw [ht]
    exact r.node.neighbors.outlasts_expire now
  · rw [hs] at hnone
    cases hnone

section perform

variable {n : Node} {marks : List Mark} (h : n.neighbors.Recounts marks)

include h

theorem recounts_of_same {op : Operation} {now : Nat} {r : Reaction} (hnone : n.mark? op now = none)
    (hsame : n.LeavesTable r) :
    r.node.neighbors.Recounts ((n.mark? op now).toList ++ marks) := by
  rw [hnone, hsame.neighbors]
  exact h

theorem recounts_onInbound (sender : Address) (m : Message) (now : Nat) :
    (n.onInbound sender m now).node.neighbors.Recounts
      ((n.mark? (.event (.inbound sender m) now) now).toList ++ marks) := by
  by_cases hheard : n.isDown = false ∧ sender ≠ n.address ∧ m = .announce
  · rw [mark?_inbound, if_pos hheard]
    obtain ⟨hup, hne, rfl⟩ := hheard
    rw [onInbound_of_up hup hne]
    show (n.onAnnounce sender now).node.neighbors.Recounts _
    rw [neighbors_onAnnounce]
    exact h.heard sender now
  · refine recounts_of_same h (by rw [mark?_inbound, if_neg hheard]) ?_
    unfold onInbound
    -- without power, from itself, or a message of another kind
    split
    · exact ⟨rfl, rfl⟩
    · next hup =>
      split
      · exact ⟨rfl, rfl⟩
      · next hne =>
        have hup : n.isDown = false := Bool.eq_false_iff.2 hup
        exact n.leavesTable_onMessage (fun hm => hheard ⟨hup, hne, hm⟩) sender now

theorem recounts_react (e : Event) (now : Nat) :
    (n.react e now).node.neighbors.Recounts ((n.mark? (.event e now) now).toList ++ marks) := by
  cases e with
  | announceTimer =>
    exact recounts_of_same h (n.mark?_eq_none rfl rfl now) n.leavesTable_onAnnounceTimer
  | beaconTimer =>
    exact recounts_of_same h (n.mark?_eq_none rfl rfl now) n.leavesTable_onBeaconTimer
  | restartTimer =>
    show n.onRestartTimer.node.neighbors.Recounts _
    cases hd : n.isDown with
    | true =>
      rw [onRestartTimer_of_down hd]
      simp only [mark?, hd]
      exact Recounts.cleared n.neighbors marks
    | false =>
      rw [onRestartTimer_of_up hd]
      simp only [mark?, hd]
      exact h
  | inbound sender m => exact recounts_onInbound h sender m now

/-- Whatever is done with a node, its table holds what its history says. -/
theorem recounts_perform (op : Operation) :
    (n.perform op).1.node.neighbors.Recounts (n.marks op ++ marks) := by
  cases op with
  | event e now => exact (recounts_react h e now).swept now
  | datagram sender bytes now =>
    cases hdec : Message.decode bytes with
    | ok m =>
      simp only [Node.marks, Operation.sweepTime?, n.mark?_datagram now hdec, perform,
        handleDatagram, hdec]
      exact (recounts_onInbound h sender m now).swept now
    | error e =>
      have hnobody : (Operation.datagram sender bytes now).announcer? = none := by
        simp [Operation.announcer?, hdec]
      have hnone := n.mark?_eq_none rfl hnobody now
      simp only [Node.marks, Operation.sweepTime?, hnone, perform, handleDatagram, hdec]
      exact h.swept now
  | originate value now =>
    have hnone : n.mark? (.originate value now) now = none := n.mark?_eq_none rfl rfl now
    simp only [Node.marks, Operation.sweepTime?, hnone]
    -- refused, or a walk that begins after the sweep
    obtain ⟨e, he⟩ | ⟨t, _, _, _, ht⟩ := n.originate_cases value now
    · simp only [perform, he]
      exact h.swept now
    · simp only [perform, ht]
      rw [((n.sweep now).leavesTable_launch t _).neighbors]
      exact h.swept now
  | setRole role =>
    rw [(leavesTable_perform rfl).neighbors]
    exact h
  | powerDown delay now =>
    rw [(leavesTable_perform rfl).neighbors]
    exact h

end perform

/-! ### All that becomes of a node -/

/-- What a node at an address can become with given settings, and the history of its table.  Times
    may go back. -/
inductive Marked (a : Address) (s : ProtocolSettings) : List Mark → Node → Prop
  | fresh {entropy : Generator} : Marked a s [] (.fresh a s entropy)
  | perform {marks : List Mark} {n : Node} (h : Marked a s marks n) (op : Operation) :
      Marked a s (n.marks op ++ marks) (n.perform op).1.node
  | sweep {marks : List Mark} {n : Node} (h : Marked a s marks n) (now : Nat) :
      Marked a s (.swept now :: marks) (n.sweep now)

section marked

variable {a : Address} {s : ProtocolSettings} {marks : List Mark} {n : Node}

theorem Marked.reachable (h : Marked a s marks n) : Reachable a s n := by
  induction h with
  | fresh => exact .fresh
  | perform _ op ih => exact .perform ih op
  | sweep _ now ih => exact .sweep ih now

theorem Marked.performAll (h : Marked a s marks n) (ops : List Operation) :
    Marked a s (n.history ops ++ marks) (n.performAll ops) := by
  induction ops generalizing n marks with
  | nil => exact h
  | cons op ops ih =>
    rw [history, List.append_assoc]
    exact ih (h.perform op)

theorem recounts_of_marked (h : Marked a s marks n) : n.neighbors.Recounts marks := by
  induction h with
  | fresh => exact recounts_empty ..
  | perform _ op ih => exact recounts_perform ih op
  | sweep _ now ih => exact ih.swept now

/-- A node never hears itself. -/
theorem Marked.peer_ne (h : Marked a s marks n) {peer : Address} {outcome : AnnounceOutcome}
    {now : Nat} (hm : .heard peer outcome now ∈ marks) : peer ≠ a := by
  induction h with
  | fresh => cases hm
  | perform hn op ih =>
    rcases List.mem_append.1 hm with hm | hm
    · rw [← hn.reachable.origin.1]
      exact peer_ne_of_mem_marks hm
    · exact ih hm
  | sweep _ _ ih => exact ih (List.mem_of_ne_of_mem (by simp) hm)

/-- **Soft state.**  Whatever has been done with a node, at whatever times, its table lists no peer
    twice, never lists the node itself, and lists no more peers than the settings allow.  A peer is
    listed exactly if by the history of the table it was entered or renewed, there has been no cold
    start since then, and no sweep at an instant at which the time of the latest such record had
    come; and that time is its expiry.  The peers are listed in the order in which they were last
    entered.  And after whatever sweeps, an event, a datagram that may hold no message, or a
    request that may be refused, there is nobody left whose time has come. -/
theorem soft_state (h : Marked a s marks n) :
    n.neighbors.addresses.Nodup ∧ a ∉ n.neighbors.addresses ∧
    n.neighbors.size ≤ s.maxNeighbors ∧
    (∀ peer expiry, ⟨peer, expiry⟩ ∈ n.neighbors.entries ↔
      ∃ t, Remembers s.neighborTimeout marks peer t ∧ expiry = t + s.neighborTimeout) ∧
    n.neighbors.addresses.Sublist (entered marks).dedup ∧
    ∀ op now, op.sweepTime? = some now →
      ∀ e ∈ (n.perform op).1.node.neighbors.entries, now < e.expiry := by
  have hrecounts := recounts_of_marked h
  have hlimits := h.reachable.origin.2.2
  have hcapacity : n.neighbors.capacity = s.maxNeighbors := congrArg NeighborTable.capacity hlimits
  have htimeout : n.neighbors.timeout = s.neighborTimeout := congrArg NeighborTable.timeout hlimits
  have hentries := hrecounts.mem_iff
  rw [htimeout] at hentries
  refine ⟨hrecounts.nodup, ?_, hcapacity ▸ hrecounts.size_le, hentries, hrecounts.order, ?_⟩
  · intro hmem
    obtain ⟨e, he, haddress⟩ := List.mem_map.1 hmem
    obtain ⟨t, ht, _⟩ := (hentries e.address e.expiry).1 he
    obtain ⟨outcome, hheard⟩ := ht.mem
    exact h.peer_ne hheard haddress
  · intro op now hs e he
    obtain ⟨u, hu, hlt⟩ := outlasts_perform hs e he
    obtain rfl := Option.some.inj hu
    exact hlt

end marked

/-- Settings with room for two peers, each of which is kept for a hundred microseconds. -/
def narrow : ProtocolSettings := { maxNeighbors := 2, neighborTimeout := 100, seed := some 7 }

/-- Two peers announce themselves and a third one does.  Then the first one announces itself at an
    earlier instant, at which it is renewed.  So a request that is refused ends its time, and it is
    entered anew. -/
def episode : List Operation :=
  [.event (.inbound (Network.addressOf 1) .announce) 100,
    .event (.inbound (Network.addressOf 2) .announce) 50,
    .event (.inbound (Network.addressOf 3) .announce) 60,
    .event (.inbound (Network.addressOf 1) .announce) 20,
    .originate none 130,
    .event (.inbound (Network.addressOf 1) .announce) 140]

/-- There was no room for the third peer.  The second one is listed before the first one, with the
    time of its only record, while the first one has that of its last. -/
theorem soft_state_narrow :
    let marks : List Mark :=
      [.swept 140, .heard (Network.addressOf 1) .inserted 140, .swept 130,
        .swept 20, .heard (Network.addressOf 1) .refreshed 20,
        .swept 60, .heard (Network.addressOf 3) .dropped 60,
        .swept 50, .heard (Network.addressOf 2) .inserted 50,
        .swept 100, .heard (Network.addressOf 1) .inserted 100]
    let n := (fresh (Network.addressOf 0) narrow).performAll episode
    Marked (Network.addressOf 0) narrow marks n ∧
    n.neighbors.addresses.Sublist [Network.addressOf 2, Network.addressOf 1] ∧
    ⟨Network.addressOf 2, 150⟩ ∈ n.neighbors.entries ∧
    ⟨Network.addressOf 1, 240⟩ ∈ n.neighbors.entries ∧
    ∀ e ∈ (n.perform (.originate none 200)).1.node.neighbors.entries, 200 < e.expiry := by
  intro marks n
  have hhistory : (fresh (Network.addressOf 0) narrow).history episode = marks := by
    decide
  have hmarked : Marked (Network.addressOf 0) narrow marks n := by
    have h : Marked (Network.addressOf 0) narrow (Node.history _ episode ++ []) n :=
      Marked.fresh.performAll episode
    rwa [List.append_nil, hhistory] at h
  obtain ⟨_, _, _, hentries, horder, hswept⟩ := soft_state hmarked
  have hlisted : (entered marks).dedup = [Network.addressOf 2, Network.addressOf 1] := by
    decide
  refine ⟨hmarked, hlisted ▸ horder, (hentries _ _).2 ⟨50, ?_, rfl⟩,
    (hentries _ _).2 ⟨140, ?_, rfl⟩, hswept _ 200 rfl⟩
  · refine ⟨marks.take 8, .heard (Network.addressOf 2) .inserted 50, marks.drop 9, rfl,
      ⟨.inserted, rfl, by decide⟩, by decide⟩
  · refine ⟨marks.take 1, .heard (Network.addressOf 1) .inserted 140, marks.drop 2, rfl,
      ⟨.inserted, rfl, by decide⟩, by decide⟩

end Node

end TokenMesh
