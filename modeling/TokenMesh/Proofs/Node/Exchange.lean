import Mathlib.Algebra.BigOperators.Group.Multiset.Basic
import TokenMesh.Network
import TokenMesh.Proofs.Node.Replies

namespace TokenMesh

/-!
# Exchanges die out

Many nodes in any states and any messages on their way between them, none of which is data.  The
messages are delivered one at a time, in any order and at any times, and what their receivers send
to single peers joins those on their way.  Nothing else happens: no timer fires, and nobody
interferes.  Then a beacon brings about a request or an answer, a request an answer, and an answer
nothing, so that soon nothing is left to deliver.

* `Exchange`: nodes with different addresses, and the messages on their way;
* `Exchange.Step`, `Exchange.Run`: deliveries in any order;
* `Message.offspring`: how many more messages one can bring about;
* `Exchange.Run.paid`: what follows from each delivery holds of all together;
* `Exchange.dies_out`: every exchange comes to an end, and soon.
-/

/-- A message on its way from one address to another.  It goes back to one of the messages that were
    on their way at first, the number of which no node sees. -/
structure Letter where
  cause : Nat
  sender : Address
  receiver : Address
  message : Message
deriving DecidableEq, Repr

/-- A letter that has been delivered, and all that its receiver sent. -/
structure Delivery where
  letter : Letter
  sends : List Outbound
deriving DecidableEq, Repr

/-- What goes on from the receiver of a letter to single peers. -/
def Delivery.replies (d : Delivery) : List Letter :=
  d.sends.filterMap fun
    | .unicast peer m => some ⟨d.letter.cause, d.letter.receiver, peer, m⟩
    | .multicast _ => none

/-- Nodes with different addresses, and messages on their way. -/
structure Exchange where
  nodes : List Node
  distinct : (nodes.map (·.address)).Nodup
  air : Multiset Letter

/-- How many more messages a message can bring about that is not data. -/
def Message.offspring : Message → Nat
  | .beacon _ => 2
  | .control _ => 1
  | _ => 0

/-- A delivery brings about nothing, or one message that is no data and can bring about less. -/
def Delivery.Dwindles (d : Delivery) : Prop :=
  d.sends = [] ∨ ∃ peer m, d.sends = [.unicast peer m] ∧ m.kind ≠ .data ∧
    m.offspring < d.letter.message.offspring

namespace Delivery

variable {d : Delivery}

/-- What a delivery brings about goes back to the same message. -/
theorem Dwindles.replies_cases (h : d.Dwindles) : d.replies = [] ∨
    ∃ l, d.replies = [l] ∧ l.cause = d.letter.cause ∧ l.message.kind ≠ .data ∧
      l.message.offspring < d.letter.message.offspring := by
  rcases h with hnone | ⟨peer, m, hone, hkind, hless⟩
  · left
    rw [replies, hnone]
    rfl
  · right
    rw [replies, hone]
    exact ⟨_, rfl, rfl, hkind, hless⟩

/-- No data is sent. -/
theorem Dwindles.dataless (h : d.Dwindles) : ∀ out ∈ d.sends, out.message.kind ≠ .data := by
  rcases h with hnone | ⟨peer, m, hone, hkind, _⟩
  · simp [hnone]
  · rw [hone]
    exact List.forall_mem_singleton.2 hkind

end Delivery

namespace Exchange

/-! ### Deliveries -/

/-- No message on its way is data. -/
def Dataless (c : Exchange) : Prop := ∀ l ∈ c.air, l.message.kind ≠ .data

/-- The addresses stay the same when the node at one of them is replaced by one with the same
    address. -/
theorem addresses_replace (nodes : List Node) {n' : Node} {a : Address} (h : n'.address = a) :
    (nodes.map fun n => if n.address = a then n' else n).map (·.address) =
      nodes.map (·.address) := by
  rw [List.map_map]
  apply List.map_congr_left
  intro n _
  by_cases hn : n.address = a
  · rw [Function.comp_apply, if_pos hn, h, hn]
  · rw [Function.comp_apply, if_neg hn]

/-- The receiver of a letter has reacted. -/
def follow (c : Exchange) (l : Letter) (r : Reaction) (hr : r.node.address = l.receiver) :
    Exchange where
  nodes := c.nodes.map fun n => if n.address = l.receiver then r.node else n
  distinct := by
    rw [addresses_replace c.nodes hr]
    exact c.distinct
  air := c.air.erase l + ((⟨l, r.sends⟩ : Delivery).replies : Multiset Letter)

/-- What a node makes of a letter. -/
def reaction (n : Node) (l : Letter) (now : Nat) : Reaction :=
  n.handle (.inbound l.sender l.message) now

theorem address_reaction {n : Node} {l : Letter} (h : n.address = l.receiver) (now : Nat) :
    (reaction n l now).node.address = l.receiver :=
  (n.lawful_handle _ now).address.trans h

/-- One of the messages on their way is delivered to the node at its address. -/
inductive Step (c : Exchange) : Delivery → Exchange → Prop
  | deliver {l : Letter} {n : Node} (hl : l ∈ c.air) (hn : n ∈ c.nodes)
      (ha : n.address = l.receiver) (now : Nat) :
      Step c ⟨l, (reaction n l now).sends⟩
        (c.follow l (reaction n l now) (address_reaction ha now))

/-- Any deliveries one after the other, the latest first. -/
inductive Run (c : Exchange) : List Delivery → Exchange → Prop
  | start : Run c [] c
  | step {log : List Delivery} {c' c'' : Exchange} {d : Delivery} (h : Run c log c')
      (hs : c'.Step d c'') : Run c (d :: log) c''

/-! ### What one delivery brings about -/

/-- What a message prompts that is not data is no data either, and can bring about less. -/
theorem offspring_lt_of_prompts {n : Node} {m m' : Message} (h : m.Prompts n m')
    (hm : m.kind ≠ .data) : m'.kind ≠ .data ∧ m'.offspring < m.offspring := by
  cases h with
  | request version ours => exact ⟨nofun, Nat.le_refl 2⟩
  | push version t => exact ⟨nofun, Nat.le_succ 1⟩
  | answer version t => exact ⟨nofun, Nat.le_refl 1⟩
  | forward value version hops t _ => exact absurd rfl hm

section Step

variable {c c' : Exchange} {d : Delivery}

theorem dwindles_of_step (hs : c.Step d c') (hd : c.Dataless) : d.Dwindles := by
  cases hs with
  | @deliver l n hl hn ha now =>
    rcases n.sends_onInbound l.sender l.message now with hnone | ⟨peer, m, hone, hp⟩
    · exact .inl hnone
    · exact .inr ⟨peer, m, hone, offspring_lt_of_prompts hp (hd l hl)⟩

theorem mem_air_of_step (hs : c.Step d c') : d.letter ∈ c.air := by
  cases hs with
  | deliver hl hn ha now => exact hl

theorem air_of_step (hs : c.Step d c') :
    c'.air = c.air.erase d.letter + (d.replies : Multiset Letter) := by
  cases hs with
  | deliver hl hn ha now => rfl

theorem dataless_of_step (hs : c.Step d c') (hd : c.Dataless) : c'.Dataless := by
  intro l hl
  rw [air_of_step hs] at hl
  rcases Multiset.mem_add.1 hl with hl | hl
  · exact hd l (Multiset.mem_of_mem_erase hl)
  · rcases (dwindles_of_step hs hd).replies_cases with hnone | ⟨l', hone, _, hkind, _⟩
    · rw [hnone] at hl
      cases hl
    · rw [hone] at hl
      rw [List.mem_singleton.1 hl]
      exact hkind

/-- The letter that is delivered leaves, and the replies join. -/
theorem sum_of_step (hs : c.Step d c') (w : Letter → Nat) :
    w d.letter + (c'.air.map w).sum = (c.air.map w).sum + (d.replies.map w).sum := by
  have herase := Multiset.sum_map_erase (f := w) (mem_air_of_step hs)
  rw [air_of_step hs, Multiset.map_add, Multiset.sum_add, Multiset.map_coe, Multiset.sum_coe]
  omega

end Step

/-! ### What all deliveries bring about -/

section Run

variable {c c' : Exchange} {log : List Delivery}

/-- Nobody ever sends data. -/
theorem Run.dataless (h : c.Run log c') (hd : c.Dataless) :
    c'.Dataless ∧ ∀ d ∈ log, d.Dwindles := by
  induction h with
  | start => exact ⟨hd, by simp⟩
  | step _ hs ih =>
    obtain ⟨hd', hlog⟩ := ih
    exact ⟨dataless_of_step hs hd', List.forall_mem_cons.2 ⟨dwindles_of_step hs hd', hlog⟩⟩

/-- If every letter can pay a fee for its delivery and endow the replies, all fees together are no
    more than what the first letters own. -/
theorem Run.paid (h : c.Run log c') (hd : c.Dataless) (w : Letter → Nat) (fee : Delivery → Nat)
    (hpay : ∀ d : Delivery, d.Dwindles → fee d + (d.replies.map w).sum ≤ w d.letter) :
    (log.map fee).sum + (c'.air.map w).sum ≤ (c.air.map w).sum := by
  induction h with
  | start => simp
  | @step log c' c'' d h hs ih =>
    have hsum := sum_of_step hs w
    have hfee := hpay d (dwindles_of_step hs (h.dataless hd).1)
    rw [List.map_cons, List.sum_cons]
    omega

/-- No more deliveries are made than the first messages can bring about, with their own. -/
theorem Run.length_le (h : c.Run log c') (hd : c.Dataless) :
    log.length ≤ (c.air.map fun l => l.message.offspring + 1).sum := by
  have hpay : ∀ d : Delivery, d.Dwindles →
      1 + (d.replies.map fun l => l.message.offspring + 1).sum ≤
        d.letter.message.offspring + 1 := by
    intro d h
    rcases h.replies_cases with hnone | ⟨l, hone, _, _, hless⟩
    · rw [hnone]
      exact Nat.le_add_left 1 _
    · rw [hone, List.map_singleton, List.sum_singleton]
      omega
  have hpaid := h.paid hd _ _ hpay
  rw [List.map_const', List.sum_replicate_nat, Nat.mul_one] at hpaid
  omega

/-- What the letters that go back to a message can still bring about. -/
def due (k : Nat) (l : Letter) : Nat := if l.cause = k then l.message.offspring else 0

/-- A letter pays for the replies that go back to the same message as it does. -/
theorem countP_le_due (k : Nat) {d : Delivery} (h : d.Dwindles) :
    d.replies.countP (·.cause = k) + (d.replies.map (due k)).sum ≤ due k d.letter := by
  rcases h.replies_cases with hnone | ⟨l, hone, hcause, _, hless⟩
  · rw [hnone]
    exact Nat.zero_le _
  · rw [hone, List.map_singleton, List.sum_singleton, List.countP_singleton]
    by_cases hk : d.letter.cause = k
    · rw [due, due, if_pos (hcause.trans hk), if_pos hk, if_pos (decide_eq_true (hcause.trans hk))]
      omega
    · have hk' : l.cause ≠ k := fun h => hk (hcause.symm.trans h)
      rw [due, due, if_neg hk', if_neg hk, if_neg (by simpa using hk')]

/-- Where no two letters go back to the same message, each is due what it can bring about. -/
theorem sum_due {air : Multiset Letter} (h : (air.map (·.cause)).Nodup) {l : Letter}
    (hl : l ∈ air) : (air.map (due l.cause)).sum = l.message.offspring := by
  obtain ⟨rest, rfl⟩ := Multiset.exists_cons_of_mem hl
  rw [Multiset.map_cons, Multiset.nodup_cons] at h
  have hothers : (rest.map (due l.cause)).sum = 0 := by
    apply Multiset.sum_eq_zero
    intro x hx
    obtain ⟨l', hl', rfl⟩ := Multiset.mem_map.1 hx
    refine if_neg fun hsame => h.1 ?_
    rw [← hsame]
    exact Multiset.mem_map_of_mem _ hl'
  rw [Multiset.map_cons, Multiset.sum_cons, hothers]
  exact if_pos rfl

/-- No more replies go back to a message than it can bring about. -/
theorem Run.replies_le (h : c.Run log c') (hd : c.Dataless)
    (hcauses : (c.air.map (·.cause)).Nodup) {l : Letter} (hl : l ∈ c.air) :
    (log.flatMap (·.replies)).countP (·.cause = l.cause) ≤ l.message.offspring := by
  have hpaid := h.paid hd _ _ fun _ => countP_le_due l.cause
  rw [sum_due hcauses hl] at hpaid
  rw [List.countP_flatMap]
  exact Nat.le_of_add_right_le hpaid

/-- Deliveries without an end would make runs of any length. -/
theorem exists_run_of_steps {f : Nat → Exchange} (hf : ∀ k, ∃ d, (f k).Step d (f (k + 1)))
    (k : Nat) : ∃ log, (f 0).Run log (f k) ∧ log.length = k := by
  induction k with
  | zero => exact ⟨[], .start, rfl⟩
  | succ k ih =>
    obtain ⟨log, hrun, hlen⟩ := ih
    obtain ⟨d, hs⟩ := hf k
    exact ⟨d :: log, .step hrun hs, by rw [List.length_cons, hlen]⟩

end Run

/-- **Exchanges die out.**  Whatever messages but data are on their way between nodes in whatever
    states, and in whatever order they are delivered, nobody ever sends data.  When the messages
    are told apart, a beacon brings about two more at most, a request one, and an announcement or an
    answer none.  There are no more deliveries than three for each beacon, two for each request and
    one for each other message, and no deliveries without an end. -/
theorem dies_out {c : Exchange} (hd : c.Dataless) :
    (∀ log c', c.Run log c' →
      c'.Dataless ∧
        (∀ d ∈ log, ∀ out ∈ d.sends, out.message.kind ≠ .data) ∧
        ((c.air.map (·.cause)).Nodup → ∀ l ∈ c.air,
          (log.flatMap (·.replies)).countP (·.cause = l.cause) ≤ l.message.offspring) ∧
        log.length ≤ (c.air.map fun l => l.message.offspring + 1).sum) ∧
      ¬ ∃ f : Nat → Exchange, f 0 = c ∧ ∀ k, ∃ d, (f k).Step d (f (k + 1)) := by
  constructor
  · intro log c' h
    obtain ⟨hd', hlog⟩ := h.dataless hd
    exact ⟨hd', fun d hmem => (hlog d hmem).dataless,
      fun hcauses l hl => h.replies_le hd hcauses hl, h.length_le hd⟩
  · rintro ⟨f, rfl, hf⟩
    obtain ⟨log, hrun, hlen⟩ :=
      exists_run_of_steps hf (((f 0).air.map fun l => l.message.offspring + 1).sum + 1)
    have hle := hrun.length_le hd
    omega

/-- A node that holds a token. -/
def informed : Node := { Node.fresh (Network.addressOf 0) {} with token := ⟨60, 6⟩ }

/-- A node that has been switched on just now. -/
def newcomer : Node := .fresh (Network.addressOf 1) {}

/-- The beacon of the first node is on its way to the second one. -/
def greeting : Exchange where
  nodes := [informed, newcomer]
  distinct := by decide
  air := {⟨0, Network.addressOf 0, Network.addressOf 1, .beacon 6⟩}

/-- The newcomer asks for the token and gets it. -/
theorem exists_run_greeting :
    ∃ log c', greeting.Run log c' ∧ c'.air = 0 ∧ log.length = 3 := by
  let l₁ : Letter := ⟨0, Network.addressOf 0, Network.addressOf 1, .beacon 6⟩
  let l₂ : Letter := ⟨0, Network.addressOf 1, Network.addressOf 0, .control 0⟩
  let l₃ : Letter := ⟨0, Network.addressOf 0, Network.addressOf 1, .answer ⟨60, 6⟩⟩
  let asking := reaction newcomer l₁ 0
  let answering := reaction informed l₂ 0
  let accepting := reaction asking.node l₃ 0
  let c₁ := greeting.follow l₁ asking rfl
  let c₂ := c₁.follow l₂ answering rfl
  let c₃ := c₂.follow l₃ accepting rfl
  have hl₁ : l₁ ∈ greeting.air := by decide
  have hl₂ : l₂ ∈ c₁.air := by decide
  have hl₃ : l₃ ∈ c₂.air := by decide
  have h₁ : greeting.Step ⟨l₁, asking.sends⟩ c₁ :=
    .deliver hl₁ (List.mem_cons_of_mem _ List.mem_cons_self) rfl 0
  have h₂ : c₁.Step ⟨l₂, answering.sends⟩ c₂ := .deliver hl₂ List.mem_cons_self rfl 0
  have h₃ : c₂.Step ⟨l₃, accepting.sends⟩ c₃ :=
    .deliver hl₃ (List.mem_cons_of_mem _ List.mem_cons_self) rfl 0
  exact ⟨_, c₃, .step (.step (.step .start h₁) h₂) h₃, by decide, rfl⟩

/-- All three deliveries are made that the beacon can bring about, and nothing is left. -/
theorem dies_out_greeting : greeting.Dataless ∧ (greeting.air.map (·.cause)).Nodup ∧
    ∃ log c', greeting.Run log c' ∧ c'.air = 0 ∧ log.length = 3 ∧
      (∀ l ∈ greeting.air,
        (log.flatMap (·.replies)).countP (·.cause = l.cause) ≤ l.message.offspring) ∧
      log.length ≤ (greeting.air.map fun l => l.message.offspring + 1).sum := by
  have hd : greeting.Dataless := by
    intro l hl
    rw [Multiset.mem_singleton.1 hl]
    nofun
  have hcauses : (greeting.air.map (·.cause)).Nodup := by decide
  obtain ⟨log, c', hrun, hair, hlen⟩ := exists_run_greeting
  obtain ⟨hall, _⟩ := dies_out hd
  obtain ⟨_, _, hreplies, hle⟩ := hall log c' hrun
  exact ⟨hd, hcauses, log, c', hrun, hair, hlen, hreplies hcauses, hle⟩

end Exchange

end TokenMesh
