import Mathlib.Logic.Relation
import TokenMesh.Proofs.Network.Agreement
import TokenMesh.Proofs.Network.Delivery

namespace TokenMesh

/-!
# Reconciliation of two nodes

Two nodes that hold tokens of different versions tell each other their versions and answer each
other.  Nothing is assumed about the way in between: whatever has been sent may be delivered at
any later moment, in any order, any number of times or never.  All messages that were ever sent
are therefore kept, and a reply is made from what the addressee holds at the delivery.

* `Duo`: two nodes, one of which starts with the newer token, and all that they have sent;
* `Duo.Step`, `Duo.Run`: beacons and deliveries in any order;
* `Duo.Settling`: what holds at every moment, whatever the order was;
* `Duo.Chain`: deliveries each of which is of a reply to the one before;
* `Duo.reconciliation`: the newer token is never lost, and it has arrived when a chain of replies
  ends with it.
-/

/-- The nodes of a pair, of which one starts with the newer token. -/
inductive Side
  | ahead
  | behind
deriving DecidableEq, Repr

namespace Side

/-- The other one of the pair. -/
def other : Side → Side
  | ahead => behind
  | behind => ahead

end Side

/-- A message that one node of a pair has sent. -/
structure Parcel where
  sender : Side
  out : Outbound
deriving DecidableEq, Repr

/-- Who has sent a message, and of which kind it is. -/
def Parcel.label (p : Parcel) : Side × Message.Kind := (p.sender, p.out.message.kind)

/-- Two nodes in radio range of each other, and all messages that they have sent so far. -/
structure Duo where
  ahead : Node
  behind : Node
  sent : List Parcel := []
deriving DecidableEq, Repr

namespace Outbound

/-- Whether a message is for the node at an address. -/
def reaches : Outbound → Address → Bool
  | unicast peer _, address => peer = address
  | multicast _, _ => true

end Outbound

namespace Duo

/-! ### Steps -/

/-- The node on a side. -/
def node (d : Duo) : Side → Node
  | .ahead => d.ahead
  | .behind => d.behind

/-- A node of the pair has reacted. -/
def follow (d : Duo) (s : Side) (r : Reaction) : Duo :=
  match s with
  | .ahead => { d with ahead := r.node, sent := d.sent ++ r.sends.map (⟨.ahead, ·⟩) }
  | .behind => { d with behind := r.node, sent := d.sent ++ r.sends.map (⟨.behind, ·⟩) }

/-- What the addressee makes of a message. -/
def reply (d : Duo) (p : Parcel) (now : Nat) : Reaction :=
  (d.node p.sender.other).handleDatagram (d.node p.sender).address p.out.message.encode now

/-- A message that was sent at some time before is delivered, and its addressee sends replies. -/
def Delivery (d : Duo) (p : Parcel) (replies : List Outbound) (d' : Duo) : Prop :=
  p ∈ d.sent ∧ p.out.reaches (d.node p.sender.other).address = true ∧
    ∃ now, replies = (d.reply p now).sends ∧ d' = d.follow p.sender.other (d.reply p now)

/-- A beacon timer fires, or a message is delivered. -/
inductive Step (d : Duo) : Duo → Prop
  | beacon (s : Side) (now : Nat) : Step d (d.follow s ((d.node s).handle .beaconTimer now))
  | delivery {p : Parcel} {replies : List Outbound} {d' : Duo} (h : d.Delivery p replies d') :
      Step d d'

/-- Any steps in any order. -/
def Run : Duo → Duo → Prop := Relation.ReflTransGen Step

/-- Two nodes with power that have not sent anything yet, one of them with the newer token. -/
structure Initial (d : Duo) : Prop where
  apart : d.ahead.address ≠ d.behind.address
  aheadUp : d.ahead.isDown = false
  behindUp : d.behind.isDown = false
  newer : d.behind.token.version < d.ahead.token.version
  sent : d.sent = []

/-! ### What holds at every moment -/

/-- The two nodes after any steps: `a` is the newer token and `b` the one that the other node
    started with. -/
structure Settling (a b : Token) (d : Duo) : Prop where
  apart : d.ahead.address ≠ d.behind.address
  aheadUp : d.ahead.isDown = false
  behindUp : d.behind.isDown = false
  newer : b = a ∨ b.version < a.version
  aheadToken : d.ahead.token = a
  behindToken : d.behind.token = b ∨ d.behind.token = a
  /-- The node with the newer token tells its version and hands over the token. -/
  fromAhead : ∀ out, ⟨.ahead, out⟩ ∈ d.sent →
    out = .multicast (.beacon a.version) ∨ ∃ peer, out = .unicast peer (.answer a)
  /-- The other one tells versions that are not newer and asks. -/
  fromBehind : ∀ out, ⟨.behind, out⟩ ∈ d.sent → ∃ v ≤ a.version,
    out = .multicast (.beacon v) ∨ ∃ peer, out = .unicast peer (.control v)

variable {a b : Token} {d d' : Duo}

/-- At the start nothing has been sent. -/
theorem Initial.settling (h : d.Initial) : d.Settling d.ahead.token d.behind.token where
  apart := h.apart
  aheadUp := h.aheadUp
  behindUp := h.behindUp
  newer := .inr h.newer
  aheadToken := rfl
  behindToken := .inl rfl
  fromAhead := by simp [h.sent]
  fromBehind := by simp [h.sent]

namespace Settling

/-- The node behind never holds more than the newer version. -/
theorem version_le (h : d.Settling a b) : d.behind.token.version ≤ a.version := by
  rcases h.behindToken with hb | hb
  · rw [hb]
    rcases h.newer with rfl | hlt
    · exact Int16.le_refl _
    · exact Int16.le_of_lt hlt
  · rw [hb]
    exact Int16.le_refl _

/-- Whichever it holds, it takes over the newer token. -/
theorem accept_eq (h : d.Settling a b) : d.behind.token.accept a = a := by
  have hself : a.accept a = a := Token.accept_of_not_lt Int16.lt_irrefl
  rcases h.behindToken with hb | hb
  · rw [hb]
    rcases h.newer with rfl | hlt
    · exact hself
    · exact Token.accept_of_lt hlt
  · rw [hb]
    exact hself

/-- A reaction of the node with the newer token. -/
theorem follow_ahead (h : d.Settling a b) {r : Reaction} (hl : r.Lawful d.ahead)
    (hs : r.Steady d.ahead) (ht : r.node.token = a)
    (hsends : ∀ out ∈ r.sends,
      out = .multicast (.beacon a.version) ∨ ∃ peer, out = .unicast peer (.answer a)) :
    (d.follow .ahead r).Settling a b where
  apart := by
    show r.node.address ≠ _
    rw [hl.address]
    exact h.apart
  aheadUp := hs.isDown.trans h.aheadUp
  behindUp := h.behindUp
  newer := h.newer
  aheadToken := ht
  behindToken := h.behindToken
  fromAhead out hout := by
    rcases List.mem_append.1 hout with hout | hout
    · exact h.fromAhead out hout
    · obtain ⟨out', hout', heq⟩ := List.mem_map.1 hout
      cases heq
      exact hsends _ hout'
  fromBehind out hout := by
    rcases List.mem_append.1 hout with hout | hout
    · exact h.fromBehind out hout
    · obtain ⟨out', _, heq⟩ := List.mem_map.1 hout
      cases heq

/-- A reaction of the other node. -/
theorem follow_behind (h : d.Settling a b) {r : Reaction} (hl : r.Lawful d.behind)
    (hs : r.Steady d.behind) (ht : r.node.token = b ∨ r.node.token = a)
    (hsends : ∀ out ∈ r.sends, ∃ v ≤ a.version,
      out = .multicast (.beacon v) ∨ ∃ peer, out = .unicast peer (.control v)) :
    (d.follow .behind r).Settling a b where
  apart := by
    show _ ≠ r.node.address
    rw [hl.address]
    exact h.apart
  aheadUp := h.aheadUp
  behindUp := hs.isDown.trans h.behindUp
  newer := h.newer
  aheadToken := h.aheadToken
  behindToken := ht
  fromAhead out hout := by
    rcases List.mem_append.1 hout with hout | hout
    · exact h.fromAhead out hout
    · obtain ⟨out', _, heq⟩ := List.mem_map.1 hout
      cases heq
  fromBehind out hout := by
    rcases List.mem_append.1 hout with hout | hout
    · exact h.fromBehind out hout
    · obtain ⟨out', hout', heq⟩ := List.mem_map.1 hout
      cases heq
      exact hsends _ hout'

/-! ### The five things that can happen -/

/-- A node tells its version. -/
theorem beacon (h : d.Settling a b) (s : Side) (now : Nat) :
    (d.follow s ((d.node s).handle .beaconTimer now)).Settling a b := by
  cases s with
  | ahead =>
    have ht : (d.ahead.handle .beaconTimer now).node.token = d.ahead.token :=
      Node.token_handle_timer .beacon now h.aheadUp
    refine h.follow_ahead (Node.lawful_handle ..) (Node.steady_handle _ (by simp) _)
      (ht.trans h.aheadToken) ?_
    show ∀ out ∈ (d.ahead.handle .beaconTimer now).sends, _
    rw [Node.sends_beaconTimer h.aheadUp, h.aheadToken]
    simp
  | behind =>
    have ht : (d.behind.handle .beaconTimer now).node.token = d.behind.token :=
      Node.token_handle_timer .beacon now h.behindUp
    refine h.follow_behind (Node.lawful_handle ..) (Node.steady_handle _ (by simp) _)
      (by rw [node, ht]; exact h.behindToken) ?_
    show ∀ out ∈ (d.behind.handle .beaconTimer now).sends, _
    rw [Node.sends_beaconTimer h.behindUp]
    simpa using h.version_le

/-- The node behind hears of the newer version, and asks for it unless it holds that token. -/
theorem sends_of_beacon_to_behind (h : d.Settling a b) (now : Nat) :
    d.behind.token = a ∧ (d.reply ⟨.ahead, .multicast (.beacon a.version)⟩ now).sends = [] ∨
      d.behind.token = b ∧ (d.reply ⟨.ahead, .multicast (.beacon a.version)⟩ now).sends =
        [.unicast d.ahead.address (.control b.version)] := by
  by_cases ha : d.behind.token = a
  · refine .inl ⟨ha, ?_⟩
    rw [← ha]
    exact Node.sends_of_same_beacon h.behindUp h.apart now
  · have hb : d.behind.token = b := h.behindToken.resolve_right ha
    have hlt : d.behind.token.version < a.version := by
      rw [hb]
      exact h.newer.resolve_left fun heq => ha (hb.trans heq)
    refine .inr ⟨hb, ?_⟩
    rw [← hb]
    exact Node.sends_of_beacon h.behindUp h.apart hlt now

/-- The node with the newer token hears of a version, and pushes the token unless it is its own. -/
theorem sends_of_beacon_to_ahead (h : d.Settling a b) {v : Int16} (hv : v ≤ a.version)
    (now : Nat) :
    v = a.version ∧ (d.reply ⟨.behind, .multicast (.beacon v)⟩ now).sends = [] ∨
      v < a.version ∧ (d.reply ⟨.behind, .multicast (.beacon v)⟩ now).sends =
        [.unicast d.behind.address (.answer a)] := by
  rcases Int16.lt_or_eq_of_le hv with hlt | rfl
  · refine .inr ⟨hlt, ?_⟩
    rw [← h.aheadToken] at hlt ⊢
    exact Node.sends_of_older_beacon h.aheadUp h.apart.symm hlt now
  · refine .inl ⟨rfl, ?_⟩
    rw [← h.aheadToken]
    exact Node.sends_of_same_beacon h.aheadUp h.apart.symm now

/-- The node with the newer token is asked, and answers with it. -/
theorem sends_of_control_to_ahead (h : d.Settling a b) (peer : Address) (v : Int16) (now : Nat) :
    (d.reply ⟨.behind, .unicast peer (.control v)⟩ now).sends =
      [.unicast d.behind.address (.answer a)] := by
  rw [← h.aheadToken]
  exact Node.sends_of_control h.aheadUp h.apart.symm v now

/-- The newer token arrives, and the node behind takes it over in silence. -/
theorem recover_to_behind (h : d.Settling a b) (peer : Address) (now : Nat) :
    (d.reply ⟨.ahead, .unicast peer (.answer a)⟩ now).sends = [] ∧
      (d.reply ⟨.ahead, .unicast peer (.answer a)⟩ now).node.token = a :=
  ⟨Node.sends_of_recover h.behindUp h.apart a now,
    (Node.token_of_recover h.behindUp h.apart a now).trans h.accept_eq⟩

/-- A delivery, of whatever was sent before. -/
theorem delivery (h : d.Settling a b) {p : Parcel} {replies : List Outbound}
    (hd : d.Delivery p replies d') : d'.Settling a b := by
  obtain ⟨hsent, _, now, _, rfl⟩ := hd
  obtain ⟨sender, out⟩ := p
  have hl := Node.lawful_handleDatagram (d.node sender.other) (d.node sender).address
    out.message.encode now
  have hs := Node.steady_handleDatagram (d.node sender.other) (d.node sender).address
    out.message.encode now
  cases sender with
  | ahead =>
    refine h.follow_behind hl hs ?_ ?_
    · -- the token is that of the answer, or the beacon has left it alone
      rcases h.fromAhead out hsent with rfl | ⟨peer, rfl⟩
      · have ht : (d.reply ⟨.ahead, .multicast (.beacon a.version)⟩ now).node.token =
          d.behind.token := Node.token_of_tokenless _ _ rfl now
        rw [ht]
        exact h.behindToken
      · exact .inr (h.recover_to_behind peer now).2
    · rcases h.fromAhead out hsent with rfl | ⟨peer, rfl⟩
      · rcases h.sends_of_beacon_to_behind now with ⟨_, hnone⟩ | ⟨hb, hask⟩
        · rw [hnone]
          simp
        · rw [hask, ← hb]
          simpa using h.version_le
      · rw [(h.recover_to_behind peer now).1]
        simp
  | behind =>
    obtain ⟨v, hv, hout⟩ := h.fromBehind out hsent
    refine h.follow_ahead hl hs ?_ ?_
    · have hm : out.message.token? = none := by
        rcases hout with rfl | ⟨peer, rfl⟩ <;> rfl
      exact (Node.token_of_tokenless _ _ hm now).trans h.aheadToken
    · rcases hout with rfl | ⟨peer, rfl⟩
      · rcases h.sends_of_beacon_to_ahead hv now with ⟨_, hnone⟩ | ⟨_, hpush⟩
        · rw [hnone]
          simp
        · rw [hpush]
          simp
      · rw [h.sends_of_control_to_ahead peer v now]
        simp

/-- Nothing else can happen. -/
theorem step (h : d.Settling a b) (hstep : Step d d') : d'.Settling a b := by
  cases hstep with
  | beacon s now => exact h.beacon s now
  | delivery hd => exact h.delivery hd

end Settling

/-- What holds of the pair holds after any steps in any order. -/
theorem settling_of_run (h : d.Settling a b) (hrun : Run d d') : d'.Settling a b := by
  induction hrun with
  | refl => exact h
  | tail _ hstep ih => exact ih.step hstep

/-- A node that has taken over the newer token keeps it. -/
theorem token_of_run (h : d.Settling a b) (ht : d.behind.token = a) (hrun : Run d d') :
    d'.behind.token = a :=
  -- the node starts over, as it were, with the newer token for its first one
  have hset : d.Settling a a := { h with newer := .inl rfl, behindToken := .inl ht }
  (settling_of_run hset hrun).behindToken.elim id id

/-! ### Chains of replies -/

/-- Deliveries each of which is of a reply to the one before, with any steps in between. -/
inductive Chain : Duo → List Parcel → Duo → Prop
  | last {d e e' d' : Duo} {p : Parcel} {replies : List Outbound} (before : Run d e)
      (delivery : e.Delivery p replies e') (after : Run e' d') : Chain d [p] d'
  | next {d e e' d' : Duo} {p : Parcel} {replies : List Outbound} {out : Outbound}
      {rest : List Parcel} (before : Run d e) (delivery : e.Delivery p replies e')
      (reply : out ∈ replies) (after : Chain e' (⟨p.sender.other, out⟩ :: rest) d') :
      Chain d (p :: ⟨p.sender.other, out⟩ :: rest) d'

/-- A chain of replies that ends with an answer of the node ahead has brought the newer token. -/
theorem token_of_chain {ps : List Parcel} (h : d.Settling a b) (hc : Chain d ps d')
    (hlast : ∃ p ∈ ps.getLast?, p.label = (.ahead, .recover)) : d'.behind.token = a := by
  induction hc with
  | @last d e e' d' p replies hbefore hd hafter =>
    have he := settling_of_run h hbefore
    obtain ⟨p', hp', hlabel⟩ := hlast
    obtain rfl : p = p' := by simpa using hp'
    refine token_of_run (he.delivery hd) ?_ hafter
    obtain ⟨hsent, _, now, _, rfl⟩ := hd
    obtain ⟨sender, out⟩ := p
    obtain ⟨rfl, hkind⟩ := Prod.mk.inj hlabel
    rcases he.fromAhead out hsent with rfl | ⟨peer, rfl⟩
    · cases hkind
    · exact (he.recover_to_behind peer now).2
  | next hbefore hd _ _ ih =>
    refine ih ((settling_of_run h hbefore).delivery hd) ?_
    simpa only [List.getLast?_cons_cons] using hlast

/-- Two nodes reconcile under any order of messages.  The newer token stays where it is, and the
    other node holds its first token until it takes over the newer one for good.  Only the node
    ahead hands over a token, always its own, and only the other one asks.  The token has arrived
    as soon as a beacon of the node ahead, the request that it caused and the answer to that, or
    a beacon of the other one and the answer pushed in return, have all been delivered. -/
theorem reconciliation {start d : Duo} (h : start.Initial) (hrun : Run start d) :
    d.ahead.token = start.ahead.token ∧
      (d.behind.token = start.behind.token ∨ d.behind.token = d.ahead.token) ∧
      (d.behind.token = d.ahead.token → ∀ e, Run d e → e.behind.token = d.ahead.token) ∧
      (∀ p ∈ d.sent, p.out.message.kind = .recover →
        p.sender = .ahead ∧ p.out.message = .answer d.ahead.token) ∧
      (∀ p ∈ d.sent, p.out.message.kind = .control → p.sender = .behind) ∧
      ∀ ps, Chain start ps d →
        (ps.map Parcel.label = [(.ahead, .beacon), (.behind, .control), (.ahead, .recover)] ∨
          ps.map Parcel.label = [(.behind, .beacon), (.ahead, .recover)]) →
        d.behind.token = d.ahead.token := by
  have hset := settling_of_run h.settling hrun
  rw [hset.aheadToken]
  refine ⟨rfl, hset.behindToken, fun ht e he => token_of_run hset ht he, ?_, ?_, ?_⟩
  · rintro ⟨_ | _, out⟩ hp hkind
    · rcases hset.fromAhead out hp with rfl | ⟨peer, rfl⟩
      · cases hkind
      · exact ⟨rfl, rfl⟩
    · obtain ⟨v, _, rfl | ⟨peer, rfl⟩⟩ := hset.fromBehind out hp <;> cases hkind
  · rintro ⟨_ | _, out⟩ hp hkind
    · rcases hset.fromAhead out hp with rfl | ⟨peer, rfl⟩ <;> cases hkind
    · rfl
  · intro ps hc hlabels
    -- both chains end with an answer of the node ahead
    have hlast : (ps.map Parcel.label).getLast? = some (.ahead, .recover) := by
      rcases hlabels with hl | hl <;> rw [hl] <;> rfl
    rw [List.getLast?_map, Option.map_eq_some_iff] at hlast
    exact token_of_chain h.settling hc hlast

/-- A node that has been switched on just now, beside one that holds a token. -/
def newcomer : Duo where
  ahead := { Node.fresh (Network.addressOf 0) {} with token := ⟨60, 6⟩ }
  behind := .fresh (Network.addressOf 1) {}

/-- The beacon of the node ahead, and what follows from it. -/
def pull : List Parcel :=
  [⟨.ahead, .multicast (.beacon 6)⟩, ⟨.behind, .unicast (Network.addressOf 0) (.control 0)⟩,
    ⟨.ahead, .unicast (Network.addressOf 1) (.answer ⟨60, 6⟩)⟩]

/-- The chain of replies in which the newcomer asks for the token. -/
theorem chain_newcomer : ∃ d, Run newcomer d ∧ Chain newcomer pull d := by
  let d₁ := newcomer.follow .ahead (newcomer.ahead.handle .beaconTimer 0)
  let d₂ := d₁.follow .behind (d₁.reply ⟨.ahead, .multicast (.beacon 6)⟩ 0)
  let d₃ := d₂.follow .ahead
    (d₂.reply ⟨.behind, .unicast (Network.addressOf 0) (.control 0)⟩ 0)
  let d₄ := d₃.follow .behind
    (d₃.reply ⟨.ahead, .unicast (Network.addressOf 1) (.answer ⟨60, 6⟩)⟩ 0)
  have h₁ : Step newcomer d₁ := .beacon .ahead 0
  have h₂ : d₁.Delivery ⟨.ahead, .multicast (.beacon 6)⟩
      [.unicast (Network.addressOf 0) (.control 0)] d₂ := ⟨by decide, rfl, 0, by decide, rfl⟩
  have h₃ : d₂.Delivery ⟨.behind, .unicast (Network.addressOf 0) (.control 0)⟩
      [.unicast (Network.addressOf 1) (.answer ⟨60, 6⟩)] d₃ :=
    ⟨by decide, by decide, 0, by decide, rfl⟩
  have h₄ : d₃.Delivery ⟨.ahead, .unicast (Network.addressOf 1) (.answer ⟨60, 6⟩)⟩ [] d₄ :=
    ⟨by decide, by decide, 0, by decide, rfl⟩
  refine ⟨d₄, ?_, ?_⟩
  · exact ((Relation.ReflTransGen.single h₁).tail (.delivery h₂)).tail (.delivery h₃) |>.tail
      (.delivery h₄)
  · exact .next (.single h₁) h₂ List.mem_cons_self
      (.next .refl h₃ List.mem_cons_self (.last .refl h₄ .refl))

/-- The newcomer ends with the token of the other node. -/
theorem reconciliation_newcomer : newcomer.Initial ∧ ∃ d, Run newcomer d ∧
    Chain newcomer pull d ∧ d.behind.token = d.ahead.token ∧ d.ahead.token = ⟨60, 6⟩ := by
  have h : newcomer.Initial := ⟨by decide, rfl, rfl, by decide, rfl⟩
  obtain ⟨d, hrun, hc⟩ := chain_newcomer
  obtain ⟨hahead, _, _, _, _, harrived⟩ := reconciliation h hrun
  exact ⟨h, d, hrun, hc, harrived pull hc (.inl rfl), hahead⟩

end Duo

end TokenMesh
