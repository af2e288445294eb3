import TokenMesh.Proofs.Node.Lifetime
import TokenMesh.Proofs.Node.Outage

namespace TokenMesh

/-!
# Offers

Data and answers offer a token to whoever receives them, and a node with power takes over what is
strictly newer than its own.  So its token only ever makes way for a newer one, which was offered
or is the node's own next one, until a restart takes it back to where it started.  And what a node
holds after any number of offers does not depend on their order, nor on how often each is made.

* `Token.EarliestNewest`: of a list of tokens, the earliest of those with the newest version;
* `Token.earliestNewest_foldl_accept`: that is what is left of offers made one after another;
* `Operation.offer?`: who offers which token;
* `Node.token_perform_cases`: what any operation does to the token;
* `Node.token_evolution`: the tokens that a node holds one after another;
* `Node.newest_token_wins`: what a node holds after a list of offers.
-/

namespace Token

/-! ### The newest of some tokens -/

/-- Of a list of tokens, one that is newer than all before it, while none after it is newer. -/
def EarliestNewest (t : Token) (ts : List Token) : Prop :=
  ∃ before after, ts = before ++ t :: after ∧
    (∀ u ∈ before, u.version < t.version) ∧ ∀ u ∈ after, u.version ≤ t.version

/-- Among some tokens a version stands for one value. -/
def Consistent (ts : List Token) : Prop :=
  ∀ t ∈ ts, ∀ u ∈ ts, t.version = u.version → t.value = u.value

namespace EarliestNewest

variable {t : Token} {ts : List Token}

theorem mem (h : t.EarliestNewest ts) : t ∈ ts := by
  obtain ⟨before, after, rfl, _⟩ := h
  simp

/-- No token in the list is newer. -/
theorem version_le (h : t.EarliestNewest ts) {u : Token} (hu : u ∈ ts) :
    u.version ≤ t.version := by
  obtain ⟨before, after, rfl, hbefore, hafter⟩ := h
  rcases List.mem_append.1 hu with hu | hu
  · exact Int16.le_of_lt (hbefore u hu)
  · rcases List.mem_cons.1 hu with rfl | hu
    · exact Int16.le_refl _
    · exact hafter u hu

/-- Where a version stands for one value, there is one token only of the newest version. -/
theorem eq_of_newest (h : t.EarliestNewest ts) (hc : Consistent ts) {u : Token} (hu : u ∈ ts)
    (hnewest : ∀ v ∈ ts, v.version ≤ u.version) : u = t := by
  have hversion : u.version = t.version := Int16.le_antisymm (h.version_le hu) (hnewest t h.mem)
  have hvalue : u.value = t.value := hc u hu t h.mem hversion
  cases u
  cases t
  cases hversion
  cases hvalue
  rfl

end EarliestNewest

/-- Offered tokens that are taken over one after another, if they are newer, leave the earliest of
    the newest. -/
theorem earliestNewest_foldl_accept (held : Token) (offered : List Token) :
    (offered.foldl accept held).EarliestNewest (held :: offered) := by
  induction offered generalizing held with
  | nil => exact ⟨[], [], rfl, by simp, by simp⟩
  | cons t ts ih =>
    rw [List.foldl_cons]
    have hrest := ih (held.accept t)
    by_cases hlt : held.version < t.version
    · -- the offer is taken over, and the token held before is older than all that is kept later
      rw [accept_of_lt hlt] at hrest ⊢
      have hle := hrest.version_le List.mem_cons_self
      obtain ⟨before, after, hsplit, hbefore, hafter⟩ := hrest
      refine ⟨held :: before, after, by rw [hsplit]; rfl, ?_, hafter⟩
      intro u hu
      rcases List.mem_cons.1 hu with rfl | hu
      · exact Int16.lt_of_lt_of_le hlt hle
      · exact hbefore u hu
    · rw [accept_of_not_lt hlt] at hrest ⊢
      have hle : t.version ≤ held.version := Int16.not_lt.1 hlt
      generalize ts.foldl accept held = final at hrest ⊢
      obtain ⟨_ | ⟨first, before⟩, after, hsplit, hbefore, hafter⟩ := hrest
      · -- the token held stays to the end
        obtain ⟨rfl, rfl⟩ := List.cons.inj hsplit
        refine ⟨[], t :: ts, rfl, by simp, ?_⟩
        intro u hu
        rcases List.mem_cons.1 hu with rfl | hu
        · exact hle
        · exact hafter u hu
      · -- it makes way for a newer one later, which is newer than this offer, too
        obtain ⟨rfl, rfl⟩ := List.cons.inj hsplit
        refine ⟨held :: t :: before, after, rfl, ?_, hafter⟩
        have hheld := hbefore held List.mem_cons_self
        intro u hu
        rcases List.mem_cons.1 hu with rfl | hu
        · exact hheld
        · rcases List.mem_cons.1 hu with rfl | hu
          · exact Int16.lt_of_le_of_lt hle hheld
          · exact hbefore u (List.mem_cons_of_mem _ hu)

/-! ### Tokens that come about -/

/-- A token that a node may hold: no version is negative, and the first one has one value only. -/
structure Proper (t : Token) : Prop where
  nonneg : 0 ≤ t.version
  value : t.version = 0 → t.value = 0

theorem proper_initial : initial.Proper := ⟨by decide, fun _ => rfl⟩

/-- Whatever is newer than such a token is such a token. -/
theorem Proper.of_lt {t u : Token} (h : t.Proper) (hlt : t.version < u.version) : u.Proper := by
  have hpos : 0 < u.version := Int16.lt_of_le_of_lt h.nonneg hlt
  refine ⟨Int16.le_of_lt hpos, fun hzero => ?_⟩
  rw [hzero] at hpos
  cases hpos

end Token

namespace Operation

/-- Who offers which token by an operation: data and answers carry one. -/
def offer? : Operation → Option (Address × Token)
  | event (.inbound sender m) _ => m.token?.map (sender, ·)
  | datagram sender bytes _ =>
    match Message.decode bytes with
    | .ok m => m.token?.map (sender, ·)
    | .error _ => none
  | _ => none

/-- The token that an operation offers. -/
def offered? (op : Operation) : Option Token := op.offer?.map (·.2)

/-- Somebody else offers a token to the node at an address. -/
def OffersTo (op : Operation) (a : Address) : Prop :=
  ∃ sender t, op.offer? = some (sender, t) ∧ sender ≠ a

end Operation

namespace Node

/-! ### One operation -/

section offers

variable {n : Node} {sender : Address} {t : Token}

/-- A node takes over the newer of its token and the one that a message carries. -/
theorem token_onMessage {m : Message} (h : m.token? = some t) (now : Nat) :
    (n.onMessage sender m now).node.token = n.token.accept t := by
  cases m with
  | data value version hops =>
    obtain rfl := Option.some.inj h
    exact token_onData n sender ⟨value, version⟩ hops
  | recover value version =>
    obtain rfl := Option.some.inj h
    exact token_onRecover n sender ⟨value, version⟩
  | announce => cases h
  | beacon version => cases h
  | control version => cases h

/-- What offers a token is a message that carries it, from whoever makes the offer. -/
theorem message_of_offer {op : Operation} (h : op.offer? = some (sender, t)) :
    ∃ m now, m.token? = some t ∧
      (n.perform op).1 = (n.onInbound sender m now).swept now := by
  cases op with
  | event e now =>
    cases e with
    | inbound sender' m =>
      obtain ⟨t', ht, heq⟩ := Option.map_eq_some_iff.1 h
      cases heq
      exact ⟨m, now, ht, rfl⟩
    | _ => cases h
  | datagram sender' bytes now =>
    simp only [Operation.offer?] at h
    split at h
    · next m hdec =>
      obtain ⟨t', ht, heq⟩ := Option.map_eq_some_iff.1 h
      cases heq
      refine ⟨m, now, ht, ?_⟩
      simp only [perform, handleDatagram, hdec]
      rfl
    · cases h
  | _ => cases h

/-- A node with power takes over the newer of its token and one that somebody else offers. -/
theorem token_of_offer {op : Operation} (h : op.offer? = some (sender, t))
    (hup : n.isDown = false) (hne : sender ≠ n.address) :
    (n.perform op).1.node.token = n.token.accept t := by
  obtain ⟨m, now, hm, hop⟩ := n.message_of_offer h
  rw [hop, onInbound_of_up hup hne]
  exact token_onMessage hm now

/-- An offer takes no power, nor does it give power back. -/
theorem isDown_of_offer {op : Operation} (h : op.offer? = some (sender, t)) :
    (n.perform op).1.node.isDown = n.isDown := by
  obtain ⟨m, now, _, hop⟩ := n.message_of_offer h
  rw [hop]
  exact (steady_swept (n.steady_onInbound sender m now) now).isDown

end offers

/-- The restart timer of a node without power brings back the token that it started with. -/
theorem token_of_restart {n : Node} {op : Operation} (hop : op.isRestart = true)
    (hd : n.isDown = true) : (n.perform op).1.node.token = .initial := by
  obtain ⟨now, rfl⟩ : ∃ now, op = .event .restartTimer now := by
    unfold Operation.isRestart at hop
    split at hop
    · exact ⟨_, rfl⟩
    · cases hop
  show (n.onRestartTimer.node.sweep now).token = _
  rw [onRestartTimer_of_down hd]
  rfl

/-- The arrival of a message keeps the token, or puts the newer one that the message offers in its
    place. -/
theorem token_of_arrival {n : Node} {op : Operation} {sender : Address} {m : Message} {now : Nat}
    (hop : (n.perform op).1 = (n.onInbound sender m now).swept now)
    (ho : op.offer? = m.token?.map (sender, ·)) :
    (n.perform op).1.node.token = n.token ∨
      n.token.version < (n.perform op).1.node.token.version ∧
        ∃ sender, op.offer? = some (sender, (n.perform op).1.node.token) := by
  rw [hop, ho]
  refine (n.token_onInbound sender m now).imp_right ?_
  rintro ⟨t, hm, hlt, ht⟩
  have htoken : ((n.onInbound sender m now).swept now).node.token = t := ht
  rw [htoken]
  exact ⟨hlt, sender, by rw [hm]; rfl⟩

/-- An operation keeps the token, or puts a newer one in its place, which was offered by somebody
    or is the node's own next one, unless it is the restart timer of a node without power. -/
theorem token_perform_cases (n : Node) (op : Operation)
    (h : ¬ (op.isRestart = true ∧ n.isDown = true)) :
    (n.perform op).1.node.token = n.token ∨
      n.token.version < (n.perform op).1.node.token.version ∧
        ((∃ sender, op.offer? = some (sender, (n.perform op).1.node.token)) ∨
          ∃ value now, op = .originate value now ∧
            n.token.advance? (value.getD n.token.nextValue) =
              some (n.perform op).1.node.token) := by
  cases op with
  | event e now =>
    cases e with
    | announceTimer => exact .inl n.token_onAnnounceTimer
    | beaconTimer => exact .inl n.token_onBeaconTimer
    | restartTimer =>
      have hup : n.isDown = false := Bool.eq_false_iff.2 fun hd => h ⟨rfl, hd⟩
      exact .inl (token_handle_timer .restart now hup)
    | inbound sender m =>
      have hop : (n.perform (.event (.inbound sender m) now)).1 =
          (n.onInbound sender m now).swept now := rfl
      rcases token_of_arrival hop rfl with hsame | ⟨hlt, hoffer⟩
      · exact .inl hsame
      · exact .inr ⟨hlt, .inl hoffer⟩
  | datagram sender bytes now =>
    cases hdec : Message.decode bytes with
    | ok m =>
      have hop : (n.perform (.datagram sender bytes now)).1 =
          (n.onInbound sender m now).swept now := by
        simp only [perform, handleDatagram, hdec]
        rfl
      have ho : (Operation.datagram sender bytes now).offer? = m.token?.map (sender, ·) := by
        simp only [Operation.offer?, hdec]
      rcases token_of_arrival hop ho with hsame | ⟨hlt, hoffer⟩
      · exact .inl hsame
      · exact .inr ⟨hlt, .inl hoffer⟩
    | error e =>
      left
      simp only [perform, handleDatagram, hdec]
      rfl
  | originate value now =>
    obtain ⟨e, he⟩ | ⟨t, _, _, hadv, ht⟩ := n.originate_cases value now
    · left
      simp only [perform, he]
      rfl
    · right
      simp only [perform, ht, token_launch]
      exact ⟨Token.version_lt_of_advance? hadv, .inr ⟨value, now, rfl, hadv⟩⟩
  | setRole role => exact .inl (n.token_setRole role)
  | powerDown delay now =>
    left
    cases hp : n.powerDown delay now with
    | ok r =>
      simp only [perform, hp]
      rw [(powerDown_eq_ok hp).2.1]
    | error e => simp only [perform, hp]

/-- No token follows the last version: whoever holds it refuses to originate another one. -/
theorem perform_originate_of_last {n : Node} (h : n.token.version = Token.lastVersion)
    (value : Option Int32) (now : Nat) :
    (∃ r, (n.perform (.originate value now)).2 = .refused r) ∧
      (n.perform (.originate value now)).1.node.token = n.token := by
  obtain ⟨e, he⟩ | ⟨t, _, _, hadv, _⟩ := n.originate_cases value now
  · simp only [perform, he]
    exact ⟨⟨e, rfl⟩, rfl⟩
  · have hlast : n.token.advance? (value.getD n.token.nextValue) = none := if_pos h
    rw [hlast] at hadv
    cases hadv

/-! ### The tokens of a node -/

/-- Whatever has been done with a node, it holds a token that it may hold. -/
theorem proper_of_reachable {a : Address} {s : ProtocolSettings} {n : Node}
    (h : Reachable a s n) : n.token.Proper := by
  induction h with
  | fresh => exact Token.proper_initial
  | @perform n _ op ih =>
    by_cases hrestart : op.isRestart = true ∧ n.isDown = true
    · rw [token_of_restart hrestart.1 hrestart.2]
      exact Token.proper_initial
    · rcases n.token_perform_cases op hrestart with hsame | ⟨hlt, _⟩
      · rw [hsame]
        exact ih
      · exact ih.of_lt hlt
  | sweep _ _ ih => exact ih

/-- **The tokens of a node.**  Whatever has been done with a node, and whatever it has received,
    the version of its token is not negative, and the first version goes with the first value.
    The restart timer of a node without power takes the token back to these.  Any other operation
    keeps the token as it is, or puts one with a greater version in its place, which is the one
    that the operation offers, or the next one that an origination is answered with.  What
    somebody else offers to a node with power is taken over if it is newer, and only then.
    Versions do not wrap: at the last one an origination is refused, and the token is kept. -/
theorem token_evolution {a : Address} {s : ProtocolSettings} {n : Node} (h : Reachable a s n) :
    0 ≤ n.token.version ∧ (n.token.version = 0 → n.token.value = 0) ∧
    ∀ op : Operation,
      let after := (n.perform op).1.node.token
      (op.isRestart = true → n.isDown = true → after = ⟨0, 0⟩) ∧
      (¬ (op.isRestart = true ∧ n.isDown = true) →
        after = n.token ∨ n.token.version < after.version ∧
          ((∃ sender, op.offer? = some (sender, after)) ∨
            ∃ value now, op = .originate value now ∧
              after.version.toInt = n.token.version.toInt + 1)) ∧
      (∀ sender t, op.offer? = some (sender, t) → n.isDown = false → sender ≠ a →
        after = if n.token.version < t.version then t else n.token) ∧
      (∀ value now, op = .originate value now → n.token.version = 32767 →
        (∃ r, (n.perform op).2 = .refused r) ∧ after = n.token) := by
  have hproper := proper_of_reachable h
  refine ⟨hproper.nonneg, hproper.value, fun op => ⟨token_of_restart, ?_, ?_, ?_⟩⟩
  · intro hrestart
    refine (n.token_perform_cases op hrestart).imp_right fun ⟨hlt, hsource⟩ => ⟨hlt, ?_⟩
    refine hsource.imp_right fun ⟨value, now, hop, hadv⟩ => ⟨value, now, hop, ?_⟩
    exact Token.toInt_version_of_advance? hadv
  · intro sender t ho hup hne
    have hne : sender ≠ n.address := by rwa [h.origin.1]
    rw [token_of_offer ho hup hne]
    split
    · next hlt => exact Token.accept_of_lt hlt
    · next hlt => exact Token.accept_of_not_lt hlt
  · rintro value now rfl hlast
    exact perform_originate_of_last hlast value now

/-- A source that has heard of the last version. -/
def exhausted : Node :=
  (fresh (Network.addressOf 0) { role := .source, seed := some 7 }).performAll
    [.event (.inbound (Network.addressOf 1) (.recover (-9) 32767)) 1]

/-- The token of that version was taken over, and no other one can take its place. -/
theorem token_evolution_exhausted :
    Reachable (Network.addressOf 0) { role := .source, seed := some 7 } exhausted ∧
    exhausted.token = ⟨-9, 32767⟩ ∧
    (∃ r, (exhausted.perform (.originate (some 3) 2)).2 = .refused r) ∧
    (exhausted.perform (.originate (some 3) 2)).1.node.token = ⟨-9, 32767⟩ ∧
    (exhausted.perform
      (.event (.inbound (Network.addressOf 1) (.recover 8 (-32768))) 3)).1.node.token =
        ⟨-9, 32767⟩ := by
  have hreachable : Reachable (Network.addressOf 0) { role := .source, seed := some 7 } exhausted :=
    Reachable.fresh.performAll _
  have htoken : exhausted.token = ⟨-9, 32767⟩ := by decide
  obtain ⟨_, _, hall⟩ := token_evolution hreachable
  obtain ⟨_, _, _, hlast⟩ := hall (.originate (some 3) 2)
  obtain ⟨hrefused, hkept⟩ := hlast _ _ rfl (congrArg Token.version htoken)
  obtain ⟨_, _, hoffer, _⟩ := hall (.event (.inbound (Network.addressOf 1) (.recover 8 (-32768))) 3)
  have hstale := hoffer _ _ rfl (by decide) (by decide)
  rw [htoken] at hstale
  exact ⟨hreachable, htoken, hrefused, hkept.trans htoken, hstale⟩

/-! ### Offers in any order -/

/-- Offers that are made one after another leave what accepting them in turn leaves. -/
theorem token_performAll_of_offers {n : Node} (hup : n.isDown = false) {ops : List Operation}
    (hops : ∀ op ∈ ops, op.OffersTo n.address) :
    (n.performAll ops).token =
      (ops.filterMap Operation.offered?).foldl Token.accept n.token := by
  induction ops generalizing n with
  | nil => rfl
  | cons op ops ih =>
    obtain ⟨sender, t, ho, hne⟩ := hops op List.mem_cons_self
    have hoffered : op.offered? = some t := by
      unfold Operation.offered?
      rw [ho]
      rfl
    have haddress : (n.perform op).1.node.address = n.address := (n.lawful_perform op).address
    have hrest : ∀ op' ∈ ops, op'.OffersTo (n.perform op).1.node.address := by
      rw [haddress]
      exact fun op' h => hops op' (List.mem_cons_of_mem _ h)
    show ((n.perform op).1.node.performAll ops).token = _
    rw [ih ((isDown_of_offer ho).trans hup) hrest, token_of_offer ho hup hne,
      List.filterMap_cons_some hoffered, List.foldl_cons]

/-- **The newest token wins.**  Of its own token and all that others offer to a node with power, in
    whatever messages and at whatever times, the node ends with the earliest of those with the
    newest version.  If among them a version stands for one value, then that is the only token of
    the newest version; and any other offers of the same tokens, in another order or more often,
    lead to the same. -/
theorem newest_token_wins {n : Node} (hup : n.isDown = false) {ops : List Operation}
    (hops : ∀ op ∈ ops, op.OffersTo n.address) :
    let tokens := n.token :: ops.filterMap Operation.offered?
    let final := (n.performAll ops).token
    final.EarliestNewest tokens ∧
    (Token.Consistent tokens →
      (∀ t ∈ tokens, (∀ u ∈ tokens, u.version ≤ t.version) → t = final) ∧
      ∀ ops' : List Operation, (∀ op ∈ ops', op.OffersTo n.address) →
        (∀ t, t ∈ ops'.filterMap Operation.offered? ↔ t ∈ ops.filterMap Operation.offered?) →
        (n.performAll ops').token = final) := by
  intro tokens final
  have hfinal : final.EarliestNewest tokens := by
    show (n.performAll ops).token.EarliestNewest _
    rw [token_performAll_of_offers hup hops]
    exact Token.earliestNewest_foldl_accept n.token _
  refine ⟨hfinal, fun hc => ⟨fun t ht hnewest => hfinal.eq_of_newest hc ht hnewest, ?_⟩⟩
  intro ops' hops' hsame
  have hfinal' : (n.performAll ops').token.EarliestNewest
      (n.token :: ops'.filterMap Operation.offered?) := by
    rw [token_performAll_of_offers hup hops']
    exact Token.earliestNewest_foldl_accept n.token _
  -- the other list has the same tokens, so the newest of them is the newest of these
  have hmem : ∀ t, t ∈ n.token :: ops'.filterMap Operation.offered? ↔ t ∈ tokens := by
    intro t
    simp only [tokens, List.mem_cons, hsame]
  exact hfinal.eq_of_newest hc ((hmem _).1 hfinal'.mem) fun u hu =>
    hfinal'.version_le ((hmem u).2 hu)

/-- A relay that holds a token. -/
def holder : Node :=
  { fresh (Network.addressOf 0) { seed := some 7 } with token := ⟨3, 2⟩ }

/-- Offers of an older token, of a newer one, and of another one of that version. -/
def offers : List Operation :=
  [.event (.inbound (Network.addressOf 1) (.data 1 1 0)) 20,
    .event (.inbound (Network.addressOf 2) (.recover 5 4)) 10,
    .event (.inbound (Network.addressOf 1) (.data 6 4 8)) 30]

/-- The first of the two newest tokens is kept.  Without the last offer it does not matter in which
    order, and how often, the other two are made. -/
theorem newest_token_wins_holder :
    holder.isDown = false ∧ (∀ op ∈ offers, op.OffersTo holder.address) ∧
    (holder.performAll offers).token = ⟨5, 4⟩ ∧
    (holder.performAll offers).token.EarliestNewest [⟨3, 2⟩, ⟨1, 1⟩, ⟨5, 4⟩, ⟨6, 4⟩] ∧
    (holder.performAll ((offers.take 2).reverse ++ offers.take 2)).token =
      (holder.performAll (offers.take 2)).token := by
  have hup : holder.isDown = false := rfl
  have hoffers : ∀ op ∈ offers, op.OffersTo holder.address := by
    simp only [offers, List.forall_mem_cons]
    exact ⟨⟨_, _, rfl, by decide⟩, ⟨_, _, rfl, by decide⟩, ⟨_, _, rfl, by decide⟩, by simp⟩
  have htwo : ∀ op ∈ offers.take 2, op.OffersTo holder.address :=
    fun op h => hoffers op (List.mem_of_mem_take h)
  have htwice : ∀ op ∈ (offers.take 2).reverse ++ offers.take 2, op.OffersTo holder.address := by
    intro op h
    rcases List.mem_append.1 h with h | h
    · exact htwo op (List.mem_reverse.1 h)
    · exact htwo op h
  have hconsistent : Token.Consistent
      (holder.token :: (offers.take 2).filterMap Operation.offered?) := by
    unfold Token.Consistent
    decide
  obtain ⟨hfirst, _⟩ := newest_token_wins hup hoffers
  obtain ⟨_, hany⟩ := newest_token_wins hup htwo
  refine ⟨hup, hoffers, by decide, hfirst, (hany hconsistent).2 _ htwice ?_⟩
  intro t
  simp [List.filterMap_append, List.filterMap_reverse]

end Node

end TokenMesh
