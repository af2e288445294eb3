import TokenMesh.Proofs.Network.Frame
import TokenMesh.Proofs.Node.Lifetime

namespace TokenMesh

/-!
# Where tokens come from

No token comes out of nothing: every token that a node holds or a message brings is the one that
all nodes start with, or it has been originated.  This holds whatever is lost and whoever crashes.
As long as a node is not restarted, it puts higher and higher versions on record.

* `Token.Descending`: tokens from the latest to the earliest;
* `Network.known`: all tokens there have ever been;
* `Network.lineage`: the tokens of a node from the latest back to the one that it started with;
* `Network.Drawn`: all tokens, held or on their way, come from a list;
* `Network.drawn_of_run`: they come from the known ones;
* `Network.ordered_of_run`: the lineage of a node that has not been restarted descends.
-/

namespace Token

/-- Tokens from the latest to the earliest. -/
def Descending (l : List Token) : Prop := l.Pairwise fun a b => b.version < a.version

namespace Descending

variable {l : List Token} {t u : Token}

/-- No token is newer than the latest. -/
theorem le_head (h : Descending l) (ht : l.head? = some t) (hu : u ∈ l) :
    u.version ≤ t.version := by
  obtain ⟨rest, rfl⟩ := List.head?_eq_some_iff.1 ht
  rcases List.mem_cons.1 hu with rfl | hu
  · exact Int16.le_refl _
  · exact Int16.le_of_lt ((List.pairwise_cons.1 h).1 u hu)

/-- No token is older than the earliest. -/
theorem le_of_mem_concat (h : Descending (l ++ [t])) (hu : u ∈ l ++ [t]) :
    t.version ≤ u.version := by
  rcases List.mem_append.1 hu with hu | hu
  · exact Int16.le_of_lt ((List.pairwise_append.1 h).2.2 u hu t List.mem_cons_self)
  · rw [List.mem_singleton.1 hu]
    exact Int16.le_refl _

/-- A version stands for one token. -/
theorem eq_of_version_eq (h : Descending l) (ht : t ∈ l) (hu : u ∈ l)
    (heq : t.version = u.version) : t = u := by
  -- of two places in the list one comes first, and its version is higher
  induction l with
  | nil => cases ht
  | cons v l ih =>
    obtain ⟨hv, hl⟩ := List.pairwise_cons.1 h
    rcases List.mem_cons.1 ht with rfl | ht'
    · rcases List.mem_cons.1 hu with rfl | hu'
      · rfl
      · have hlt := hv u hu'
        rw [heq] at hlt
        exact absurd hlt Int16.lt_irrefl
    · rcases List.mem_cons.1 hu with rfl | hu'
      · have hlt := hv t ht'
        rw [heq] at hlt
        exact absurd hlt Int16.lt_irrefl
      · exact ih hl ht' hu'

end Descending

end Token

namespace Network

/-! ### Lists of tokens -/

/-- All tokens there have ever been: those that have been originated, the latest first, and the
    one that all nodes start with. -/
def known (net : Network) : List Token := net.originations.map (·.token) ++ [.initial]

/-- The tokens of a node from the latest back to the one that it started with. -/
def lineage (net : Network) (i : Nat) : List Token := net.originatedBy i ++ [.initial]

theorem known_congr {net net' : Network} (h : net'.originations = net.originations) :
    net'.known = net.known := by
  unfold known
  rw [h]

theorem lineage_congr {net net' : Network} (h : net'.originations = net.originations) (i : Nat) :
    net'.lineage i = net.lineage i := by
  unfold lineage
  rw [originatedBy_congr h]

theorem initial_mem_known (net : Network) : Token.initial ∈ net.known :=
  List.mem_append_right _ List.mem_cons_self

/-- A new token comes in front of the known ones. -/
theorem known_cons {net net' : Network} {i now : Nat} {t : Token}
    (h : net'.originations = ⟨i, t, now⟩ :: net.originations) : net'.known = t :: net.known := by
  simp [known, h]

/-- A node's new token comes in front of its lineage. -/
theorem lineage_cons {net net' : Network} {i now : Nat} {t : Token}
    (h : net'.originations = ⟨i, t, now⟩ :: net.originations) :
    net'.lineage i = t :: net.lineage i := by
  simp [lineage, originatedBy, h]

/-- The lineage of any other node stays as it is. -/
theorem lineage_cons_of_ne {net net' : Network} {i j now : Nat} {t : Token}
    (h : net'.originations = ⟨i, t, now⟩ :: net.originations) (hij : i ≠ j) :
    net'.lineage j = net.lineage j := by
  simp [lineage, originatedBy, h, hij]

/-- What is known stays known. -/
theorem mem_known_of_step {net net' : Network} (hs : Step net net') {t : Token}
    (ht : t ∈ net.known) : t ∈ net'.known := by
  obtain heq | ⟨i, n, value, now, r, u, _, _, _, heq⟩ := originations_step hs
  · rwa [known_congr heq]
  · rw [known_cons heq]
    exact List.mem_cons_of_mem _ ht

/-! ### What tokens come from -/

/-- All tokens, held or on their way, come from a list. -/
structure Drawn (l : List Token) (net : Network) : Prop where
  held : ∀ i n, net.node? i = some n → n.token ∈ l
  flying : ∀ x ∈ net.pending, ∀ t ∈ x.event.token?, t ∈ l

namespace Drawn

variable {l l' : List Token} {net net' : Network}

theorem mono (h : Drawn l net) (hl : ∀ t ∈ l, t ∈ l') : Drawn l' net where
  held i n hi := hl _ (h.held i n hi)
  flying x hx t ht := hl t (h.flying x hx t ht)

theorem of_same (h : Drawn l net) (hn : ∀ i, net'.node? i = net.node? i)
    (hp : ∀ x ∈ net'.pending, x ∈ net.pending) : Drawn l net' where
  held i n hi := h.held i n (hn i ▸ hi)
  flying x hx := h.flying x (hp x hx)

theorem schedule {time : Nat} {e : Occurrence} (h : Drawn l net) (he : ∀ t ∈ e.token?, t ∈ l) :
    Drawn l (net.schedule time e) where
  held := h.held
  flying x hx := by
    rcases (mem_pending_schedule net time e).1 hx with rfl | hx
    · exact he
    · exact h.flying x hx

theorem setBootTimers (h : Drawn l net) (i generation : Nat) :
    Drawn l (net.setBootTimers i generation) := by
  have ha : Drawn l (net.setTimer i .announce generation net.settings.initialAnnounceDelay) :=
    h.schedule (by simp [Occurrence.token?])
  exact ha.schedule (by simp [Occurrence.token?])

/-- A node holds another token of the list. -/
theorem setNode {i : Nat} {n : Node} (h : Drawn l net) (hl : n.token ∈ l) :
    Drawn l (net.setNode i n) where
  held j m hm := by
    rw [node?_setNode] at hm
    split at hm
    · obtain ⟨_, _, rfl⟩ := Option.map_eq_some_iff.1 hm
      exact hl
    · exact h.held j m hm
  flying := h.flying

theorem absorb {i : Nat} {r : Reaction} (h : Drawn l net) (hl : r.node.token ∈ l) :
    Drawn l (net.absorb i r) :=
  (h.setNode hl).of_same (fun _ => rfl) fun _ hx => hx

/-- Messages on the air bring their tokens with them. -/
theorem route (h : Drawn l net) (i : Nat) {sends : List Outbound}
    (ht : ∀ out ∈ sends, ∀ t ∈ out.message.token?, t ∈ l) : Drawn l (net.route i sends) := by
  obtain ⟨as, has, ha⟩ := net.airs_route i sends
  refine ⟨fun j n hj => h.held j n ?_, ?_⟩
  · rwa [node?_congr (members_route ..)] at hj
  · -- a message was on its way before, or has been sent now
    intro x hx
    rcases List.mem_append.1 (has.pending.mem_iff.1 hx) with hx | hx
    · obtain ⟨out, hout, hx⟩ := ha x hx
      obtain ⟨j, _, hj⟩ := hx.event
      rw [hj, Occurrence.token?_deliver_encode]
      exact ht out hout
    · exact h.flying x hx

/-- A node that reacts and holds a token of the list in the end sends nothing else. -/
theorem follow {i : Nat} {n : Node} {r : Reaction} (h : Drawn l net) (hr : r.Lawful n)
    (hl : r.node.token ∈ l) : Drawn l (net.follow i r) := by
  refine (h.absorb hl).route i ?_
  intro out hout t ht
  rw [hr.token out hout t ht]
  exact hl

/-- A timer leaves a node its token, or the one that it started with. -/
theorem fireTimer {i : Nat} {m : Member} (h : Drawn l net) (hinit : Token.initial ∈ l)
    (hm : net.members[i]? = some m) (kind : TimerKind) : Drawn l (net.fireTimer i m kind) := by
  have hl : (m.node.handle kind.event net.clock).node.token ∈ l := by
    obtain ht | ht := m.node.token_handle_timer_cases kind net.clock
    · rw [ht]
      exact h.held i m.node (node?_eq_some_iff.2 ⟨m, hm, rfl⟩)
    · rw [ht]
      exact hinit
  have hf : Drawn l (net.follow i (m.node.handle kind.event net.clock)) :=
    h.follow (m.node.lawful_handle kind.event net.clock) hl
  cases kind with
  | announce => exact hf.schedule (by simp [Occurrence.token?])
  | beacon => exact hf.schedule (by simp [Occurrence.token?])
  | restart =>
    show Drawn l (net.restart i m)
    rw [restart_eq]
    refine setBootTimers ?_ i _
    exact hf.of_same (node?_nextGeneration _ i) fun _ hx => hx

end Drawn

/-- An event brings no token but those that have been known before or come on record with it. -/
theorem drawn_effect {l : List Token} {net net' : Network} {e : Occurrence}
    (he : Effect net e net') (hl : ∀ t ∈ net'.known, t ∈ l) (het : ∀ t ∈ e.token?, t ∈ l)
    (h : Drawn l net) : Drawn l net' := by
  induction he with
  | @arrival net i n sender bytes hn =>
    have hd : Drawn l net.countDelivery := h.of_same (fun _ => rfl) fun _ hx => hx
    refine hd.follow (n.lawful_handleDatagram sender bytes net.clock) ?_
    obtain ht | ⟨t, hmem, _, ht⟩ := n.token_handleDatagram i sender bytes net.clock
    · rw [ht]
      exact h.held i n hn
    · rw [ht]
      exact het t hmem
  | stale kind generation hm hg => exact h
  | fired kind hm => exact h.fireTimer (hl _ (initial_mem_known _)) hm kind
  | ignored hf => exact h
  | @considered net f g vetoes hf =>
    have hs : Drawn l (net.schedule (net.clock + f.tick) .failureTick) :=
      h.schedule (by simp [Occurrence.token?])
    exact hs.of_same (fun _ => rfl) fun _ hx => hx
  | @injected net net' f i g hf hi he ih =>
    have hs : Drawn l (net.schedule (net.clock + f.tick) .failureTick) :=
      h.schedule (by simp [Occurrence.token?])
    exact ih hl (by simp [Occurrence.token?]) (hs.of_same (fun _ => rfl) fun _ hx => hx)
  | @originated net i n value r t hn ho =>
    -- the new token is known from now on, and nothing else is sent
    have hr := Node.lawful_of_originate ho
    have ht : r.node.token ∈ l := by
      rw [(Node.originate_eq_ok ho).2]
      refine hl t ?_
      rw [known_cons (originations_begun net i t hr)]
      exact List.mem_cons_self
    have hd : Drawn l (net.noted i r t) := (h.setNode ht).of_same (fun _ => rfl) fun _ hx => hx
    refine hd.route i ?_
    intro out hout u hu
    rw [hr.token out hout u hu]
    exact ht
  | @notOriginated net i n value r e hn ho =>
    have ht : r.node.token ∈ l := by
      rw [(Node.originate_eq_error ho).1]
      exact h.held i n hn
    exact (h.absorb ht).of_same (fun _ => rfl) fun _ hx => hx
  | nowhere value hn => exact h.of_same (fun _ => rfl) fun _ hx => hx
  | @crashed net i recovery m r hm hp =>
    obtain ⟨_, hnode, _, _⟩ := Node.powerDown_eq_ok hp
    have ht : r.node.token ∈ l := by
      rw [hnode]
      exact h.held i m.node (node?_eq_some_iff.2 ⟨m, hm, rfl⟩)
    have hc : Drawn l { net.absorb i r with metrics :=
        { net.metrics with crashes := net.metrics.crashes + 1 } } :=
      (h.absorb ht).of_same (fun _ => rfl) fun _ hx => hx
    exact hc.schedule (by simp [Occurrence.token?])
  | notCrashed hm hp => exact h.of_same (fun _ => rfl) fun _ hx => hx
  | noCrash recovery hm => exact h
  | @roleSet net i n role hn =>
    refine h.absorb ?_
    rw [Node.token_setRole]
    exact h.held i n hn
  | noRole role hn => exact h
  | lossRateSet rate => exact h.of_same (fun _ => rfl) fun _ hx => hx

theorem drawn_step {net net' : Network} (hs : Step net net') (h : Drawn net.known net) :
    Drawn net'.known net' := by
  have h' : Drawn net'.known net := h.mono fun t ht => mem_known_of_step hs ht
  cases hs with
  | plan time a => exact h'.schedule (by simp [Occurrence.token?])
  | setRole i role =>
    have he := effect_setRole net i role
    exact drawn_effect he (fun _ ht => ht) (by simp [Occurrence.token?]) h'
  | withFailures f =>
    generalize (net.withFailures f).known = l at h' ⊢
    unfold withFailures
    split
    · exact h'.of_same (fun _ => rfl) fun _ hx => hx
    · have hs : Drawn l (net.schedule (net.clock + f.tick) .failureTick) :=
        h'.schedule (by simp [Occurrence.token?])
      exact hs.of_same (fun _ => rfl) fun _ hx => hx
  | event limit hn =>
    obtain ⟨e, rest, net₁, hpop, _, he, rfl⟩ := exists_effect_of_next hn
    have hmem : ∀ x, x ∈ net.pending ↔ x ∈ e :: (net.turnTo e rest).pending :=
      fun x => (pending_of_pop? hpop).mem_iff
    have hknown : net₁.watch.known = net₁.known := known_congr (originations_watch _)
    rw [hknown] at h' ⊢
    have ht : Drawn net₁.known (net.turnTo e rest) :=
      h'.of_same (fun _ => rfl) fun x hx => (hmem x).2 (List.mem_cons_of_mem _ hx)
    -- what the event at hand brings has been on its way so far
    have het := h'.flying e ((hmem e).2 List.mem_cons_self)
    exact (drawn_effect he (fun _ hu => hu) het ht).of_same
      (fun i => node?_congr (members_watch _) i) fun x hx => by rwa [pending_watch] at hx
  | rest limit hn => exact h'.of_same (fun _ => rfl) fun _ hx => hx

section Run

variable {P : Network → Prop} {t : Topology} {s : ProtocolSettings} {seed : UInt64}
  {net : Network}

/-- Every token that is held or on its way is the one that all nodes start with, or has been
    originated. -/
theorem drawn_of_run (hr : Run P (build t s seed) net) : Drawn net.known net := by
  refine hr.invariant (fun net => Drawn net.known net) ?_ fun _ _ _ _ h hs => drawn_step hs h
  intro _
  refine ⟨?_, ?_⟩
  · intro i n hn
    rw [node?_build hn]
    exact initial_mem_known _
  · intro x hx u hu
    obtain ⟨i, kind, he⟩ := mem_pending_build hx
    rw [he] at hu
    cases hu

/-- Whatever has been originated is newer than what all nodes start with. -/
theorem initial_lt_of_run (hr : Run P (build t s seed) net) {o : Origination}
    (ho : o ∈ net.originations) : Token.initial.version < o.token.version := by
  let Inv (net : Network) : Prop := Drawn net.known net ∧
    ∀ o ∈ net.originations, Token.initial.version < o.token.version
  suffices h : Inv net from h.2 o ho
  refine hr.invariant Inv ?_ ?_
  · intro hP
    refine ⟨drawn_of_run (.start hP), ?_⟩
    intro o ho
    rw [originations_build] at ho
    cases ho
  · rintro net net' _ _ ⟨hd, hpos⟩ hs
    refine ⟨drawn_step hs hd, ?_⟩
    obtain heq | ⟨i, n, value, now, r, u, hn, ho, _, heq⟩ := originations_step hs
    · rw [heq]
      exact hpos
    · rw [heq]
      intro o hmem
      rcases List.mem_cons.1 hmem with rfl | hmem
      · -- the new token goes beyond one that is known
        have hnew : n.token.version < u.version :=
          Token.version_lt_of_advance? (Node.originate_eq_ok ho).1
        refine Int16.lt_of_le_of_lt ?_ hnew
        rcases List.mem_append.1 (hd.held i n hn) with hheld | hheld
        · obtain ⟨o', ho', heq'⟩ := List.mem_map.1 hheld
          rw [← heq']
          exact Int16.le_of_lt (hpos o' ho')
        · rw [List.mem_singleton.1 hheld]
          exact Int16.le_refl _
      · exact hpos o hmem

/-- Whoever has originated something is a node of the network. -/
theorem index_lt_of_run (hr : Run P (build t s seed) net) {o : Origination}
    (ho : o ∈ net.originations) : o.index < t.nodeCount := by
  let Inv (net : Network) : Prop := Placed t s net ∧ ∀ o ∈ net.originations, o.index < t.nodeCount
  suffices h : Inv net from h.2 o ho
  refine hr.invariant Inv ?_ ?_
  · intro _
    refine ⟨placed_build t s seed, ?_⟩
    intro o ho
    rw [originations_build] at ho
    cases ho
  · rintro net net' _ _ ⟨hp, hlt⟩ hs
    refine ⟨placed_step hs hp, ?_⟩
    obtain heq | ⟨i, n, value, now, r, u, hn, _, _, heq⟩ := originations_step hs
    · rw [heq]
      exact hlt
    · rw [heq]
      intro o hmem
      rcases List.mem_cons.1 hmem with rfl | hmem
      · exact hp.lt_of_node? hn
      · exact hlt o hmem

end Run

/-! ### The lives of the nodes -/

/-- A node after a step was there before, and has not fallen back unless it was restarted. -/
theorem exists_later_of_step {net net' : Network} (hs : Step net net') {i : Nat} {n' : Node}
    (hn' : net'.node? i = some n') : ∃ n, net.node? i = some n ∧ n.Later n' := by
  obtain ⟨n, hn, rfl | ⟨op, rfl⟩⟩ := exists_of_node?_step hs hn'
  · exact ⟨_, hn, .refl _⟩
  · exact ⟨n, hn, n.later_perform op⟩

/-- The same after many steps. -/
theorem exists_later_of_run {P : Network → Prop} {net net' : Network} (hr : Run P net net')
    {i : Nat} {n' : Node} (hn' : net'.node? i = some n') :
    ∃ n, net.node? i = some n ∧ n.Later n' := by
  induction hr generalizing n' with
  | start _ => exact ⟨n', hn', .refl _⟩
  | step _ hs _ ih =>
    obtain ⟨m, hm, hlater⟩ := exists_later_of_step hs hn'
    obtain ⟨n, hn, hbefore⟩ := ih hm
    exact ⟨n, hn, hbefore.trans hlater⟩

/-! ### The lineage of a node -/

/-- As long as node `i` has not been restarted, its versions only grow, and it holds none that is
    older than its latest. -/
def Ordered (i : Nat) (net : Network) : Prop :=
  ∀ n, net.node? i = some n → n.counters.restarts = 0 →
    Token.Descending (net.lineage i) ∧ ∀ u ∈ net.lineage i, u.version ≤ n.token.version

theorem ordered_step {i : Nat} {net net' : Network} (hs : Step net net') (h : Ordered i net) :
    Ordered i net' := by
  intro n' hn' hzero
  obtain ⟨n, hn, hlater⟩ := exists_later_of_step hs hn'
  have hstill : n.counters.restarts = 0 := Nat.le_zero.1 (hzero ▸ hlater.restarts)
  obtain ⟨hdesc, hle⟩ := h n hn hstill
  -- what the node has put on record so far is not newer than what it holds now
  have hold : ∀ u ∈ net.lineage i, u.version ≤ n'.token.version := fun u hu =>
    Int16.le_trans (hle u hu) (hlater.version_le (hzero.trans hstill.symm))
  obtain heq | ⟨j, m, value, now, r, t, hm, ho, hr, heq⟩ := originations_step hs
  · rw [lineage_congr heq]
    exact ⟨hdesc, hold⟩
  by_cases hji : j = i
  · subst hji
    obtain rfl : n = m := Option.some.inj (hn.symm.trans hm)
    obtain rfl : n' = r.node := Option.some.inj (hn'.symm.trans hr)
    obtain ⟨hadv, ht⟩ := Node.originate_eq_ok ho
    have hnew : n.token.version < t.version := Token.version_lt_of_advance? hadv
    rw [lineage_cons heq]
    refine ⟨List.pairwise_cons.2 ⟨?_, hdesc⟩, ?_⟩
    · exact fun u hu => Int16.lt_of_le_of_lt (hle u hu) hnew
    · intro u hu
      rcases List.mem_cons.1 hu with rfl | hu
      · rw [ht]
        exact Int16.le_refl _
      · exact hold u hu
  · rw [lineage_cons_of_ne heq hji]
    exact ⟨hdesc, hold⟩

theorem ordered_of_run {P : Network → Prop} {t : Topology} {s : ProtocolSettings} {seed : UInt64}
    {net : Network} (hr : Run P (build t s seed) net) (i : Nat) : Ordered i net := by
  refine hr.invariant (Ordered i) ?_ fun _ _ _ _ h hs => ordered_step hs h
  intro _ n hn _
  have hline : (build t s seed).lineage i = [.initial] := by
    simp [lineage, originatedBy, originations_build]
  rw [hline, node?_build hn]
  refine ⟨List.pairwise_singleton .., ?_⟩
  intro u hu
  rw [List.mem_singleton.1 hu]
  exact Int16.le_refl _

end Network

end TokenMesh
