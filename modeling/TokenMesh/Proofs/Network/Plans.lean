import TokenMesh.Proofs.Network.Run

namespace TokenMesh

/-!
# What is planned

Whatever is done with a network, the events that come of it are put in the queue one after the
other, each with the next number, and nothing leaves the queue but the event at hand.  So what
holds of every queue follows from what holds of one event that is put in it.

* `Occurrence.place?`: the node that an event is for;
* `Network.Plans`: events are put in the queue, and all of them have a property;
* `Network.Names`, `Network.Ensues`: what is true of all events that come of others;
* `Network.plans_effect`: nothing else comes of an event;
* `Network.Outside`: what can be done with a network from the outside.
-/

/-- The node that an event is for: the receiver of a datagram, or the node that has set a timer. -/
def Occurrence.place? : Occurrence → Option Nat
  | deliver receiver _ _ => some receiver
  | timer index _ _ => some index
  | failureTick | action _ => none

namespace Network

/-- Some events whose times have a property are put in the queue, one after the other.  All others
    stay, and the clock and the settings do. -/
inductive Plans (P : Nat → Occurrence → Prop) : Network → Network → Prop
  | none {net net' : Network} (hc : net'.clock = net.clock) (hs : net'.settings = net.settings)
      (hp : net'.pending = net.pending) (hn : net'.nextSeq = net.nextSeq) : Plans P net net'
  | one (net : Network) (time : Nat) {e : Occurrence} (he : P time e) :
      Plans P net (net.schedule time e)
  | trans {net mid net' : Network} (h : Plans P net mid) (h' : Plans P mid net') :
      Plans P net net'

namespace Plans

variable {P : Nat → Occurrence → Prop} {net net' : Network}

theorem refl (net : Network) : Plans P net net := none rfl rfl rfl rfl

theorem mono {Q : Nat → Occurrence → Prop} (hPQ : ∀ t e, P t e → Q t e) (h : Plans P net net') :
    Plans Q net net' := by
  induction h with
  | none hc hs hp hn => exact none hc hs hp hn
  | one net time he => exact one net time (hPQ _ _ he)
  | trans _ _ ih ih' => exact trans ih ih'

theorem clock (h : Plans P net net') : net'.clock = net.clock := by
  induction h with
  | none hc _ _ _ => exact hc
  | one => rfl
  | trans _ _ ih ih' => exact ih'.trans ih

theorem settings (h : Plans P net net') : net'.settings = net.settings := by
  induction h with
  | none _ hs _ _ => exact hs
  | one => rfl
  | trans _ _ ih ih' => exact ih'.trans ih

theorem kept (h : Plans P net net') {x : Scheduled Occurrence} (hx : x ∈ net.pending) :
    x ∈ net'.pending := by
  induction h with
  | none _ _ hp _ => rwa [hp]
  | one net time he => exact (mem_pending_schedule net time _).2 (.inr hx)
  | trans _ _ ih ih' => exact ih' (ih hx)

/-- What waits has waited before, or is planned. -/
theorem mem_pending (h : Plans P net net') {x : Scheduled Occurrence} (hx : x ∈ net'.pending) :
    x ∈ net.pending ∨ P x.time x.event := by
  induction h with
  | none _ _ hp _ => exact .inl (hp ▸ hx)
  | one net time he =>
    obtain rfl | hx := (mem_pending_schedule net time _).1 hx
    · exact .inr he
    · exact .inl hx
  | trans _ _ ih ih' =>
    obtain hx | hx := ih' hx
    · exact ih hx
    · exact .inr hx

/-! ### Messages -/

theorem transmit {i j : Nat} {bytes : List UInt8}
    (hP : net.topology.isLinked i j = true →
      P (net.clock + net.topology.delay) (.deliver j (addressOf i) bytes)) :
    Plans P net (net.transmit i j bytes) := by
  rcases net.transmit_cases i j bytes with ⟨g, h⟩ | ⟨hl, g, h⟩
  · rw [h]
    exact none rfl rfl rfl rfl
  · rw [h]
    have hg : Plans P net { net with generator := g } := none rfl rfl rfl rfl
    exact hg.trans (one _ _ (hP hl))

/-- A message plans its arrivals at the other ends of the sender's links. -/
theorem send {i : Nat} {out : Outbound}
    (hP : ∀ j, net.topology.isLinked i j = true →
      P (net.clock + net.topology.delay) (.deliver j (addressOf i) out.message.encode)) :
    Plans P net (send i net out) := by
  -- counting the message plans nothing yet
  have hrec : Plans P net (net.recordSent out.message) := none rfl rfl rfl rfl
  refine hrec.trans ?_
  cases out with
  | unicast peer m =>
    simp only [Network.send, Outbound.message]
    cases (net.recordSent m).indexOf? peer with
    | some j =>
      have harrive : Plans P (net.recordSent m) ((net.recordSent m).transmit i j m.encode) :=
        transmit (hP j)
      exact harrive
    | none => exact none rfl rfl rfl rfl
  | multicast m =>
    -- no delivery changes the links that the next ones take
    have h : ∀ (l : List Nat) (net' : Network), AirOnly net net' →
        Plans P net' (l.foldl (fun net j => net.transmit i j m.encode) net') := by
      intro l
      induction l with
      | nil => exact fun net' _ => refl net'
      | cons j l ih =>
        intro net' ha
        obtain ⟨_, hair, _⟩ := net'.airs_transmit i j m.encode
        refine (transmit ?_).trans (ih _ (ha.trans hair.airOnly))
        rw [ha.clock, ha.topology]
        exact hP j
    exact h (net.topology.neighbors i) (net.recordSent m) rfl

theorem route {i : Nat} {sends : List Outbound}
    (hP : ∀ j bytes, net.topology.isLinked i j = true →
      P (net.clock + net.topology.delay) (.deliver j (addressOf i) bytes)) :
    Plans P net (net.route i sends) := by
  induction sends generalizing net with
  | nil => exact refl net
  | cons out sends ih =>
    obtain ⟨_, hair, _⟩ := net.airs_send i out
    have hlater : Plans P (Network.send i net out) ((Network.send i net out).route i sends) := by
      apply ih
      rw [hair.airOnly.clock, hair.airOnly.topology]
      exact hP
    exact (send fun j => hP j _).trans hlater

end Plans

/-! ### What comes of an event -/

/-- An event names a node that is there, or one that a link leads to. -/
def Names (net : Network) (e : Occurrence) : Prop :=
  ∀ i, e.place? = some i → i < net.size ∨ ∃ j, net.topology.isLinked j i = true

theorem names_of_place? {net : Network} {e : Occurrence} (h : e.place? = none) : net.Names e := by
  intro i hi
  rw [h] at hi
  cases hi

/-- What may come of an event: nothing that should have happened before, no beacon later than one
    period from the present, no action, and nothing for a node that does not exist. -/
structure Ensues (net : Network) (time : Nat) (e : Occurrence) : Prop where
  ahead : net.clock ≤ time
  soon : ∀ i g, e = .timer i .beacon g → time ≤ net.clock + net.settings.beaconPeriod
  noAction : ∀ a, e ≠ .action a
  names : net.Names e

section Ensues

variable {net : Network} {i : Nat} {m : Member}

/-- What may come of an event depends on the clock, the settings, and which nodes there are. -/
theorem Ensues.of_same {net' : Network} {time : Nat} {e : Occurrence} (h : net'.Ensues time e)
    (hc : net'.clock = net.clock) (hs : net'.settings = net.settings) (hz : net'.size = net.size)
    (ht : net'.topology = net.topology) : net.Ensues time e where
  ahead := hc ▸ h.ahead
  soon i g he := hc ▸ hs ▸ h.soon i g he
  noAction := h.noAction
  names i hi := hz ▸ ht ▸ h.names i hi

theorem ensues_deliver {j : Nat} (h : net.topology.isLinked i j = true) (after : Nat)
    (sender : Address) (bytes : List UInt8) :
    net.Ensues (net.clock + after) (.deliver j sender bytes) where
  ahead := Nat.le_add_right ..
  soon _ _ he := by cases he
  noAction _ he := by cases he
  names k hk := by
    obtain rfl := Option.some.inj hk
    exact .inr ⟨i, h⟩

/-- A timer of a node may be set for any time ahead, but for a beacon. -/
theorem ensues_timer (hm : net.members[i]? = some m) {kind : TimerKind} {after : Nat}
    (hsoon : kind = .beacon → after ≤ net.settings.beaconPeriod) (generation : Nat) :
    net.Ensues (net.clock + after) (.timer i kind generation) where
  ahead := Nat.le_add_right ..
  soon _ _ he := Nat.add_le_add_left (hsoon (by cases he; rfl)) _
  noAction _ he := by cases he
  names k hk := by
    obtain rfl := Option.some.inj hk
    exact .inl (Array.getElem?_eq_some_iff.1 hm).1

theorem ensues_tick (net : Network) (after : Nat) :
    net.Ensues (net.clock + after) .failureTick where
  ahead := Nat.le_add_right ..
  soon _ _ he := by cases he
  noAction _ he := by cases he
  names := names_of_place? rfl

end Ensues

namespace Plans

variable {P : Nat → Occurrence → Prop} {net : Network} {i : Nat} {m : Member}

theorem follow (net : Network) (i : Nat) (r : Reaction) :
    Plans net.Ensues net (net.follow i r) := by
  have habsorb : Plans net.Ensues net (net.absorb i r) := none rfl rfl rfl rfl
  refine habsorb.trans (route fun j bytes hl => ?_)
  have hl : net.topology.isLinked i j = true := hl
  exact ensues_deliver hl ..

/-- After some other events a timer of a node is set. -/
theorem setTimer {mid : Network} (h : Plans net.Ensues net mid) (hm : net.members[i]? = some m)
    {kind : TimerKind} {after : Nat} (hsoon : kind = .beacon → after ≤ net.settings.beaconPeriod)
    (generation : Nat) : Plans net.Ensues net (mid.setTimer i kind generation after) := by
  refine h.trans (one mid _ ?_)
  rw [h.clock]
  exact ensues_timer hm hsoon generation

theorem fireTimer (hm : net.members[i]? = some m) (kind : TimerKind) :
    Plans net.Ensues net (net.fireTimer i m kind) := by
  have hf := follow net i (m.node.handle kind.event net.clock)
  cases kind with
  | announce => exact hf.setTimer hm (by simp) _
  | beacon => exact hf.setTimer hm (fun _ => Nat.le_of_eq (congrArg _ hf.settings)) _
  | restart =>
    show Plans net.Ensues net (net.restart i m)
    rw [restart_eq]
    have hg : Plans net.Ensues net
        ((net.follow i (m.node.handle .restartTimer net.clock)).nextGeneration i) :=
      hf.trans (none rfl rfl rfl rfl)
    have hsoon := Nat.le_of_eq (congrArg (·.beaconPeriod) hg.settings)
    unfold setBootTimers
    exact (hg.setTimer hm (by simp) _).setTimer hm (fun _ => hsoon) _

/-- A failure tick plans the next one. -/
theorem ticked (net : Network) (f : FailureConfig) (g : Generator) (vetoes : Nat) :
    Plans net.Ensues net (net.ticked f g vetoes) := by
  have hs : Plans net.Ensues net (net.schedule (net.clock + f.tick) .failureTick) :=
    one net _ (ensues_tick ..)
  exact hs.trans (none rfl rfl rfl rfl)

/-- The watch on convergence plans nothing. -/
theorem watch (net : Network) : Plans P net net.watch :=
  none (clock_watch net) (settings_watch net) (pending_watch net) (by rw [watch_eq])

end Plans

/-- An event plans what may come of it, and nothing else. -/
theorem plans_effect {net net' : Network} {e : Occurrence} (he : Effect net e net') :
    Plans net.Ensues net net' := by
  induction he with
  | @arrival net i n sender bytes hn =>
    have hd : Plans net.Ensues net net.countDelivery := .none rfl rfl rfl rfl
    have hf := Plans.follow net.countDelivery i (n.handleDatagram sender bytes net.clock)
    exact hd.trans (hf.mono fun _ _ h => h.of_same rfl rfl rfl rfl)
  | stale kind generation hm hg => exact .refl _
  | fired kind hm => exact .fireTimer hm kind
  | ignored hf => exact .refl _
  | considered g vetoes hf => exact .ticked ..
  | @injected net net' f i g hf hi he ih =>
    have ht : Plans net.Ensues net ((net.ticked f g 0).tell [.failing i net.clock]) :=
      (Plans.ticked net f g 0).trans (.none rfl rfl rfl rfl)
    exact ht.trans (ih.mono fun _ _ h => h.of_same rfl rfl rfl rfl)
  | @originated net i n value r t hn ho =>
    have hd : Plans net.Ensues net (net.noted i r t) := .none rfl rfl rfl rfl
    refine hd.trans (.route fun j bytes hl => ?_)
    have hl : net.topology.isLinked i j = true := hl
    exact ensues_deliver hl ..
  | notOriginated hn ho => exact .none rfl rfl rfl rfl
  | nowhere value hn => exact .none rfl rfl rfl rfl
  | @crashed net i recovery m r hm hp =>
    have hc : Plans net.Ensues net { net.absorb i r with metrics :=
        { net.metrics with crashes := net.metrics.crashes + 1 } } := .none rfl rfl rfl rfl
    exact hc.setTimer hm (by simp) _
  | notCrashed hm hp => exact .none rfl rfl rfl rfl
  | noCrash recovery hm => exact .refl _
  | roleSet role hn => exact .none rfl rfl rfl rfl
  | noRole role hn => exact .refl _
  | lossRateSet rate => exact .none rfl rfl rfl rfl

/-! ### From the outside -/

/-- What can be done with a network from the outside: something is planned, set or switched on. -/
inductive Outside : Network → Network → Prop
  | plan (net : Network) (time : Nat) (a : Action) : Outside net (net.plan time a)
  | setRole (net : Network) (i : Nat) (role : Role) : Outside net (net.setRole i role)
  | withFailures (net : Network) (f : FailureConfig) : Outside net (net.withFailures f)

theorem Outside.step {net net' : Network} (h : Outside net net') : Step net net' := by
  cases h with
  | plan time a => exact .plan net time a
  | setRole i role => exact .setRole net i role
  | withFailures f => exact .withFailures net f

/-- From the outside nothing is planned for a node that does not exist. -/
theorem plans_outside {net net' : Network} (h : Outside net net') :
    Plans (fun _ => net.Names) net net' := by
  cases h with
  | plan time a => exact .one net time (names_of_place? rfl)
  | setRole i role => exact (plans_effect (effect_setRole net i role)).mono fun _ _ => Ensues.names
  | withFailures f =>
    unfold withFailures
    split
    · exact .none rfl rfl rfl rfl
    · have hf : Plans (fun _ => net.Names) net { net with failures := some f } :=
        .none rfl rfl rfl rfl
      exact hf.trans (.one _ _ (names_of_place? rfl))

/-- A new node plans its own timers. -/
theorem plans_addNode (seed : UInt64) (net : Network) (i : Nat) :
    Plans (fun _ e => e.place? = some i) net (addNode seed net i) := by
  let r := Node.start (addressOf i) (settingsOf net.settings seed i)
  let net₁ : Network := { net with members := net.members.push ⟨r.node, 0⟩ }.tell r.notices
  have hnew : Plans (fun _ e => e.place? = some i) net net₁ := .none rfl rfl rfl rfl
  exact (hnew.trans (.one _ _ rfl)).trans (.one _ _ rfl)

end Network

end TokenMesh
