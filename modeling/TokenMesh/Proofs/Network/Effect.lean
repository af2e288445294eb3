import TokenMesh.Proofs.Network.Air

namespace TokenMesh

/-!
# What an event does

Every event that can be processed does one of a few things to a network: it makes one node react,
or it changes nothing but the queue, the reports and the choices.  `Network.Effect` lists them, and
`Network.effect_of_process` says that nothing else happens, so that what all events keep is shown
by going through the list.

Failure injection draws and asks before it does anything:

* `Network.victim?`: the node that a failure tick draws, if it draws one;
* `Network.considerFailure_cases`: a tick draws nobody, spares the node that it has drawn, or takes
  its power.

Successful originations are on record in the journal:

* `Origination`, `Network.originations`: all of them so far, the latest first;
* `Network.originatedBy`: the tokens that one node has originated.
-/

/-- An origination that has succeeded. -/
structure Origination where
  index : Nat
  token : Token
  time : Nat
deriving DecidableEq, Repr

/-- The origination that a notice reports. -/
def Notice.origination? : Notice → Option Origination
  | originated index token now => some ⟨index, token, now⟩
  | _ => none

namespace Network

/-! ### The record of originations -/

/-- All originations that have succeeded so far, the latest first. -/
def originations (net : Network) : List Origination := net.journal.filterMap Notice.origination?

/-- The tokens that a node has originated so far, the latest first. -/
def originatedBy (net : Network) (i : Nat) : List Token :=
  (net.originations.filter (·.index = i)).map (·.token)

theorem originations_congr {net net' : Network} (h : net'.journal = net.journal) :
    net'.originations = net.originations := by
  unfold originations; rw [h]

@[simp] theorem originations_watch (net : Network) :
    net.watch.originations = net.originations :=
  originations_congr (journal_watch net)

/-- Notices that report no origination leave the record alone. -/
theorem originations_tell {net : Network} {notices : List Notice}
    (h : ∀ x ∈ notices, x.origination? = none) :
    (net.tell notices).originations = net.originations := by
  unfold originations
  rw [journal_tell, List.filterMap_append, List.filterMap_eq_nil_iff.2, List.nil_append]
  exact fun x hx => h x (List.mem_reverse.1 hx)

/-- What a node reports about itself is no origination. -/
theorem originations_absorb (net : Network) (i : Nat) {n : Node} {r : Reaction}
    (h : r.Lawful n) : (net.absorb i r).originations = net.originations := by
  rw [absorb, originations_tell, originations_congr (journal_setNode ..)]
  intro x hx
  obtain ⟨_, rfl⟩ := h.notices x hx
  rfl

theorem originatedBy_congr {net net' : Network} (h : net'.originations = net.originations)
    (i : Nat) : net'.originatedBy i = net.originatedBy i := by
  unfold originatedBy; rw [h]

/-! ### The things that happen -/

/-- One more datagram has arrived. -/
def countDelivery (net : Network) : Network :=
  { net with metrics := { net.metrics with delivered := net.metrics.delivered + 1 } }

/-- A node has lost power, and its restart timer is set. -/
def crashed (net : Network) (i generation : Nat) (r : Reaction) (recovery : Nat) : Network :=
  let net := net.absorb i r
  let net := { net with metrics := { net.metrics with crashes := net.metrics.crashes + 1 } }
  net.setTimer i .restart generation recovery

/-- A node has originated a token, nothing of which is sent yet. -/
def noted (net : Network) (i : Nat) (r : Reaction) (t : Token) : Network :=
  { (net.absorb i r).tell [.originated i t net.clock] with
    lastBegin := some net.clock
    convergedAt := none }

/-- A node has originated a token, and its walk has begun. -/
def begun (net : Network) (i : Nat) (r : Reaction) (t : Token) : Network :=
  (net.noted i r t).route i r.sends

/-- The next failure tick is planned, some choices have been made, and some crashes were left out
    because they would have cut the network in two. -/
def ticked (net : Network) (f : FailureConfig) (g : Generator) (vetoes : Nat) : Network :=
  { net.schedule (net.clock + f.tick) .failureTick with
    generator := g
    metrics := { net.metrics with vetoed := net.metrics.vetoed + vetoes } }

/-- One of the candidates of a failure mode, drawn at random. -/
def candidate? (net : Network) (mode : FailureMode) : Option Nat :=
  match net.candidates mode with
  | .ok cs => (net.generator.below? cs.length).bind fun (k, _) => cs[k]?
  | .error _ => none

/-- The node that a failure tick draws.  Nobody is drawn where too many nodes are without power
    already, where the odds are against it, or where there are no candidates. -/
def victim? (net : Network) (f : FailureConfig) : Option Nat :=
  if f.maxConcurrent ≤ (net.downFlags.filter id).length then none
  else
    match net.generator.below? f.probability with
    | some (0, g) => { net with generator := g }.candidate? f.mode
    | _ => none

/-- What an event does to a network from whose queue it has been taken. -/
inductive Effect : Network → Occurrence → Network → Prop
  | arrival {net : Network} {i : Nat} {n : Node} (sender : Address) (bytes : List UInt8)
      (hn : net.node? i = some n) :
      Effect net (.deliver i sender bytes)
        (net.countDelivery.follow i (n.handleDatagram sender bytes net.clock))
  | stale {net : Network} {i : Nat} {m : Member} (kind : TimerKind) (generation : Nat)
      (hm : net.members[i]? = some m) (hg : m.generation ≠ generation) :
      Effect net (.timer i kind generation) net
  | fired {net : Network} {i : Nat} {m : Member} (kind : TimerKind)
      (hm : net.members[i]? = some m) :
      Effect net (.timer i kind m.generation) (net.fireTimer i m kind)
  | ignored {net : Network} : net.failures = none → Effect net .failureTick net
  | considered {net : Network} {f : FailureConfig} (g : Generator) (vetoes : Nat)
      (hf : net.failures = some f) :
      Effect net .failureTick (net.ticked f g vetoes)
  /-- A failure acts as a planned crash of a node that the others can do without. -/
  | injected {net net' : Network} {f : FailureConfig} {i : Nat} (g : Generator)
      (hf : net.failures = some f)
      (hi : net.topology.isConnectedWithout? (net.downFlags.set i true) = some true)
      (h : Effect ((net.ticked f g 0).tell [.failing i net.clock])
        (.action (.crash i f.recoveryDelay)) net') :
      Effect net .failureTick net'
  | originated {net : Network} {i : Nat} {n : Node} {value : Option Int32} {r : Reaction}
      {t : Token} (hn : net.node? i = some n) (ho : n.originate value net.clock = (r, .ok t)) :
      Effect net (.action (.originate i value)) (net.begun i r t)
  | notOriginated {net : Network} {i : Nat} {n : Node} {value : Option Int32} {r : Reaction}
      {e : Refusal} (hn : net.node? i = some n)
      (ho : n.originate value net.clock = (r, .error e)) :
      Effect net (.action (.originate i value)) ((net.absorb i r).tell [.notOriginated i e])
  | nowhere {net : Network} {i : Nat} (value : Option Int32) (hn : net.node? i = none) :
      Effect net (.action (.originate i value)) (net.tell [.noSuchNode i])
  | crashed {net : Network} {i recovery : Nat} {m : Member} {r : Reaction}
      (hm : net.members[i]? = some m) (hp : m.node.powerDown recovery net.clock = .ok r) :
      Effect net (.action (.crash i recovery)) (net.crashed i m.generation r recovery)
  | notCrashed {net : Network} {i recovery : Nat} {m : Member} {e : Refusal}
      (hm : net.members[i]? = some m) (hp : m.node.powerDown recovery net.clock = .error e) :
      Effect net (.action (.crash i recovery)) (net.tell [.notCrashed i e])
  | noCrash {net : Network} {i : Nat} (recovery : Nat) (hm : net.members[i]? = none) :
      Effect net (.action (.crash i recovery)) net
  | roleSet {net : Network} {i : Nat} {n : Node} (role : Role) (hn : net.node? i = some n) :
      Effect net (.action (.setRole i role)) (net.absorb i (n.setRole role))
  | noRole {net : Network} {i : Nat} (role : Role) (hn : net.node? i = none) :
      Effect net (.action (.setRole i role)) net
  | lossRateSet {net : Network} (rate : Binary64) :
      Effect net (.action (.setLossRate rate))
        { net with topology := net.topology.setLossRate rate }

/-! ### Nothing else happens -/

/-- A result of two steps comes from a result of the first one. -/
theorem ok_of_bind {α β : Type} {x : Except Fault α} {f : α → Except Fault β} {b : β}
    (h : (x >>= f) = .ok b) : ∃ a, x = .ok a ∧ f a = .ok b := by
  cases x with
  | error e => cases h
  | ok a => exact ⟨a, rfl, h⟩

/-- A result that comes after an instant has been shown. -/
theorem ok_of_shown_bind {α : Type} {t : Nat} {f : Nat → Except Fault α} {a : α}
    (h : (shown t >>= f) = .ok a) : f t = .ok a := by
  unfold shown at h
  split at h
  · exact h
  · cases h

/-- A result that comes after a check of instants. -/
theorem ok_of_ensure_bind {α : Type} {inTime : Bool} {f : Unit → Except Fault α} {a : α}
    (h : (ensure inTime >>= f) = .ok a) : f () = .ok a := by
  unfold ensure at h
  split at h
  · exact h
  · cases h

/-- Where all that is planned is in time, an event leaves what it is to leave. -/
theorem eq_of_commit {net after net' : Network} {timers : List Nat}
    (h : net.commit after timers = .ok net') : net' = after := by
  have h := ok_of_ensure_bind h
  exact (Except.ok.inj h).symm

/-- Nothing that an event has planned is in the way if it lies within the longest span. -/
theorem commit_eq_ok {net after : Network} {timers : List Nat}
    (htimers : ∀ span ∈ timers, net.clock + span < Time.spanLimit)
    (harrivals : net.nextSeq + timers.length < after.nextSeq →
      net.clock + net.topology.delay < Time.spanLimit) :
    net.commit after timers = .ok after := by
  have hahead : ∀ span ∈ net.ahead after timers, net.clock + span < Time.spanLimit := by
    intro span hspan
    unfold ahead at hspan
    split at hspan
    · next hsending =>
      rcases List.mem_cons.1 hspan with rfl | hspan
      · exact harrivals hsending
      · exact htimers span hspan
    · exact htimers span hspan
  unfold commit ensure
  rw [if_pos (List.all_eq_true.2 fun span hspan => decide_eq_true (hahead span hspan))]
  rfl

theorem effect_of_deliver {net net' : Network} {i : Nat} {sender : Address} {bytes : List UInt8}
    (h : net.deliver i sender bytes = .ok net') : Effect net (.deliver i sender bytes) net' := by
  have h := ok_of_shown_bind h
  simp only at h
  cases hn : net.node? i with
  | none => rw [hn] at h; cases h
  | some n =>
    rw [hn] at h
    obtain rfl := eq_of_commit (ok_of_ensure_bind h)
    exact .arrival sender bytes hn

theorem effect_of_fire {net net' : Network} {i generation : Nat} {kind : TimerKind}
    (h : net.fire i kind generation = .ok net') :
    Effect net (.timer i kind generation) net' := by
  unfold fire at h
  cases hm : net.members[i]? with
  | none => rw [hm] at h; cases h
  | some m =>
    rw [hm] at h
    simp only at h
    split at h
    · next hg =>
      obtain rfl := Except.ok.inj h
      exact .stale kind generation hm hg
    · next hg =>
      obtain rfl : m.generation = generation := by simpa using hg
      obtain rfl := eq_of_commit (ok_of_shown_bind h)
      exact .fired kind hm

theorem effect_of_originate {net net' : Network} {i : Nat} {value : Option Int32}
    (h : net.originate i value = .ok net') :
    Effect net (.action (.originate i value)) net' := by
  have h := ok_of_shown_bind h
  simp only at h
  cases hn : net.node? i with
  | none =>
    rw [hn] at h
    obtain rfl := Except.ok.inj h
    exact .nowhere value hn
  | some n =>
    rw [hn] at h
    simp only at h
    rcases ho : n.originate value net.clock with ⟨r, e | t⟩
    · rw [ho] at h
      obtain rfl := Except.ok.inj h
      exact .notOriginated hn ho
    · rw [ho] at h
      obtain rfl := eq_of_commit h
      exact .originated hn ho

theorem effect_of_crash {net net' : Network} {i recovery : Nat}
    (h : net.crash i recovery = .ok net') :
    Effect net (.action (.crash i recovery)) net' := by
  have h := ok_of_shown_bind h
  simp only at h
  cases hm : net.members[i]? with
  | none =>
    rw [hm] at h
    obtain rfl := Except.ok.inj h
    exact .noCrash recovery hm
  | some m =>
    rw [hm] at h
    -- the restart has to be at an instant that clocks can show
    have h := ok_of_ensure_bind h
    cases hp : m.node.powerDown recovery net.clock with
    | error e =>
      rw [hp] at h
      obtain rfl := Except.ok.inj h
      exact .notCrashed hm hp
    | ok r =>
      rw [hp] at h
      obtain rfl := Except.ok.inj h
      exact .crashed hm hp

theorem draw_eq_ok {net net' : Network} {bound k : Nat} (h : net.draw bound = .ok (k, net')) :
    ∃ g, net.generator.below? bound = some (k, g) ∧ net' = { net with generator := g } := by
  unfold draw at h
  split at h
  · next n g hg =>
    obtain ⟨rfl, rfl⟩ := Prod.mk.inj (Except.ok.inj h)
    exact ⟨g, hg, rfl⟩
  · cases h

/-- The candidate that is drawn fails, if there is one. -/
theorem injectFailure_cases {net net' : Network} {f : FailureConfig}
    (h : net.injectFailure f = .ok net') :
    net.candidate? f.mode = none ∧ net' = net ∨
      ∃ g i, net.candidate? f.mode = some i ∧
        { net with generator := g }.failNode i f.recoveryDelay = .ok net' := by
  obtain ⟨cs, hcs, h⟩ := ok_of_bind h
  unfold candidate?
  rw [hcs]
  split at h
  · next hempty =>
    obtain rfl := Except.ok.inj h
    refine .inl ⟨?_, rfl⟩
    rw [List.isEmpty_iff.1 hempty]
    rfl
  · obtain ⟨⟨k, net₁⟩, hd, h⟩ := ok_of_bind h
    obtain ⟨g, hg, rfl⟩ := draw_eq_ok hd
    simp only at h
    split at h
    · next i hi => exact .inr ⟨g, i, by simp only [hg, Option.bind_some, hi], h⟩
    · cases h

/-- A failure tick plans the next one.  Then the node that is drawn crashes, unless there is none
    or the others cannot do without it. -/
theorem considerFailure_cases {net net' : Network} {f : FailureConfig}
    (hf : net.failures = some f) (h : net.considerFailure = .ok net') :
    ∃ g, net.victim? f = none ∧ net' = net.ticked f g 0 ∨
      ∃ i, net.victim? f = some i ∧
        (net.topology.isConnectedWithout? (net.downFlags.set i true) = some false ∧
            net' = net.ticked f g 1 ∨
          net.topology.isConnectedWithout? (net.downFlags.set i true) = some true ∧
            ((net.ticked f g 0).tell [.failing i net.clock]).crash i f.recoveryDelay =
              .ok net') := by
  unfold considerFailure at h
  rw [hf] at h
  simp only at h
  split at h
  · cases h
  split at h
  · next hfull =>
    obtain rfl := Except.ok.inj h
    exact ⟨net.generator, .inl ⟨if_pos hfull, rfl⟩⟩
  next hfree =>
  -- the odds are drawn first, and only a zero is followed by the draw of a candidate
  have hvictim : net.victim? f = match net.generator.below? f.probability with
      | some (0, g) => { net with generator := g }.candidate? f.mode
      | _ => none := if_neg hfree
  split at h
  · next hzero =>
    obtain rfl := Except.ok.inj h
    refine ⟨net.generator, .inl ⟨?_, rfl⟩⟩
    rw [hvictim, hzero]
    rfl
  obtain ⟨⟨k, net₁⟩, hd, h⟩ := ok_of_bind h
  obtain ⟨g, hg, rfl⟩ := draw_eq_ok hd
  have hodds : net.generator.below? f.probability = some (k, g) := hg
  rw [hodds] at hvictim
  simp only at h
  split at h
  · next hk =>
    subst hk
    have hcandidate : net.victim? f = (net.ticked f g 0).candidate? f.mode := hvictim
    have hinject : (net.ticked f g 0).injectFailure f = .ok net' := h
    obtain ⟨hnone, rfl⟩ | ⟨g', i, hi, h⟩ := injectFailure_cases hinject
    · exact ⟨g, .inl ⟨hcandidate.trans hnone, rfl⟩⟩
    · refine ⟨g', .inr ⟨i, hcandidate.trans hi, ?_⟩⟩
      unfold failNode at h
      split at h
      · cases h
      · next hcut => exact .inl ⟨hcut, (Except.ok.inj h).symm⟩
      · next hwhole => exact .inr ⟨hwhole, h⟩
  · next hk =>
    obtain rfl := Except.ok.inj h
    refine ⟨g, .inl ⟨?_, rfl⟩⟩
    rw [hvictim]
    cases k with
    | zero => exact absurd rfl hk
    | succ k => rfl

/-- A failure tick plans the next one, and then at most one node crashes. -/
theorem effect_of_considerFailure {net net' : Network} (h : net.considerFailure = .ok net') :
    Effect net .failureTick net' := by
  cases hf : net.failures with
  | none =>
    unfold considerFailure at h
    rw [hf] at h
    obtain rfl := Except.ok.inj h
    exact .ignored hf
  | some f =>
    obtain ⟨g, ⟨_, rfl⟩ | ⟨i, _, ⟨_, rfl⟩ | ⟨hi, h⟩⟩⟩ := considerFailure_cases hf h
    · exact .considered g 0 hf
    · exact .considered g 1 hf
    · exact .injected g hf hi (effect_of_crash h)

/-- Every event that can be processed has one of the effects. -/
theorem effect_of_process {net net' : Network} {e : Occurrence} (h : net.process e = .ok net') :
    Effect net e net' := by
  cases e with
  | deliver i sender bytes => exact effect_of_deliver h
  | timer i kind generation => exact effect_of_fire h
  | failureTick => exact effect_of_considerFailure h
  | action a =>
    cases a with
    | originate i value => exact effect_of_originate h
    | crash i recovery => exact effect_of_crash h
    | setRole i role =>
      obtain rfl := Except.ok.inj h
      unfold setRole
      cases hn : net.node? i with
      | none => exact .noRole role hn
      | some n => exact .roleSet role hn
    | setLossRate rate =>
      obtain rfl := Except.ok.inj h
      exact .lossRateSet rate

/-- Roles are set from the outside as they are by an event. -/
theorem effect_setRole (net : Network) (i : Nat) (role : Role) :
    Effect net (.action (.setRole i role)) (net.setRole i role) :=
  effect_of_process rfl

/-! ### What must have happened -/

/-- A datagram arrives at a node that is there. -/
theorem effect_arrival {net net' : Network} {i : Nat} {sender : Address} {bytes : List UInt8}
    (he : Effect net (.deliver i sender bytes) net') :
    ∃ n, net.node? i = some n ∧
      net' = net.countDelivery.follow i (n.handleDatagram sender bytes net.clock) := by
  cases he with
  | arrival _ _ hn => exact ⟨_, hn, rfl⟩

/-- A timer of the present generation of a node fires. -/
theorem effect_fired {net net' : Network} {i : Nat} {kind : TimerKind} {m : Member}
    (he : Effect net (.timer i kind m.generation) net') (hm : net.members[i]? = some m) :
    net' = net.fireTimer i m kind := by
  -- the generation of the timer is a variable while the effects are gone through
  generalize hg : m.generation = g at he
  cases he with
  | stale _ _ hm' hne =>
    obtain rfl := Option.some.inj (hm.symm.trans hm')
    exact absurd hg hne
  | fired _ hm' =>
    obtain rfl := Option.some.inj (hm.symm.trans hm')
    rfl

/-- An origination that succeeds goes on record. -/
theorem originations_begun (net : Network) (i : Nat) {n : Node} {r : Reaction} (t : Token)
    (hr : r.Lawful n) :
    (net.begun i r t).originations = ⟨i, t, net.clock⟩ :: net.originations := by
  rw [begun, originations_congr (journal_route ..), ← originations_absorb net i hr]
  rfl

/-- Only an origination that succeeds goes on record. -/
theorem originations_effect {net net' : Network} {e : Occurrence} (he : Effect net e net') :
    net'.originations = net.originations ∨
      ∃ i n value r t, e = .action (.originate i value) ∧ net.node? i = some n ∧
        n.originate value net.clock = (r, .ok t) ∧ net' = net.begun i r t ∧
        net'.originations = ⟨i, t, net.clock⟩ :: net.originations := by
  have hfollow : ∀ (net : Network) (i : Nat) (n : Node) (r : Reaction), r.Lawful n →
      (net.follow i r).originations = net.originations := by
    intro net i n r hr
    exact (originations_congr (journal_route ..)).trans (originations_absorb net i hr)
  induction he with
  | @arrival net i n sender bytes hn =>
    exact .inl (hfollow _ _ n _ (n.lawful_handleDatagram sender bytes _))
  | stale kind generation hm hg => exact .inl rfl
  | @fired net i m kind hm =>
    left
    cases kind with
    | announce => exact hfollow _ _ m.node _ (m.node.lawful_handle _ _)
    | beacon => exact hfollow _ _ m.node _ (m.node.lawful_handle _ _)
    | restart => exact hfollow _ _ m.node _ (m.node.lawful_handle _ _)
  | ignored hf => exact .inl rfl
  | considered g vetoes hf => exact .inl rfl
  | injected g hf hi he ih =>
    -- a failure is no origination
    obtain h | ⟨_, _, _, _, _, h, _⟩ := ih
    · exact .inl h
    · cases h
  | @originated net i n value r t hn ho =>
    refine .inr ⟨i, n, value, r, t, rfl, hn, ho, rfl, ?_⟩
    exact originations_begun net i t (Node.lawful_of_originate ho)
  | @notOriginated net i n value r e hn ho =>
    left
    rw [originations_tell (by simp [Notice.origination?])]
    exact originations_absorb net i (Node.lawful_of_originate ho)
  | nowhere value hn => exact .inl (originations_tell (by simp [Notice.origination?]))
  | @crashed net i recovery m r hm hp =>
    obtain ⟨_, _, _, hr⟩ := Node.powerDown_eq_ok hp
    exact .inl (originations_absorb net i hr)
  | notCrashed hm hp => exact .inl (originations_tell (by simp [Notice.origination?]))
  | noCrash recovery hm => exact .inl rfl
  | @roleSet net i n role hn => exact .inl (originations_absorb net i (n.lawful_setRole role))
  | noRole role hn => exact .inl rfl
  | lossRateSet rate => exact .inl rfl

end Network

end TokenMesh
