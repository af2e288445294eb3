import TokenMesh.Proofs.Network.Run

namespace TokenMesh

/-!
# The timers of a network

Every node has one announcement timer and one beacon timer at any time, and a restart timer for as
long as it is without power.  They are set again while the node is down, and a restart begins them
anew, so what keeps them from piling up is that timers of past generations do nothing.

* `timesIn`: when an event is to happen, according to a list of scheduled ones;
* `Timed`: the timers of one node are as they should be;
* `Network.Timely`: those of all nodes are, and as many nodes have crashed as have restarted or are
  still down;
* `Network.timely_effect`: every event keeps it that way.
-/

/-- The times at which an event is to happen, if the events of a list are scheduled. -/
def timesIn (l : List (Scheduled Occurrence)) (e : Occurrence) : List Nat :=
  (l.filter (·.event = e)).map (·.time)

theorem timesIn_perm {l l' : List (Scheduled Occurrence)} (h : l.Perm l') (e : Occurrence) :
    (timesIn l e).Perm (timesIn l' e) :=
  (h.filter _).map _

theorem timesIn_cons_self (t s : Nat) (e : Occurrence) (l : List (Scheduled Occurrence)) :
    timesIn (⟨t, s, e⟩ :: l) e = t :: timesIn l e := by
  simp [timesIn]

theorem timesIn_cons_of_ne {x : Scheduled Occurrence} {e : Occurrence} (h : x.event ≠ e)
    (l : List (Scheduled Occurrence)) : timesIn (x :: l) e = timesIn l e := by
  simp [timesIn, h]

/-- A time at which an event is to happen is that of a scheduled event. -/
theorem exists_of_mem_timesIn {l : List (Scheduled Occurrence)} {e : Occurrence} {t : Nat}
    (h : t ∈ timesIn l e) : ∃ x ∈ l, x.event = e ∧ x.time = t := by
  obtain ⟨x, hx, rfl⟩ := List.mem_map.1 h
  obtain ⟨hl, he⟩ := List.mem_filter.1 hx
  exact ⟨x, hl, of_decide_eq_true he, rfl⟩

/-- Timers of different generations are different events. -/
theorem timer_ne_of_generation {i g g' : Nat} {kind kind' : TimerKind} (h : g ≠ g') :
    Occurrence.timer i kind g ≠ .timer i kind' g' :=
  fun heq => h (Occurrence.timer.inj heq).2.2

/-- The member `m` is node `i`, and among the scheduled events of a list its timers are as they
    should be: one announcement timer and one beacon timer of its generation, a restart timer of
    that generation for the instant at which it is switched on again, if it is down, and no timer
    of a generation to come. -/
structure Timed (l : List (Scheduled Occurrence)) (i : Nat) (m : Member) : Prop where
  announce : ∃ t, timesIn l (.timer i .announce m.generation) = [t]
  beacon : ∃ t, timesIn l (.timer i .beacon m.generation) = [t]
  restart : timesIn l (.timer i .restart m.generation) = m.node.restartDeadline?.toList
  later : ∀ kind g, m.generation < g → timesIn l (.timer i kind g) = []
  generation : m.generation = m.node.counters.restarts

namespace Timed

variable {l l' : List (Scheduled Occurrence)} {i : Nat} {m m' : Member}

/-! ### One node -/

/-- The order of a list of events does not matter. -/
theorem perm (h : Timed l i m) (hl : l.Perm l') : Timed l' i m where
  announce := by
    obtain ⟨t, ht⟩ := h.announce
    refine ⟨t, List.perm_singleton.1 ?_⟩
    rw [← ht]
    exact (timesIn_perm hl _).symm
  beacon := by
    obtain ⟨t, ht⟩ := h.beacon
    refine ⟨t, List.perm_singleton.1 ?_⟩
    rw [← ht]
    exact (timesIn_perm hl _).symm
  restart := by
    have hp := (timesIn_perm hl (.timer i .restart m.generation)).symm
    rw [h.restart] at hp
    cases hd : m.node.restartDeadline? with
    | none => rw [hd] at hp; exact List.perm_nil.1 hp
    | some t => rw [hd] at hp; exact List.perm_singleton.1 hp
  later kind g hg := by
    have hp := (timesIn_perm hl (.timer i kind g)).symm
    rw [h.later kind g hg] at hp
    exact List.perm_nil.1 hp
  generation := h.generation

/-- Lists in which the timers of a node agree. -/
theorem of_times (h : Timed l i m)
    (ht : ∀ kind g, m.generation ≤ g →
      timesIn l' (.timer i kind g) = timesIn l (.timer i kind g)) : Timed l' i m where
  announce := by rw [ht _ _ (Nat.le_refl _)]; exact h.announce
  beacon := by rw [ht _ _ (Nat.le_refl _)]; exact h.beacon
  restart := by rw [ht _ _ (Nat.le_refl _)]; exact h.restart
  later kind g hg := by rw [ht _ _ (Nat.le_of_lt hg)]; exact h.later kind g hg
  generation := h.generation

/-- The timers look at nothing but the generation, the power and the restarts of a node. -/
theorem of_member (h : Timed l i m) (hg : m'.generation = m.generation)
    (hd : m'.node.restartDeadline? = m.node.restartDeadline?)
    (hr : m'.node.counters.restarts = m.node.counters.restarts) : Timed l i m' where
  announce := by rw [hg]; exact h.announce
  beacon := by rw [hg]; exact h.beacon
  restart := by rw [hg, hd]; exact h.restart
  later kind g hlt := h.later kind g (hg ▸ hlt)
  generation := by rw [hg, hr]; exact h.generation

/-- An event that is no timer of the node makes no difference. -/
theorem add {x : Scheduled Occurrence} (h : Timed l i m)
    (hx : ∀ kind g, x.event ≠ .timer i kind g) : Timed (x :: l) i m :=
  h.of_times fun kind g _ => timesIn_cons_of_ne (hx kind g) l

/-- Without an event that is no timer of the present generation of the node, all is as before. -/
theorem drop {x : Scheduled Occurrence} (h : Timed (x :: l) i m)
    (hx : ∀ kind, x.event ≠ .timer i kind m.generation) : Timed l i m := by
  apply h.of_times
  intro kind g hg
  by_cases he : x.event = .timer i kind g
  · -- a timer of the node would be one of the present generation, for there are no later ones
    have hlt : m.generation < g := by
      refine Nat.lt_of_le_of_ne hg fun heq => hx kind ?_
      rw [he, heq]
    have hnil := h.later kind g hlt
    obtain ⟨t, s, e⟩ := x
    simp only at he
    subst he
    rw [timesIn_cons_self] at hnil
    cases hnil
  · exact (timesIn_cons_of_ne he l).symm

theorem append (h : Timed l i m) {xs : List (Scheduled Occurrence)}
    (hx : ∀ x ∈ xs, ∀ kind g, x.event ≠ .timer i kind g) : Timed (xs ++ l) i m := by
  induction xs with
  | nil => exact h
  | cons x xs ih =>
    exact (ih fun y hy => hx y (List.mem_cons_of_mem _ hy)).add (hx x List.mem_cons_self)

/-- A timer that fires and is set again, other than the restart timer. -/
theorem rearm {kind : TimerKind} (hk : kind ≠ .restart) {t s t' s' : Nat}
    (h : Timed (⟨t, s, .timer i kind m.generation⟩ :: l) i m) :
    Timed (⟨t', s', .timer i kind m.generation⟩ :: l) i m := by
  -- other timers do not see the difference, and this one is the only one of its kind
  have hother : ∀ k g, (k ≠ kind ∨ g ≠ m.generation) →
      timesIn (⟨t', s', .timer i kind m.generation⟩ :: l) (.timer i k g) =
        timesIn (⟨t, s, .timer i kind m.generation⟩ :: l) (.timer i k g) := by
    intro k g hne
    have hne' : Occurrence.timer i kind m.generation ≠ .timer i k g := by
      intro heq
      obtain ⟨_, rfl, rfl⟩ := Occurrence.timer.inj heq
      simp at hne
    rw [timesIn_cons_of_ne hne', timesIn_cons_of_ne hne']
  have hsame : ∀ u, timesIn (⟨t, s, .timer i kind m.generation⟩ :: l)
      (.timer i kind m.generation) = [u] →
      timesIn (⟨t', s', .timer i kind m.generation⟩ :: l) (.timer i kind m.generation) = [t'] := by
    intro u hu
    rw [timesIn_cons_self] at hu
    rw [timesIn_cons_self, (List.cons.inj hu).2]
  refine ⟨?_, ?_, ?_, ?_, h.generation⟩
  · by_cases hka : kind = .announce
    · subst hka
      obtain ⟨u, hu⟩ := h.announce
      exact ⟨t', hsame u hu⟩
    · rw [hother _ _ (.inl (Ne.symm hka))]
      exact h.announce
  · by_cases hkb : kind = .beacon
    · subst hkb
      obtain ⟨u, hu⟩ := h.beacon
      exact ⟨t', hsame u hu⟩
    · rw [hother _ _ (.inl (Ne.symm hkb))]
      exact h.beacon
  · rw [hother _ _ (.inl (Ne.symm hk))]
    exact h.restart
  · intro k g hg
    rw [hother _ _ (.inr (Nat.ne_of_gt hg))]
    exact h.later k g hg

/-- A node whose restart timer is at hand is down, and it is to be switched on at that instant. -/
theorem deadline_of_restart {t s : Nat}
    (h : Timed (⟨t, s, .timer i .restart m.generation⟩ :: l) i m) :
    m.node.restartDeadline? = some t := by
  have hr := h.restart
  rw [timesIn_cons_self] at hr
  cases hd : m.node.restartDeadline? with
  | none => rw [hd] at hr; cases hr
  | some u =>
    rw [hd] at hr
    rw [(List.cons.inj hr).1]

/-- The boot timers of a node are all that it needs, if no other timers of its generation or of
    later ones are set. -/
theorem of_boot {a b c d : Nat}
    (hnil : ∀ kind g, m.generation ≤ g → timesIn l (.timer i kind g) = [])
    (hd : m.node.restartDeadline? = none) (hr : m.generation = m.node.counters.restarts) :
    Timed (⟨a, b, .timer i .beacon m.generation⟩ ::
      ⟨c, d, .timer i .announce m.generation⟩ :: l) i m := by
  refine ⟨⟨c, ?_⟩, ⟨a, ?_⟩, ?_, ?_, hr⟩
  · rw [timesIn_cons_of_ne (by simp), timesIn_cons_self, hnil _ _ (Nat.le_refl _)]
  · rw [timesIn_cons_self, timesIn_cons_of_ne (by simp), hnil _ _ (Nat.le_refl _)]
  · rw [hd, timesIn_cons_of_ne (by simp), timesIn_cons_of_ne (by simp), hnil _ _ (Nat.le_refl _)]
    rfl
  · intro kind g hlt
    have hne := Nat.ne_of_lt hlt
    rw [timesIn_cons_of_ne (timer_ne_of_generation hne),
      timesIn_cons_of_ne (timer_ne_of_generation hne), hnil _ _ (Nat.le_of_lt hlt)]

/-- A restart: what was set before belongs to the past, and the boot timers are all there is. -/
theorem boot {t u a b c d : Nat}
    (h : Timed (⟨t, u, .timer i .restart m.generation⟩ :: l) i m)
    (hg : m'.generation = m.generation + 1) (hd : m'.node.restartDeadline? = none)
    (hr : m'.node.counters.restarts = m.node.counters.restarts + 1) :
    Timed (⟨a, b, .timer i .beacon (m.generation + 1)⟩ ::
      ⟨c, d, .timer i .announce (m.generation + 1)⟩ :: l) i m' := by
  rw [← hg]
  refine of_boot ?_ hd (by rw [hg, hr, h.generation])
  intro kind g hle
  have hlt : m.generation < g := by omega
  rw [← h.later kind g hlt, timesIn_cons_of_ne (timer_ne_of_generation (Nat.ne_of_lt hlt))]

/-- A crash: a node with power loses it, and its restart timer is set. -/
theorem crash {t s : Nat} (h : Timed l i m) (hup : m.node.restartDeadline? = none)
    (hg : m'.generation = m.generation) (hd : m'.node.restartDeadline? = some t)
    (hr : m'.node.counters.restarts = m.node.counters.restarts) :
    Timed (⟨t, s, .timer i .restart m.generation⟩ :: l) i m' := by
  refine ⟨?_, ?_, ?_, ?_, ?_⟩
  · rw [hg, timesIn_cons_of_ne (by simp)]
    exact h.announce
  · rw [hg, timesIn_cons_of_ne (by simp)]
    exact h.beacon
  · rw [hg, timesIn_cons_self, h.restart, hup, hd]
    rfl
  · intro kind g hlt
    rw [hg] at hlt
    rw [timesIn_cons_of_ne (timer_ne_of_generation (Nat.ne_of_lt hlt))]
    exact h.later kind g hlt
  · rw [hg, hr, h.generation]

end Timed

namespace Network

/-- The scheduled events of a list include the timers of all nodes as they should be, and a node
    has crashed once for each of its restarts, and once more if it is down. -/
structure Timely (net : Network) (l : List (Scheduled Occurrence)) : Prop where
  timers : ∀ i m, net.members[i]? = some m → Timed l i m
  crashes : net.metrics.crashes = net.total fun _ n => n.counters.restarts + n.isDown.toNat

/-! ### All nodes -/

/-- Without a message to send, a node that reacts is only kept in its new state. -/
theorem follow_of_silent {net : Network} {i : Nat} {r : Reaction} (h : r.sends = []) :
    net.follow i r = net.absorb i r := by
  unfold follow
  rw [h]
  rfl

namespace Timely

variable {net net' : Network} {l l' held : List (Scheduled Occurrence)}

theorem perm (h : Timely net l) (hl : l.Perm l') : Timely net l' :=
  ⟨fun i m hm => (h.timers i m hm).perm hl, h.crashes⟩

/-- Only the members and the number of crashes matter. -/
theorem of_same (h : Timely net l) (hm : net'.members = net.members)
    (hc : net'.metrics.crashes = net.metrics.crashes) : Timely net' l where
  timers i m hi := h.timers i m (hm ▸ hi)
  crashes := by rw [hc, h.crashes, total_congr _ (nodes_congr hm)]

/-- An event that is no timer at all makes no difference. -/
theorem add {x : Scheduled Occurrence} (h : Timely net l)
    (hx : ∀ i kind g, x.event ≠ .timer i kind g) : Timely net (x :: l) :=
  ⟨fun i m hm => (h.timers i m hm).add (hx i), h.crashes⟩

theorem drop {x : Scheduled Occurrence} (h : Timely net (x :: l))
    (hx : ∀ i kind g, x.event ≠ .timer i kind g) : Timely net l :=
  ⟨fun i m hm => (h.timers i m hm).drop fun kind => hx i kind _, h.crashes⟩

/-- Something other than a timer is planned. -/
theorem schedule {time : Nat} {e : Occurrence} (h : Timely net net.pending)
    (he : ∀ i kind g, e ≠ .timer i kind g) :
    Timely (net.schedule time e) (net.schedule time e).pending := by
  have hadd : Timely net (⟨time, net.nextSeq, e⟩ :: net.pending) := h.add he
  exact (hadd.perm (pending_schedule ..).symm).of_same rfl rfl

/-- One node changes, and so may its timers.  The crashes have to change as its restarts and its
    power do. -/
theorem update {i : Nat} {m m' : Member} (h : Timely net l) (hm : net.members[i]? = some m)
    (hmem : ∀ j : Nat, net'.members[j]? = if i = j then some m' else net.members[j]?)
    (hc : net'.metrics.crashes + (m.node.counters.restarts + m.node.isDown.toNat) =
      net.metrics.crashes + (m'.node.counters.restarts + m'.node.isDown.toNat))
    (hself : Timed l' i m') (hothers : ∀ j m, i ≠ j → Timed l j m → Timed l' j m) :
    Timely net' l' where
  timers j m₀ hj := by
    rw [hmem] at hj
    by_cases hij : i = j
    · subst hij
      rw [if_pos rfl] at hj
      obtain rfl := Option.some.inj hj
      exact hself
    · rw [if_neg hij] at hj
      exact hothers j m₀ hij (h.timers j m₀ hj)
  crashes := by
    have hnodes : net'.nodes = (net.setNode i m'.node).nodes := by
      apply nodes_ext
      intro j
      unfold node?
      rw [hmem, net.getElem?_members_setNode_of_some i m'.node hm]
      split <;> rfl
    have hset := total_setNode (fun _ n => n.counters.restarts + n.isDown.toNat) m'.node
      (node?_eq_some_iff.2 ⟨m, hm, rfl⟩)
    have hold := h.crashes
    rw [total_congr _ hnodes]
    omega

/-- A node that neither gets nor loses power keeps its timers. -/
theorem react {i : Nat} {n : Node} {r : Reaction} (h : Timely net l) (hi : net.node? i = some n)
    (hr : r.Steady n) (hm : net'.members = (net.setNode i r.node).members)
    (hc : net'.metrics.crashes = net.metrics.crashes) : Timely net' l := by
  obtain ⟨m, hmi, rfl⟩ := node?_eq_some_iff.1 hi
  have hmem : ∀ j : Nat, net'.members[j]? =
      if i = j then some { m with node := r.node } else net.members[j]? := by
    rw [hm]
    exact net.getElem?_members_setNode_of_some i r.node hmi
  have hsame : net'.metrics.crashes + (m.node.counters.restarts + m.node.isDown.toNat) =
      net.metrics.crashes + (r.node.counters.restarts + r.node.isDown.toNat) := by
    rw [hc, hr.restarts, hr.isDown]
  refine h.update hmi hmem hsame ?_ fun _ _ _ ht => ht
  exact (h.timers i m hmi).of_member rfl hr.restartDeadline? hr.restarts

/-- Messages on the air are no timers. -/
theorem route (h : Timely net (held ++ net.pending)) (i : Nat) (sends : List Outbound) :
    Timely (net.route i sends) (held ++ (net.route i sends).pending) := by
  obtain ⟨as, has, ha⟩ := net.airs_route i sends
  have hadd : Timely net (as ++ (held ++ net.pending)) := by
    refine ⟨fun j m hm => (h.timers j m hm).append ?_, h.crashes⟩
    intro x hx kind g
    obtain ⟨_, _, hx⟩ := ha x hx
    obtain ⟨k, _, hk⟩ := hx.event
    rw [hk]
    simp
  have hperm : (as ++ (held ++ net.pending)).Perm (held ++ (net.route i sends).pending) :=
    (List.perm_append_comm_assoc ..).trans (.append_left _ has.pending.symm)
  exact (hadd.perm hperm).of_same has.airOnly.members has.airOnly.crashes

theorem follow {i : Nat} {n : Node} {r : Reaction} (h : Timely net (held ++ net.pending))
    (hi : net.node? i = some n) (hr : r.Steady n) :
    Timely (net.follow i r) (held ++ (net.follow i r).pending) := by
  have ha : Timely (net.absorb i r) (held ++ (net.absorb i r).pending) :=
    h.react hi hr rfl rfl
  exact ha.route i r.sends

/-- A timer at hand that is not of the present generation of its node may be dropped. -/
theorem drop_stale {i t s g : Nat} {kind : TimerKind} {m : Member}
    (h : Timely net (⟨t, s, .timer i kind g⟩ :: l)) (hm : net.members[i]? = some m)
    (hg : m.generation ≠ g) : Timely net l := by
  refine ⟨fun j m' hj => (h.timers j m' hj).drop ?_, h.crashes⟩
  intro k heq
  obtain ⟨rfl, _, rfl⟩ := Occurrence.timer.inj heq
  rw [hm] at hj
  exact hg (congrArg Member.generation (Option.some.inj hj))

/-- A timer at hand, other than the restart timer, is set again. -/
theorem rearm {i t s : Nat} {kind : TimerKind} {m : Member} (hk : kind ≠ .restart)
    (h : Timely net (⟨t, s, .timer i kind m.generation⟩ :: net.pending))
    (hm : net.members[i]?.map (·.generation) = some m.generation) (after : Nat) :
    Timely (net.setTimer i kind m.generation after)
      (net.setTimer i kind m.generation after).pending := by
  have hset : Timely net
      (⟨net.clock + after, net.nextSeq, .timer i kind m.generation⟩ :: net.pending) := by
    refine ⟨?_, h.crashes⟩
    intro j m' hj
    have ht := h.timers j m' hj
    by_cases hij : i = j
    · subst hij
      rw [hj] at hm
      rw [← Option.some.inj hm] at ht ⊢
      exact ht.rearm hk
    · -- a timer of another node
      have hne : ∀ k g, Occurrence.timer i kind m.generation ≠ .timer j k g :=
        fun k g heq => hij (Occurrence.timer.inj heq).1
      exact (ht.drop fun k => hne k _).add hne
  exact (hset.perm (pending_schedule ..).symm).of_same rfl rfl

/-- A periodic timer fires: its node reacts, and it is set again. -/
theorem periodic {i t s : Nat} {kind : TimerKind} {m : Member} (hk : kind ≠ .restart)
    (h : Timely net (⟨t, s, .timer i kind m.generation⟩ :: net.pending))
    (hm : net.members[i]? = some m) (after : Nat) :
    let net' := net.follow i (m.node.handle kind.event net.clock)
    Timely (net'.setTimer i kind m.generation after)
      (net'.setTimer i kind m.generation after).pending := by
  intro net'
  have he := TimerKind.event_ne_restartTimer hk
  have hf : Timely net' ([⟨t, s, .timer i kind m.generation⟩] ++ net'.pending) :=
    follow h (node?_eq_some_iff.2 ⟨m, hm, rfl⟩) (m.node.steady_handle he net.clock)
  refine rearm hk hf ?_ after
  show (((net.absorb i _).route i _).members[i]?).map _ = _
  rw [members_route]
  show ((net.setNode i _).members[i]?).map _ = _
  rw [generation_setNode, hm]
  rfl

/-- A restart timer fires: its node is switched on again, and only its boot timers count from then
    on. -/
theorem restart {i t s : Nat} {m : Member}
    (h : Timely net (⟨t, s, .timer i .restart m.generation⟩ :: net.pending))
    (hm : net.members[i]? = some m) :
    Timely (net.restart i m) (net.restart i m).pending := by
  have hd : m.node.restartDeadline? = some t := (h.timers i m hm).deadline_of_restart
  have hdown : m.node.isDown = true := Node.isDown_of_restartDeadline? hd
  have hi : net.node? i = some m.node := node?_eq_some_iff.2 ⟨m, hm, rfl⟩
  -- the node after the restart
  let n := (m.node.onRestartTimer.node.sweep net.clock)
  have hup : n.isDown = false := by
    show m.node.onRestartTimer.node.isDown = false
    rw [Node.onRestartTimer_of_down hdown]
    rfl
  have hcount : n.counters.restarts = m.node.counters.restarts + 1 := by
    show m.node.onRestartTimer.node.counters.restarts = _
    rw [Node.onRestartTimer_of_down hdown]
  have hsilent : (m.node.handle .restartTimer net.clock).sends = [] :=
    Node.sends_onRestartTimer m.node
  rw [restart_eq, follow_of_silent hsilent]
  let net' := (net.absorb i (m.node.handle .restartTimer net.clock)).nextGeneration i
  have hmem : ∀ j : Nat, net'.members[j]? =
      if i = j then some ⟨n, m.generation + 1⟩ else net.members[j]? := by
    intro j
    have hgen : net'.members[j]? = if i = j then
        ((net.setNode i n).members[j]?).map fun m => { m with generation := m.generation + 1 }
        else (net.setNode i n).members[j]? := getElem?_members_nextGeneration ..
    rw [hgen, net.getElem?_members_setNode_of_some i n hm]
    split <;> rfl
  -- one more restart, one node less that is down
  have hcrashes : net.metrics.crashes + (m.node.counters.restarts + m.node.isDown.toNat) =
      net.metrics.crashes + (n.counters.restarts + n.isDown.toNat) := by
    rw [hcount, hdown, hup]
    rfl
  have hset : Timely net'
      (⟨net.clock + net.settings.beaconPeriod, net.nextSeq + 1,
          .timer i .beacon (m.generation + 1)⟩ ::
        ⟨net.clock + net.settings.initialAnnounceDelay, net.nextSeq,
          .timer i .announce (m.generation + 1)⟩ :: net.pending) := by
    refine h.update hm hmem hcrashes ?_ ?_
    · exact (h.timers i m hm).boot rfl (Node.restartDeadline?_of_up hup) hcount
    · intro j m' hij ht
      have hne : ∀ {k g} k' g', Occurrence.timer i k g ≠ .timer j k' g' :=
        fun k' g' heq => hij (Occurrence.timer.inj heq).1
      exact ((ht.drop fun k => hne k _).add hne).add hne
  have hperm : ((net'.setBootTimers i (m.generation + 1)).pending).Perm _ :=
    (pending_schedule ..).trans (.cons _ (pending_schedule ..))
  exact (hset.perm hperm.symm).of_same rfl rfl

theorem fireTimer {i t s : Nat} {m : Member} {kind : TimerKind}
    (h : Timely net (⟨t, s, .timer i kind m.generation⟩ :: net.pending))
    (hm : net.members[i]? = some m) :
    Timely (net.fireTimer i m kind) (net.fireTimer i m kind).pending := by
  cases kind with
  | announce => exact periodic (by simp) h hm _
  | beacon => exact periodic (by simp) h hm _
  | restart => exact h.restart hm

/-- A node crashes, and its restart timer is set. -/
theorem crashed {i recovery : Nat} {m : Member} {r : Reaction} (h : Timely net net.pending)
    (hm : net.members[i]? = some m) (hp : m.node.powerDown recovery net.clock = .ok r) :
    Timely (net.crashed i m.generation r recovery)
      (net.crashed i m.generation r recovery).pending := by
  obtain ⟨hup, hnode, _, _⟩ := Node.powerDown_eq_ok hp
  have hi : net.node? i = some m.node := node?_eq_some_iff.2 ⟨m, hm, rfl⟩
  have hdead : r.node.restartDeadline? = some (net.clock + recovery) := by rw [hnode]; rfl
  have hdown : r.node.isDown = true := Node.isDown_of_restartDeadline? hdead
  have hcount : r.node.counters.restarts = m.node.counters.restarts := by rw [hnode]
  -- one more crash, one more node that is down
  have hcrashes : net.metrics.crashes + 1 +
      (m.node.counters.restarts + m.node.isDown.toNat) =
      net.metrics.crashes + (r.node.counters.restarts + r.node.isDown.toNat) := by
    rw [hcount, hdown, hup, Bool.toNat_true, Bool.toNat_false]
    omega
  have hset : Timely (net.crashed i m.generation r recovery)
      (⟨net.clock + recovery, net.nextSeq, .timer i .restart m.generation⟩ :: net.pending) := by
    refine h.update hm (net.getElem?_members_setNode_of_some i r.node hm) hcrashes ?_ ?_
    · exact (h.timers i m hm).crash (Node.restartDeadline?_of_up hup) rfl hdead hcount
    · intro j m' hij ht
      exact ht.add fun k g heq => hij (Occurrence.timer.inj heq).1
  exact hset.perm (pending_schedule ..).symm

end Timely

/-! ### All that happens -/

/-- Every event keeps all timers as they should be, if the event itself is counted among them. -/
theorem timely_effect {net net' : Network} {e : Occurrence} (he : Effect net e net') {t s : Nat}
    (h : Timely net (⟨t, s, e⟩ :: net.pending)) : Timely net' net'.pending := by
  induction he with
  | @arrival net i n sender bytes hn =>
    have hd : Timely net.countDelivery ([] ++ net.countDelivery.pending) :=
      (h.drop (by simp)).of_same rfl rfl
    exact hd.follow hn (n.steady_handleDatagram sender bytes net.clock)
  | stale kind generation hm hg => exact h.drop_stale hm hg
  | fired kind hm => exact h.fireTimer hm
  | ignored hf => exact h.drop (by simp)
  | @considered net f g vetoes hf =>
    have hs : Timely (net.schedule (net.clock + f.tick) .failureTick)
        (net.schedule (net.clock + f.tick) .failureTick).pending :=
      (h.drop (by simp)).schedule (by simp)
    exact hs.of_same rfl rfl
  | @injected net net' f i g hf hi he ih =>
    have hs : Timely (net.schedule (net.clock + f.tick) .failureTick)
        (net.schedule (net.clock + f.tick) .failureTick).pending :=
      (h.drop (by simp)).schedule (by simp)
    have hs' : Timely ((net.ticked f g 0).tell [.failing i net.clock])
        ((net.ticked f g 0).tell [.failing i net.clock]).pending := hs.of_same rfl rfl
    exact ih (hs'.add (by simp))
  | @originated net i n value r u hn ho =>
    have hr := Node.steady_of_originate ho
    have hd : Timely net net.pending := h.drop (by simp)
    have hb : Timely (net.noted i r u) ([] ++ (net.noted i r u).pending) :=
      hd.react hn hr rfl rfl
    exact hb.route i r.sends
  | @notOriginated net i n value r e hn ho =>
    have hr := Node.steady_of_originate ho
    exact (h.drop (by simp)).react hn hr rfl rfl
  | nowhere value hn => exact (h.drop (by simp)).of_same rfl rfl
  | crashed hm hp => exact (h.drop (by simp)).crashed hm hp
  | notCrashed hm hp => exact (h.drop (by simp)).of_same rfl rfl
  | noCrash recovery hm => exact h.drop (by simp)
  | @roleSet net i n role hn =>
    exact (h.drop (by simp)).react hn (n.steady_setRole role) rfl rfl
  | noRole role hn => exact h.drop (by simp)
  | lossRateSet rate => exact (h.drop (by simp)).of_same rfl rfl

theorem timely_step {net net' : Network} (hs : Step net net') (h : Timely net net.pending) :
    Timely net' net'.pending := by
  cases hs with
  | plan time a => exact h.schedule (by simp)
  | setRole i role =>
    have he := effect_setRole net i role
    have hadd : Timely net (⟨0, 0, .action (.setRole i role)⟩ :: net.pending) := h.add (by simp)
    exact timely_effect he hadd
  | withFailures f =>
    unfold withFailures
    split
    · exact h.of_same rfl rfl
    · have hs : Timely (net.schedule (net.clock + f.tick) .failureTick)
          (net.schedule (net.clock + f.tick) .failureTick).pending := h.schedule (by simp)
      exact hs.of_same rfl rfl
  | event limit hn =>
    obtain ⟨e, rest, net₁, hp, _, he, rfl⟩ := exists_effect_of_next hn
    have ht : Timely (net.turnTo e rest) (e :: (net.turnTo e rest).pending) :=
      (h.perm (pending_of_pop? hp)).of_same rfl rfl
    have h₁ := timely_effect he ht
    rw [pending_watch]
    exact h₁.of_same (members_watch _) (by rw [metrics_watch])
  | rest limit hn => exact h.of_same rfl rfl

/-- Nodes that have just been switched on have set their boot timers. -/
theorem timely_build (t : Topology) (s : ProtocolSettings) (seed : UInt64) :
    Timely (build t s seed) (build t s seed).pending := by
  -- nodes that are not there yet have no timers
  let Inv (k : Nat) (net : Network) : Prop := net.size = k ∧
    (∀ x ∈ net.pending, ∀ i kind g, x.event = .timer i kind g → i < k) ∧ Timely net net.pending
  suffices h : Inv t.nodeCount (build t s seed) from h.2.2
  refine build_induction t s seed Inv ?_ ?_
  · refine ⟨rfl, ?_, ?_, rfl⟩
    · intro x hx
      cases hx
    · intro i m hm
      simp [blank] at hm
  · rintro k net _ ⟨hsize, hless, h⟩
    have hperm := pending_addNode seed net k
    refine ⟨by rw [size_addNode, hsize], ?_, ?_⟩
    · intro x hx i kind g he
      rcases List.mem_cons.1 (hperm.mem_iff.1 hx) with rfl | hx
      · have := (Occurrence.timer.inj he).1
        omega
      rcases List.mem_cons.1 hx with rfl | hx
      · have := (Occurrence.timer.inj he).1
        omega
      · exact Nat.lt_succ_of_lt (hless x hx i kind g he)
    · refine Timely.perm ⟨?_, ?_⟩ hperm.symm
      · intro i m hm
        rw [members_addNode, Array.getElem?_push] at hm
        split at hm
        · -- the new node
          next hik =>
          obtain rfl := Option.some.inj hm
          have hik : i = k := hik.trans hsize
          subst hik
          refine Timed.of_boot (m := ⟨.fresh (addressOf i) (settingsOf net.settings seed i), 0⟩)
            ?_ rfl rfl
          intro kind g _
          refine List.map_eq_nil_iff.2 (List.filter_eq_nil_iff.2 ?_)
          intro x hx he
          exact Nat.lt_irrefl _ (hless x hx i kind g (of_decide_eq_true he))
        · next hik =>
          have hlt : i < k := by
            have := (Array.getElem?_eq_some_iff.1 hm).1
            rw [← hsize]
            exact this
          have hne : ∀ {kind g} kind' g', Occurrence.timer k kind g ≠ .timer i kind' g' :=
            fun kind' g' heq => Nat.ne_of_gt hlt (Occurrence.timer.inj heq).1
          exact ((h.timers i m hm).add hne).add hne
      · rw [total_concat _ (nodes_addNode seed net k)]
        exact h.crashes

theorem timely_of_reachable {net : Network} (h : Reachable net) : Timely net net.pending := by
  obtain ⟨t, s, seed, hr⟩ := h
  apply hr.invariant (fun net => Timely net net.pending) (fun _ => timely_build t s seed)
  intro net net' _ _ ht hs
  exact timely_step hs ht

/-! ### Past generations -/

/-- A scheduled timer is of the present generation of its node or of a past one. -/
theorem Timely.generation_le {net : Network} {l : List (Scheduled Occurrence)} {i g : Nat}
    {kind : TimerKind} {m : Member} {x : Scheduled Occurrence} (h : Timely net l)
    (hm : net.members[i]? = some m) (hx : x ∈ l) (he : x.event = .timer i kind g) :
    g ≤ m.generation := by
  -- there would be no such timer
  apply Nat.le_of_not_lt
  intro hlt
  have hnil := (h.timers i m hm).later kind g hlt
  have hmem : x ∈ l.filter (·.event = .timer i kind g) :=
    List.mem_filter.2 ⟨hx, decide_eq_true he⟩
  rw [List.map_eq_nil_iff.1 hnil] at hmem
  cases hmem

/-- A timer of a past generation does nothing when its time has come. -/
theorem next_of_stale {net : Network} {limit i g : Nat} {kind : TimerKind} {m : Member}
    {e : Scheduled Occurrence} {rest : EventQueue Occurrence}
    (hp : net.queue.pop? = some (e, rest)) (hle : e.time ≤ limit)
    (he : e.event = .timer i kind g) (hm : net.members[i]? = some m) (hg : m.generation ≠ g) :
    net.next limit = .moved (net.turnTo e rest).watch := by
  have hpr : (net.turnTo e rest).process e.event = .ok (net.turnTo e rest) := by
    rw [he]
    show (net.turnTo e rest).fire i kind g = _
    unfold fire
    rw [members_turnTo, hm]
    exact if_pos hg
  exact next_of_process hp hle hpr

/-- **The timers of a network.**  In every state that a network can get into, the timers of every
    node are as they should be, and there have been as many crashes as there have been restarts and
    are nodes that are down.  Whatever happens from then on, a timer that is set by then does
    nothing once its node has been switched on again: when its time comes, it leaves the queue, the
    clock moves on, and convergence is watched as after every event. -/
theorem timers_of_reachable {net : Network} (h : Reachable net) :
    (∀ i m, net.members[i]? = some m → Timed net.pending i m) ∧
      (net.metrics.crashes =
        (net.total fun _ n => n.counters.restarts) + net.nodes.countP (·.isDown)) ∧
      ∀ net', Run (fun _ => True) net net' → ∀ i m m',
        net.members[i]? = some m → net'.members[i]? = some m' →
        m.node.counters.restarts < m'.node.counters.restarts →
        ∀ e ∈ net.pending, ∀ kind g, e.event = .timer i kind g →
        ∀ rest limit, net'.queue.pop? = some (e, rest) → e.time ≤ limit →
          net'.next limit = .moved (net'.turnTo e rest).watch := by
  have ht := timely_of_reachable h
  refine ⟨ht.timers, ?_, ?_⟩
  · rw [← total_toNat, ← total_add]
    exact ht.crashes
  · intro net' hr i m m' hm hm' hlt e hmem kind g he rest limit hp hle
    have ht' : Timely net' net'.pending := by
      obtain ⟨t, s, seed, h⟩ := h
      exact timely_of_reachable ⟨t, s, seed, h.trans hr⟩
    -- generations count restarts, and the timer was of one that had begun
    have hg := ht.generation_le hm hmem he
    have h₁ := (ht.timers i m hm).generation
    have h₂ := (ht'.timers i m' hm').generation
    exact next_of_stale hp hle he hm' (by omega)

/-- A node is down after a crash, and its beacon timer does nothing any more when it fires after
    the restart. -/
theorem timers_of_crashingPair :
    ∃ net net' rest, let e := ⟨Time.ofSecs 10, 1, .timer 0 .beacon 0⟩
      crashingPair.runUntil (Time.ofSecs 3) 100 = .ok net ∧ Reachable net ∧
      net.metrics.crashes = 1 ∧
      net.metrics.crashes =
        (net.total fun _ n => n.counters.restarts) + net.nodes.countP (·.isDown) ∧
      net.runUntil (Time.ofMillis 9999) 100 = .ok net' ∧ net'.queue.pop? = some (e, rest) ∧
      net'.next (Time.ofSecs 10) = .moved (net'.turnTo e rest).watch := by
  let e : Scheduled Occurrence := ⟨Time.ofSecs 10, 1, .timer 0 .beacon 0⟩
  let restarts (net : Network) : Option Nat := net.members[0]?.map (·.node.counters.restarts)
  obtain ⟨net, hrun, hp⟩ := exists_of_endsWith
    (p := fun net => net.metrics.crashes = 1 ∧ restarts net = some 0 ∧ e ∈ net.pending ∧
      net.endsWith (Time.ofMillis 9999) 100 fun net' =>
        restarts net' = some 1 ∧ net'.queue.pop?.map (·.1) = some e)
    (by decide +kernel : crashingPair.endsWith (Time.ofSecs 3) 100 _ = true)
  obtain ⟨hcrashes, hbefore, hmem, hlater⟩ := of_decide_eq_true hp
  obtain ⟨net', hrun', hp'⟩ := exists_of_endsWith hlater
  obtain ⟨hafter, hpop⟩ := of_decide_eq_true hp'
  obtain ⟨⟨_, rest⟩, hpop, rfl⟩ := Option.map_eq_some_iff.1 hpop
  obtain ⟨m, hm, hbefore⟩ := Option.map_eq_some_iff.1 hbefore
  obtain ⟨m', hm', hafter⟩ := Option.map_eq_some_iff.1 hafter
  have hreach : Reachable net := reachable_crashingPair.runUntil hrun
  obtain ⟨_, hcount, hstale⟩ := timers_of_reachable hreach
  have hr : Run (fun _ => True) net net' :=
    (Run.runUntil (fun _ _ _ _ => trivial) (fun _ _ => trivial) (.start trivial) hrun').1
  refine ⟨net, net', rest, hrun, hreach, hcrashes, hcount, hrun', hpop, ?_⟩
  exact hstale net' hr 0 m m' hm hm' (by omega) _ hmem .beacon 0 rfl rest _ hpop (by decide)

end Network

end TokenMesh
