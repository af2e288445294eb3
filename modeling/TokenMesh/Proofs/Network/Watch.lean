import TokenMesh.Proofs.Network.Agreement

namespace TokenMesh

/-!
# The watch on convergence

What the reported convergence time stands for.  After each event since the latest origination the
watch looks whether all nodes with power hold one token, and notes the first time that they do.
It does not look which token that is: where the origin is lost before it has told anybody, the
others still agree on the token before.

* `Network.eq_of_converged`: what the watch looks at;
* `Network.Watched`: what is known of the times that it notes;
* `Network.convergence_time`: what the reported time means;
* `Network.premature_convergence`: an experiment in which nobody holds the latest token at the
  time of convergence.
-/

namespace Network

/-- In a converged network all nodes with power hold one token. -/
theorem eq_of_converged {net : Network} (h : net.converged = true) {n m : Node}
    (hn : n ∈ net.liveNodes) (hm : m ∈ net.liveNodes) : n.token = m.token := by
  have hlive : ∀ k ∈ net.liveNodes, ∃ x ∈ net.members, x.node = k ∧ k.isDown = false := by
    intro k hk
    obtain ⟨hmem, hup⟩ := List.mem_filter.1 hk
    obtain ⟨x, hx, rfl⟩ := List.mem_map.1 hmem
    exact ⟨x, Array.mem_toList_iff.1 hx, rfl, by simpa using hup⟩
  unfold converged at h
  split at h
  · next hnone =>
    -- nobody has power
    obtain ⟨x, hx, rfl, hup⟩ := hlive n hn
    rw [Array.find?_eq_none] at hnone
    exact absurd (by rw [hup]; rfl) (hnone x hx)
  · next first _ =>
    have hfirst : ∀ k ∈ net.liveNodes, k.token = first.node.token := by
      intro k hk
      obtain ⟨x, hx, rfl, hup⟩ := hlive k hk
      have hall := Array.all_eq_true_iff_forall_mem.1 h x hx
      rw [hup, Bool.false_or] at hall
      exact eq_of_beq hall
    rw [hfirst n hn, hfirst m hm]

theorem converged_congr {net net' : Network} (h : net'.members = net.members) :
    net'.converged = net.converged := by
  unfold converged
  rw [h]

/-- The watch leaves its note as it is, or notes that the network has converged. -/
theorem convergedAt_watch (net : Network) : net.watch.convergedAt = net.convergedAt ∨
    net.watch.convergedAt = some net.clock ∧ net.converged = true := by
  unfold watch
  split
  · next h => exact .inr ⟨rfl, (Bool.and_eq_true_iff.1 h).2⟩
  · exact .inl rfl

/-! ### The times that are noted -/

/-- An event without an origination leaves the times alone that the watch has noted. -/
theorem times_effect {net net' : Network} {e : Occurrence} (he : Effect net e net')
    (hsame : net'.originations = net.originations) :
    net'.lastBegin = net.lastBegin ∧ net'.convergedAt = net.convergedAt := by
  induction he with
  | arrival sender bytes hn => exact ⟨lastBegin_route .., convergedAt_route ..⟩
  | stale kind generation hm hg => exact ⟨rfl, rfl⟩
  | fired kind hm => cases kind <;> exact ⟨lastBegin_route .., convergedAt_route ..⟩
  | ignored hf => exact ⟨rfl, rfl⟩
  | considered g vetoes hf => exact ⟨rfl, rfl⟩
  | @injected net net' f i g hf hi he ih =>
    have htell : ((net.ticked f g 0).tell [.failing i net.clock]).originations =
        net.originations := rfl
    exact ih (hsame.trans htell.symm)
  | @originated net i n value r t hn ho =>
    -- an origination would have gone on record
    have hrec := originations_begun net i t (Node.lawful_of_originate ho)
    rw [hsame] at hrec
    exact absurd hrec.symm (List.cons_ne_self _ _)
  | notOriginated hn ho => exact ⟨rfl, rfl⟩
  | nowhere value hn => exact ⟨rfl, rfl⟩
  | crashed hm hp => exact ⟨rfl, rfl⟩
  | notCrashed hm hp => exact ⟨rfl, rfl⟩
  | noCrash recovery hm => exact ⟨rfl, rfl⟩
  | roleSet role hn => exact ⟨rfl, rfl⟩
  | noRole role hn => exact ⟨rfl, rfl⟩
  | lossRateSet rate => exact ⟨rfl, rfl⟩

/-- What is known of the times that the watch has noted in a network that came of `start`. -/
structure Watched (start net : Network) : Prop where
  last : net.lastBegin = net.originations.head?.map (·.time)
  past : ∀ o ∈ net.originations, o.time ≤ net.clock
  /-- There was a moment at which the network was converged, and nothing has been originated
      since. -/
  seen : ∀ done, net.convergedAt = some done → ∃ mid, Run (fun _ => True) start mid ∧
    Run (fun _ => True) mid net ∧ mid.originations = net.originations ∧ mid.clock = done ∧
      mid.converged = true

namespace Watched

variable {start net net' : Network}

/-- A step that leaves the times and the record alone. -/
theorem of_same (h : Watched start net) (hs : Step net net')
    (hl : net'.lastBegin = net.lastBegin) (hc : net'.convergedAt = net.convergedAt)
    (ho : net'.originations = net.originations) (ht : net.clock ≤ net'.clock) :
    Watched start net' where
  last := by rw [hl, ho]; exact h.last
  past o hmem := by
    rw [ho] at hmem
    exact Nat.le_trans (h.past o hmem) ht
  seen done hd := by
    rw [hc] at hd
    obtain ⟨mid, hbefore, hafter, horigin, hclock, hconv⟩ := h.seen done hd
    exact ⟨mid, hbefore, .step hafter hs trivial, horigin.trans ho.symm, hclock, hconv⟩

/-- An event that is the next one, before the watch takes its turn. -/
theorem effect {e : Scheduled Occurrence} {rest : EventQueue Occurrence} {net₁ : Network}
    (h : Watched start net) (he : Effect (net.turnTo e rest) e.event net₁) :
    net₁.lastBegin = net₁.originations.head?.map (·.time) ∧
      (∀ o ∈ net₁.originations, o.time ≤ net₁.clock) ∧
      (net₁.convergedAt = none ∨
        net₁.convergedAt = net.convergedAt ∧ net₁.originations = net.originations) := by
  have hclock : net₁.clock = max net.clock e.time := (extends_effect he).clock
  have hpast : ∀ o ∈ net.originations, o.time ≤ net₁.clock := fun o ho =>
    Nat.le_trans (h.past o ho) (by omega)
  obtain hsame | ⟨i, n, value, r, t, _, _, _, rfl, hnew⟩ := originations_effect he
  · obtain ⟨hl, hc⟩ := times_effect he hsame
    have horigin : net₁.originations = net.originations := hsame
    rw [horigin]
    exact ⟨hl.trans h.last, hpast, .inr ⟨hc, rfl⟩⟩
  · have hnew : ((net.turnTo e rest).begun i r t).originations =
        ⟨i, t, max net.clock e.time⟩ :: net.originations := hnew
    rw [hnew]
    refine ⟨lastBegin_route .., ?_, .inl (convergedAt_route ..)⟩
    intro o ho
    rcases List.mem_cons.1 ho with rfl | ho
    · exact Nat.le_of_eq hclock.symm
    · exact hpast o ho

/-- The next event, and the watch after it. -/
theorem event (hr : Run (fun _ => True) start net) (h : Watched start net) {limit : Nat}
    (hn : net.next limit = .moved net') : Watched start net' := by
  have hstep : Step net net' := .event limit hn
  obtain ⟨e, rest, net₁, _, _, he, rfl⟩ := exists_effect_of_next hn
  obtain ⟨hlast, hpast, hkept⟩ := h.effect he
  refine ⟨?_, ?_, ?_⟩
  · rw [lastBegin_watch, originations_watch]
    exact hlast
  · rw [clock_watch, originations_watch]
    exact hpast
  · intro done hd
    -- the network has just converged, or it had before
    rcases convergedAt_watch net₁ with heq | ⟨heq, hconv⟩
    · rw [heq] at hd
      rcases hkept with hnone | ⟨hc, ho⟩
      · rw [hnone] at hd
        cases hd
      · rw [hc] at hd
        obtain ⟨mid, hbefore, hafter, horigin, hclock, hconv⟩ := h.seen done hd
        refine ⟨mid, hbefore, .step hafter hstep trivial, ?_, hclock, hconv⟩
        rw [horigin, originations_watch, ho]
    · rw [heq] at hd
      refine ⟨net₁.watch, .step hr hstep trivial, .start trivial, rfl, ?_, ?_⟩
      · rw [clock_watch]
        exact Option.some.inj hd
      · rw [converged_congr (members_watch net₁)]
        exact hconv

theorem step (hr : Run (fun _ => True) start net) (h : Watched start net) (hs : Step net net') :
    Watched start net' := by
  cases hs with
  | plan time a => exact h.of_same (.plan ..) rfl rfl rfl (Nat.le_refl _)
  | setRole i role =>
    have he := effect_setRole net i role
    obtain ho | ⟨_, _, _, _, _, hact, _⟩ := originations_effect he
    · obtain ⟨hl, hc⟩ := times_effect he ho
      exact h.of_same (.setRole ..) hl hc ho (Nat.le_of_eq (extends_effect he).clock.symm)
    · cases hact
  | withFailures f =>
    refine h.of_same (.withFailures ..) ?_ ?_ ?_ ?_
    · unfold withFailures
      split <;> rfl
    · unfold withFailures
      split <;> rfl
    · unfold withFailures
      split
      · exact originations_tell (by simp [Notice.origination?])
      · rfl
    · unfold withFailures
      split <;> exact Nat.le_refl _
  | event limit hn => exact h.event hr hn
  | rest limit hn => exact h.of_same (.rest limit hn) rfl rfl rfl (Nat.le_max_left ..)

end Watched

/-- Nothing has been noted in a network that has just been built. -/
theorem watched_build (t : Topology) (s : ProtocolSettings) (seed : UInt64) :
    Watched (build t s seed) (build t s seed) := by
  refine ⟨?_, ?_, ?_⟩
  · rw [lastBegin_build, originations_build]
    rfl
  · intro o ho
    rw [originations_build] at ho
    cases ho
  · intro done hd
    rw [convergedAt_build] at hd
    cases hd

theorem watched_of_run {t : Topology} {s : ProtocolSettings} {seed : UInt64} {net : Network}
    (hr : Run (fun _ => True) (build t s seed) net) : Watched (build t s seed) net := by
  induction hr with
  | start _ => exact watched_build t s seed
  | step hr hs _ ih => exact ih.step hr hs

/-! ### What the reported time means -/

/-- **Convergence time.**  Where a convergence time is reported, there was a moment that many
    milliseconds after the latest origination, with no other origination up to the present, at
    which all nodes with power held one known token.  It was the latest one if the origin had
    power at that moment and had never been restarted. -/
theorem convergence_time {src : Nat} {net : Network} {d : UInt64} (hr : Reachable net)
    (hsole : net.SoleOrigin src) (hd : net.summary.convergenceTimeMs = some d) :
    ∃ o mid, net.originations.head? = some o ∧ Reachable mid ∧ Run (fun _ => True) mid net ∧
      mid.originations = net.originations ∧ o.time ≤ mid.clock ∧
      d = millis64 (mid.clock - o.time) ∧
      (∃ u ∈ mid.known, ∀ m ∈ mid.liveNodes, m.token = u) ∧
      ∀ n, mid.node? src = some n → n.isDown = false → n.counters.restarts = 0 →
        ∀ m ∈ mid.liveNodes, m.token = o.token := by
  obtain ⟨t, s, seed, hrun⟩ := hr
  have hw := watched_of_run hrun
  obtain ⟨span, hspan, rfl⟩ := Option.map_eq_some_iff.1 hd
  unfold convergenceTime? at hspan
  split at hspan
  · next begun done hbegun hdone =>
    obtain rfl := Option.some.inj hspan
    obtain ⟨mid, hbefore, hafter, horigin, rfl, hconv⟩ := hw.seen done hdone
    rw [hw.last] at hbegun
    obtain ⟨o, ho, rfl⟩ := Option.map_eq_some_iff.1 hbegun
    have hmid : mid.originations.head? = some o := by rw [horigin, ho]
    have hsole' : mid.SoleOrigin src := by
      unfold SoleOrigin
      rw [horigin]
      exact hsole
    have hpast : o.time ≤ mid.clock :=
      (watched_of_run hbefore).past o (List.mem_of_mem_head? hmid)
    refine ⟨o, mid, ho, ⟨t, s, seed, hbefore⟩, hafter, horigin, hpast, rfl, ?_, ?_⟩
    · by_cases hnone : mid.liveNodes = []
      · refine ⟨.initial, initial_mem_known mid, ?_⟩
        simp [hnone]
      · obtain ⟨n, hn⟩ := List.exists_mem_of_ne_nil _ hnone
        obtain ⟨i, hi⟩ := mem_nodes_iff.1 (List.mem_filter.1 hn).1
        exact ⟨n.token, (drawn_of_run hbefore).held i n hi,
          fun m hm => eq_of_converged hconv hm hn⟩
    · intro n hn hup hzero m hm
      -- the origin holds its latest token, and the others agree with it
      have hlatest := head?_lineage_of_run hbefore hsole' hn hzero
      rw [hsole'.head?_lineage hmid] at hlatest
      have hlive : n ∈ mid.liveNodes :=
        List.mem_filter.2 ⟨mem_nodes_iff.2 ⟨src, hn⟩, by rw [hup]; rfl⟩
      rw [eq_of_converged hconv hm hlive]
      exact (Option.some.inj hlatest).symm
  · cases hspan

/-- A node with power that has never been restarted had power all the time. -/
theorem exists_live_of_run {P : Network → Prop} {mid net : Network} (hr : Run P mid net) {i : Nat}
    {n : Node} (hn : net.node? i = some n) (hup : n.isDown = false)
    (hzero : n.counters.restarts = 0) :
    ∃ m, mid.node? i = some m ∧ m.isDown = false ∧ m.counters.restarts = 0 ∧
      m.token.version ≤ n.token.version := by
  obtain ⟨m, hm, hlater⟩ := exists_later_of_run hr hn
  have hstill : m.counters.restarts = 0 := Nat.le_zero.1 (hzero ▸ hlater.restarts)
  have heq : n.counters.restarts = m.counters.restarts := hzero.trans hstill.symm
  refine ⟨m, hm, ?_, hstill, hlater.version_le heq⟩
  cases hd : m.isDown with
  | false => rfl
  | true => exact absurd (hlater.down heq hd) (by rw [hup]; exact Bool.false_ne_true)

/-- The second node of the pair hears of the token with the first beacon, and that is what the
    reported time stands for. -/
theorem convergence_time_pair : ∃ net,
    pair.runUntil (Time.ofSecs 12) 100 = .ok net ∧ Reachable net ∧ net.SoleOrigin 0 ∧
      net.summary.convergenceTimeMs = some 10010 ∧
      ∃ mid, Run (fun _ => True) mid net ∧ 10010 = millis64 (mid.clock - 0) ∧
        ∀ m ∈ mid.liveNodes, m.token = ⟨5, 1⟩ := by
  obtain ⟨net, hrun, hp⟩ := exists_of_endsWith
    (p := fun net => net.originations = [⟨0, ⟨5, 1⟩, 0⟩] ∧
      net.summary.convergenceTimeMs = some 10010 ∧
      (net.node? 0).map (fun n => (n.isDown, n.counters.restarts)) = some (false, 0))
    (by decide +kernel : pair.endsWith (Time.ofSecs 12) 100 _ = true)
  obtain ⟨horigin, htime, hnode⟩ := of_decide_eq_true hp
  obtain ⟨n, hn, hview⟩ := Option.map_eq_some_iff.1 hnode
  obtain ⟨hup, hzero⟩ := Prod.mk.inj hview
  have hsole : net.SoleOrigin 0 := by
    intro o ho
    rw [horigin, List.mem_singleton] at ho
    rw [ho]
  have hreach := reachable_pair.runUntil hrun
  obtain ⟨o, mid, ho, _, hmid, _, _, hd, _, hlatest⟩ := convergence_time hreach hsole htime
  rw [horigin] at ho
  obtain rfl := Option.some.inj ho
  obtain ⟨m, hm, hmup, hmzero, _⟩ := exists_live_of_run hmid hn hup hzero
  exact ⟨net, hrun, hreach, hsole, htime, mid, hmid, hd, hlatest m hm hmup hmzero⟩

/-- The first node of the pair crashes before it has told anybody of its token, and at no moment
    up to the present did all nodes with power hold that token.  A convergence time is reported all
    the same: the other node agrees with itself. -/
theorem premature_convergence : ∃ net,
    crashingPair.runUntil (Time.ofSecs 3) 100 = .ok net ∧ Reachable net ∧ net.SoleOrigin 0 ∧
      net.originations.head? = some ⟨0, ⟨5, 1⟩, 0⟩ ∧
      net.summary.convergenceTimeMs = some 2000 ∧
      ∀ mid, Run (fun _ => True) mid net → ∃ m ∈ mid.liveNodes, m.token ≠ ⟨5, 1⟩ := by
  obtain ⟨net, hrun, hp⟩ := exists_of_endsWith
    (p := fun net => net.originations = [⟨0, ⟨5, 1⟩, 0⟩] ∧
      net.summary.convergenceTimeMs = some 2000 ∧
      (net.node? 1).map (fun n => (n.isDown, n.counters.restarts, n.token)) =
        some (false, 0, .initial))
    (by decide +kernel : crashingPair.endsWith (Time.ofSecs 3) 100 _ = true)
  obtain ⟨horigin, htime, hnode⟩ := of_decide_eq_true hp
  obtain ⟨n, hn, hview⟩ := Option.map_eq_some_iff.1 hnode
  simp only [Prod.mk.injEq] at hview
  obtain ⟨hup, hzero, htoken⟩ := hview
  refine ⟨net, hrun, reachable_crashingPair.runUntil hrun, ?_, ?_, htime, ?_⟩
  · intro o ho
    rw [horigin, List.mem_singleton] at ho
    rw [ho]
  · rw [horigin]
    rfl
  · -- the second node had power all the time, and never held more than it does now
    intro mid hmid
    obtain ⟨m, hm, hmup, _, hle⟩ := exists_live_of_run hmid hn hup hzero
    refine ⟨m, List.mem_filter.2 ⟨mem_nodes_iff.2 ⟨1, hm⟩, by rw [hmup]; rfl⟩, ?_⟩
    intro heq
    rw [heq, htoken] at hle
    exact absurd hle (by decide)

end Network

end TokenMesh
