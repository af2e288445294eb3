import TokenMesh.Proofs.Network.Run

namespace TokenMesh

/-!
# Runs with pauses

A run up to a given time may be paused on the way, at any times and as often as one likes, and goes
on as if it had not been.  A pause only moves the clock to a time before all that still waits, and
the next event moves the clock to its own time anyway.

* `Network.Returns`: a run up to a given time comes to its end;
* `Network.next_advanceTo`: a network that rests finds the same next event after a pause;
* `Network.Returns.pause`, `Network.Returns.resume`: a run is paused, and goes on;
* `Network.Pauses`: one run after another;
* `Network.runs_compose`: runs that follow each other are one run.
-/

namespace Network

variable {net mid net' : Network} {limit t₁ t₂ : Nat} {said : Summary}

/-- A run of `net` up to a given time comes to its end, leaves `net'`, and says `said`. -/
structure Returns (net : Network) (limit : Nat) (net' : Network) (said : Summary) : Prop where
  ends : ∃ budget, net.runUntil limit budget = .ok net'
  summary : said = net'.summary

/-! ### The next event after a pause -/

theorem advanceTo_advanceTo (net : Network) (t₁ t₂ : Nat) :
    (net.advanceTo t₁).advanceTo t₂ = net.advanceTo (max t₁ t₂) := by
  simp only [advanceTo, Nat.max_assoc]

/-- The clock has nothing to move up to a time that it already shows. -/
theorem advanceTo_of_le (h : limit ≤ net.clock) : net.advanceTo limit = net := by
  simp only [advanceTo, Nat.max_eq_left h]

/-- A pause makes no difference to an event that is due after it. -/
theorem turnTo_advanceTo {e : Scheduled Occurrence} (rest : EventQueue Occurrence)
    (h : t₁ ≤ e.time) : (net.advanceTo t₁).turnTo e rest = net.turnTo e rest := by
  have hpause : (net.advanceTo t₁).turnTo e rest =
      ({ net with queue := rest }.advanceTo t₁).advanceTo e.time := rfl
  rw [hpause, advanceTo_advanceTo, Nat.max_eq_right h]
  rfl

/-- What lies within a limit lies within any later one. -/
theorem next_of_moved (h : net.next t₁ = .moved net') (hle : t₁ ≤ t₂) :
    net.next t₂ = .moved net' := by
  obtain ⟨e, rest, net₁, hp, ht, hpr, rfl⟩ := exists_process_of_next h
  exact next_of_process hp (Nat.le_trans ht hle) hpr

/-- What lies within a limit lies beyond an earlier one or within it. -/
theorem next_cases_of_moved (h : net.next t₂ = .moved net') (t₁ : Nat) :
    net.next t₁ = .moved net' ∨ net.next t₁ = .resting net := by
  obtain ⟨e, rest, net₁, hp, _, hpr, rfl⟩ := exists_process_of_next h
  by_cases ht : e.time ≤ t₁
  · exact .inl (next_of_process hp ht hpr)
  · right
    unfold next
    rw [hp]
    exact if_pos (Nat.not_le.1 ht)

/-- A network in which nothing is due up to a limit rests. -/
theorem next_of_late (h : ∀ x ∈ net.pending, limit < x.time) : net.next limit = .resting net := by
  unfold next
  cases hp : net.queue.pop? with
  | none => rfl
  | some p =>
    obtain ⟨e, rest⟩ := p
    exact if_pos (h e ((pending_of_pop? hp).mem_iff.2 List.mem_cons_self))

/-- A network that rests up to a limit does so up to any earlier one. -/
theorem next_of_resting (h : net.next t₂ = .resting net) (hle : t₁ ≤ t₂) :
    net.next t₁ = .resting net := by
  obtain ⟨_, hlate⟩ := of_next_eq_resting h
  exact next_of_late fun x hx => Nat.lt_of_le_of_lt hle (hlate x hx)

/-- After a pause a network finds the next event that it would have found without it. -/
theorem next_advanceTo (hrest : net.next t₁ = .resting net) :
    (net.advanceTo t₁).next t₂ = .moved net' ↔ net.next t₂ = .moved net' := by
  have hlate := (of_next_eq_resting hrest).2
  -- the event at hand is due after the pause
  have hturn : ∀ e rest, net.queue.pop? = some (e, rest) →
      (net.advanceTo t₁).turnTo e rest = net.turnTo e rest := by
    intro e rest hp
    have hmem : e ∈ net.pending := (pending_of_pop? hp).mem_iff.2 List.mem_cons_self
    exact turnTo_advanceTo rest (Nat.le_of_lt (hlate e hmem))
  constructor
  · intro h
    obtain ⟨e, rest, net₁, hp, hle, hpr, rfl⟩ := exists_process_of_next h
    rw [hturn e rest hp] at hpr
    exact next_of_process hp hle hpr
  · intro h
    obtain ⟨e, rest, net₁, hp, hle, hpr, rfl⟩ := exists_process_of_next h
    have hp' : (net.advanceTo t₁).queue.pop? = some (e, rest) := hp
    rw [← hturn e rest hp] at hpr
    exact next_of_process hp' hle hpr

/-! ### Runs that come to their end -/

/-- A run that does not need all of its budget would not need more. -/
theorem runUntil_mono {budget more : Nat} (h : net.runUntil limit budget = .ok net')
    (hle : budget ≤ more) : net.runUntil limit more = .ok net' := by
  induction budget generalizing net more with
  | zero => cases h
  | succ budget ih =>
    obtain ⟨more, rfl⟩ := Nat.exists_eq_add_of_le' (Nat.le_trans (Nat.succ_pos budget) hle)
    unfold runUntil at h ⊢
    split at h
    · exact h
    · exact ih h (Nat.le_of_succ_le_succ hle)
    · cases h

namespace Returns

/-- A run that comes to its end finds nothing due at once, or goes on from its next event. -/
theorem cases_next (h : net.Returns limit net' said) :
    net.next limit = .resting net ∧ net' = net.advanceTo limit ∨
      ∃ net₁, net.next limit = .moved net₁ ∧ net₁.Returns limit net' said := by
  obtain ⟨⟨_ | budget, hrun⟩, hsaid⟩ := h
  · cases hrun
  · unfold runUntil at hrun
    split at hrun
    · next hn =>
      obtain ⟨rfl, _⟩ := of_next_eq_resting hn
      exact .inl ⟨hn, (Except.ok.inj hrun).symm⟩
    · next net₁ hn => exact .inr ⟨net₁, hn, ⟨budget, hrun⟩, hsaid⟩
    · cases hrun

theorem of_resting (hn : net.next limit = .resting net) :
    net.Returns limit (net.advanceTo limit) (net.advanceTo limit).summary :=
  ⟨⟨1, by rw [runUntil, hn]⟩, rfl⟩

theorem of_moved (hn : net.next limit = .moved mid) (h : mid.Returns limit net' said) :
    net.Returns limit net' said := by
  obtain ⟨⟨budget, hrun⟩, hsaid⟩ := h
  exact ⟨⟨budget + 1, by rw [runUntil, hn]; exact hrun⟩, hsaid⟩

/-- What holds where nothing is due any more, and holds before an event if it does after it, holds
    where a run begins that comes to its end. -/
@[elab_as_elim]
theorem induction_next {motive : Network → Prop} (h : net.Returns limit net' said)
    (resting : ∀ net, net.next limit = .resting net → net' = net.advanceTo limit → motive net)
    (moved : ∀ net mid, net.next limit = .moved mid → mid.Returns limit net' said →
      motive mid → motive net) : motive net := by
  obtain ⟨⟨budget, hrun⟩, hsaid⟩ := h
  induction budget generalizing net with
  | zero => cases hrun
  | succ budget ih =>
    have h : net.Returns limit net' said := ⟨⟨budget + 1, hrun⟩, hsaid⟩
    unfold runUntil at hrun
    split at hrun
    · next last hn =>
      obtain ⟨rfl, _⟩ := of_next_eq_resting hn
      exact resting last hn (Except.ok.inj hrun).symm
    · next mid hn => exact moved net mid hn ⟨⟨budget, hrun⟩, hsaid⟩ (ih hrun)
    · cases hrun

/-- A run comes to one end only. -/
theorem unique {other : Network} {said' : Summary} (h : net.Returns limit net' said)
    (h' : net.Returns limit other said') : other = net' ∧ said' = said := by
  obtain ⟨budget, hrun⟩ := h.ends
  obtain ⟨budget', hrun'⟩ := h'.ends
  have hmore := runUntil_mono hrun (Nat.le_max_left budget budget')
  have hmore' := runUntil_mono hrun' (Nat.le_max_right budget budget')
  obtain rfl : other = net' := Except.ok.inj (hmore'.symm.trans hmore)
  exact ⟨rfl, by rw [h'.summary, h.summary]⟩

/-- A run goes on after a pause, and comes to the end that it would have come to without it. -/
theorem resume {said₁ : Summary} (h : net.Returns t₁ mid said₁) (hle : t₁ ≤ t₂)
    (h' : mid.Returns t₂ net' said) : net.Returns t₂ net' said := by
  refine h.induction_next ?_ ?_
  · rintro net hn rfl
    rcases h'.cases_next with ⟨hrest, rfl⟩ | ⟨net₁, hnext, hlater⟩
    · -- nothing happens after the pause
      have hend := of_resting (next_of_late (of_next_eq_resting hrest).2 : net.next t₂ = _)
      rw [h'.summary, advanceTo_advanceTo, Nat.max_eq_right hle]
      exact hend
    · exact of_moved ((next_advanceTo hn).1 hnext) hlater
  · -- the events before the pause are also events of the long run
    intro net net₁ hn _ ih
    exact of_moved (next_of_moved hn hle) ih

/-- A run may be paused at any time before its end. -/
theorem pause (h : net.Returns t₂ net' said) (hle : t₁ ≤ t₂) :
    ∃ mid, net.Returns t₁ mid mid.summary ∧ mid.Returns t₂ net' said := by
  refine h.induction_next ?_ ?_
  · rintro net hn rfl
    refine ⟨_, of_resting (next_of_resting hn hle), ?_⟩
    have hlate : ∀ x ∈ (net.advanceTo t₁).pending, t₂ < x.time := (of_next_eq_resting hn).2
    have hend := of_resting (next_of_late hlate)
    rw [advanceTo_advanceTo, Nat.max_eq_right hle] at hend
    rw [h.summary]
    exact hend
  · rintro net net₁ hn hlater ⟨mid, hmid, hend⟩
    -- the next event comes before the pause or after it
    rcases next_cases_of_moved hn t₁ with hmoved | hrest
    · exact ⟨mid, of_moved hmoved hmid, hend⟩
    · exact ⟨_, of_resting hrest, of_moved ((next_advanceTo hrest).2 hn) hlater⟩

/-- At its end a run has left nothing to do up to its limit, and the clock shows it. -/
theorem late (h : net.Returns limit net' said) :
    (∀ x ∈ net'.pending, limit < x.time) ∧ limit ≤ net'.clock := by
  refine h.induction_next ?_ ?_
  · rintro net hn rfl
    exact ⟨(of_next_eq_resting hn).2, Nat.le_max_right ..⟩
  · exact fun _ _ _ _ ih => ih

/-- After a run, another one up to an earlier time changes nothing. -/
theorem again (h : net.Returns t₁ mid said) (hle : t₂ ≤ t₁) : mid.Returns t₂ mid said := by
  obtain ⟨hlate, hclock⟩ := h.late
  have hrest := of_resting (next_of_late fun x hx => Nat.lt_of_le_of_lt hle (hlate x hx))
  rw [advanceTo_of_le (Nat.le_trans hle hclock)] at hrest
  rwa [← h.summary] at hrest

end Returns

/-! ### Many pauses -/

/-- A network runs up to each of some times, one after the other. -/
inductive Pauses : List Nat → Network → Network → Prop
  | done (net : Network) : Pauses [] net net
  | run {limit : Nat} {times : List Nat} {net mid net' : Network} {said : Summary}
      (h : net.Returns limit mid said) (h' : Pauses times mid net') :
      Pauses (limit :: times) net net'

/-- Any number of pauses may come before the end of a run. -/
theorem Returns.pauses {times : List Nat} (htimes : ∀ t ∈ times, t ≤ limit) :
    (∃ mid, Pauses times net mid ∧ mid.Returns limit net' said) ↔
      net.Returns limit net' said := by
  induction times generalizing net with
  | nil =>
    constructor
    · rintro ⟨_, ⟨⟩, h⟩
      exact h
    · exact fun h => ⟨net, .done net, h⟩
  | cons t times ih =>
    have hfirst : t ≤ limit := htimes t List.mem_cons_self
    have hothers : ∀ u ∈ times, u ≤ limit := fun u hu => htimes u (List.mem_cons_of_mem _ hu)
    constructor
    · rintro ⟨_, ⟨⟩ | ⟨hrun, hpauses⟩, h⟩
      exact hrun.resume hfirst ((ih hothers).1 ⟨_, hpauses, h⟩)
    · intro h
      obtain ⟨mid, hrun, h⟩ := h.pause hfirst
      obtain ⟨last, hpauses, h⟩ := (ih hothers).2 h
      exact ⟨last, .run hrun hpauses, h⟩

/-- **Runs compose.**  Whatever the state of a network, a run up to one time that is followed by a
    run up to another one comes to an end if and only if a single run up to the later of the two
    times does, and to the same end with the same summary.  A run up to an earlier time than that
    of the run before changes nothing and says the same again.  So does a run come to the same end
    however often it is paused. -/
theorem runs_compose (net : Network) :
    (∀ t₁ t₂ net' said,
      (∃ mid said₁, net.Returns t₁ mid said₁ ∧ mid.Returns t₂ net' said) ↔
        net.Returns (max t₁ t₂) net' said) ∧
    (∀ t₁ t₂ mid said₁, t₂ ≤ t₁ → net.Returns t₁ mid said₁ →
      ∀ net' said, mid.Returns t₂ net' said ↔ net' = mid ∧ said = said₁) ∧
    ∀ times limit net' said, (∀ t ∈ times, t ≤ limit) →
      ((∃ mid, Pauses times net mid ∧ mid.Returns limit net' said) ↔
        net.Returns limit net' said) := by
  have hagain : ∀ t₁ t₂ mid said₁, t₂ ≤ t₁ → net.Returns t₁ mid said₁ →
      ∀ net' said, mid.Returns t₂ net' said ↔ net' = mid ∧ said = said₁ := by
    intro t₁ t₂ mid said₁ hle h net' said
    constructor
    · exact (h.again hle).unique
    · rintro ⟨rfl, rfl⟩
      exact h.again hle
  refine ⟨?_, hagain, fun times limit net' said htimes => Returns.pauses htimes⟩
  intro t₁ t₂ net' said
  rcases Nat.le_total t₁ t₂ with hle | hle
  · rw [Nat.max_eq_right hle]
    constructor
    · rintro ⟨mid, _, h, h'⟩
      exact h.resume hle h'
    · intro h
      obtain ⟨mid, hmid, h'⟩ := h.pause hle
      exact ⟨mid, _, hmid, h'⟩
  · rw [Nat.max_eq_left hle]
    constructor
    · rintro ⟨mid, said₁, h, h'⟩
      obtain ⟨rfl, rfl⟩ := (hagain t₁ t₂ mid said₁ hle h net' said).1 h'
      exact h
    · exact fun h => ⟨net', said, h, h.again hle⟩

/-- A run is paused while the first node of the pair is without power, and asked to go on up to a
    time that has passed.  That changes nothing, and the run ends as it does without pauses. -/
theorem runs_compose_crashingPair : ∃ mid net,
    crashingPair.Returns (Time.ofSecs 3) mid mid.summary ∧
      (mid.node? 0).map (·.isDown) = some true ∧
      mid.Returns (Time.ofSecs 1) mid mid.summary ∧
      crashingPair.Returns (Time.ofSecs 12) net net.summary ∧
      (∀ t ∈ [Time.ofSecs 3, Time.ofSecs 1], t ≤ Time.ofSecs 12) ∧
      ∃ last, Pauses [Time.ofSecs 3, Time.ofSecs 1] crashingPair last ∧
        last.Returns (Time.ofSecs 12) net net.summary := by
  obtain ⟨mid, hmid, hp⟩ := exists_of_endsWith
    (p := fun net => (net.node? 0).map (·.isDown) = some true)
    (by decide +kernel : crashingPair.endsWith (Time.ofSecs 3) 100 _ = true)
  obtain ⟨net, hnet, _⟩ := exists_of_endsWith (p := fun _ => true)
    (by decide +kernel : crashingPair.endsWith (Time.ofSecs 12) 100 _ = true)
  have hpause : crashingPair.Returns (Time.ofSecs 3) mid mid.summary := ⟨⟨100, hmid⟩, rfl⟩
  have hend : crashingPair.Returns (Time.ofSecs 12) net net.summary := ⟨⟨100, hnet⟩, rfl⟩
  have htimes : ∀ t ∈ [Time.ofSecs 3, Time.ofSecs 1], t ≤ Time.ofSecs 12 := by decide
  obtain ⟨_, hagain, hpauses⟩ := runs_compose crashingPair
  have hsame := (hagain _ (Time.ofSecs 1) mid _ (by decide) hpause mid mid.summary).2 ⟨rfl, rfl⟩
  exact ⟨mid, net, hpause, of_decide_eq_true hp, hsame, hend, htimes,
    (hpauses _ _ net _ htimes).2 hend⟩

end Network

end TokenMesh
