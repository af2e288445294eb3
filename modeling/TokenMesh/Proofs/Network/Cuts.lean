import TokenMesh.Proofs.Chronicle
import TokenMesh.Proofs.Network.Run

namespace TokenMesh

/-!
# Planned power cuts

Cuts of the power of one node are planned, and wait among the node's timers.  The timers are events
that are set again whenever they fire, and that do nothing once their generation has passed.

* `Network.planCuts`, `Network.numbered`: cuts that are planned, and the numbers of their events;
* `Waits`: what waits are the timers of a node and the cuts of a plan;
* `Next`, `Waits.next`: what comes next of all that, and what waits then.
-/

/-! ### What waits -/

/-- The event of a cut. -/
def Cut.scheduled (p : Cut × Nat) : Scheduled Occurrence :=
  ⟨p.1.time, p.2, .action (.crash 0 p.1.length)⟩

/-- The power of a node. -/
def Phase.power : Phase → Power
  | on _ => .on
  | off till => .down till

/-- The timer that brings power back. -/
def Phase.timers (generation seq : Nat) : Phase → List (Scheduled Occurrence)
  | on _ => []
  | off till => [⟨till, seq, .timer 0 .restart generation⟩]

/-- The events that wait are the timers of a generation of the first node, those of generations
    before, and the cuts of a plan, which were planned before the timer that brings power back. -/
def Waits (l : List (Scheduled Occurrence)) (phase : Phase) (plan : List (Cut × Nat))
    (generation announce beacon : Nat) : Prop :=
  ∃ sa sb sr stale,
    l.Perm (⟨announce, sa, .timer 0 .announce generation⟩ ::
      ⟨beacon, sb, .timer 0 .beacon generation⟩ ::
        (phase.timers generation sr ++ (plan.map Cut.scheduled ++ stale))) ∧
    (∀ p ∈ plan, p.2 < sr) ∧
    ∀ x ∈ stale, ∃ kind g, x.event = .timer 0 kind g ∧ g < generation

/-- What comes next of some events that wait, and what waits then. -/
inductive Next (phase : Phase) (plan : List (Cut × Nat)) (generation announce beacon : Nat)
    (l : List (Scheduled Occurrence)) : Scheduled Occurrence → Prop
  | announce (seq : Nat)
      (h : ∀ t seq', Waits (⟨t, seq', .timer 0 .announce generation⟩ :: l) phase plan generation t
        beacon) :
      Next phase plan generation announce beacon l ⟨announce, seq, .timer 0 .announce generation⟩
  | beacon (seq : Nat)
      (h : ∀ t seq', Waits (⟨t, seq', .timer 0 .beacon generation⟩ :: l) phase plan generation
        announce t) :
      Next phase plan generation announce beacon l ⟨beacon, seq, .timer 0 .beacon generation⟩
  | restart {till seq : Nat} (hphase : phase = .off till) (hplan : ∀ p ∈ plan, till < p.1.time)
      (h : ∀ since a sa b sb, Waits (⟨b, sb, .timer 0 .beacon (generation + 1)⟩ ::
        ⟨a, sa, .timer 0 .announce (generation + 1)⟩ :: l) (.on since) plan (generation + 1) a b) :
      Next phase plan generation announce beacon l ⟨till, seq, .timer 0 .restart generation⟩
  | cut {p : Cut × Nat} {ps : List (Cut × Nat)} (hplan : plan = p :: ps)
      (hannounce : p.1.time ≤ announce) (hbeacon : p.1.time ≤ beacon)
      (hoff : ∀ till, phase = .off till → p.1.time ≤ till)
      (hrefused : Waits l phase ps generation announce beacon)
      (hgranted : ∀ since till sr, phase = .on since → (∀ q ∈ ps, q.2 < sr) →
        Waits (⟨till, sr, .timer 0 .restart generation⟩ :: l) (.off till) ps generation announce
          beacon) :
      Next phase plan generation announce beacon l (Cut.scheduled p)
  | stale {e : Scheduled Occurrence} {kind : TimerKind} {g : Nat}
      (he : e.event = .timer 0 kind g) (hg : g < generation)
      (h : Waits l phase plan generation announce beacon) :
      Next phase plan generation announce beacon l e

namespace Waits

variable {l l' : List (Scheduled Occurrence)} {phase : Phase} {plan : List (Cut × Nat)}
  {generation announce beacon : Nat} {e : Scheduled Occurrence}

theorem perm (h : Waits l phase plan generation announce beacon) (hl : l'.Perm l) :
    Waits l' phase plan generation announce beacon := by
  obtain ⟨sa, sb, sr, stale, hp, hrest⟩ := h
  exact ⟨sa, sb, sr, stale, hl.trans hp, hrest⟩

theorem perm_of_cons_perm {A B : List (Scheduled Occurrence)}
    (h : (e :: l).Perm (A ++ e :: B)) : l.Perm (A ++ B) :=
  (h.trans List.perm_middle).cons_inv

/-- Where nothing is due up to an instant, all that matters comes later. -/
theorem late {limit : Nat} (h : Waits l phase plan generation announce beacon)
    (hl : ∀ x ∈ l, limit < x.time) :
    limit < announce ∧ limit < beacon ∧ (∀ till, phase = .off till → limit < till) ∧
      ∀ p ∈ plan, limit < p.1.time := by
  obtain ⟨sa, sb, sr, stale, hp, -, -⟩ := h
  have hall := fun x hx => hl x (hp.mem_iff.2 hx)
  simp only [List.mem_cons, List.mem_append, List.mem_map] at hall
  refine ⟨hall _ (.inl rfl), hall _ (.inr (.inl rfl)), ?_, ?_⟩
  · rintro till rfl
    exact hall _ (.inr (.inr (.inl List.mem_cons_self)))
  · exact fun p hp => hall _ (.inr (.inr (.inr (.inl ⟨p, hp, rfl⟩))))

/-- Once power is back, the timers that were set before do nothing any more. -/
theorem reset {sa sb sr : Nat} {stale : List (Scheduled Occurrence)}
    (hl : l.Perm ([⟨announce, sa, .timer 0 .announce generation⟩,
      ⟨beacon, sb, .timer 0 .beacon generation⟩] ++ (plan.map Cut.scheduled ++ stale)))
    (hsr : ∀ p ∈ plan, p.2 < sr)
    (hstale : ∀ x ∈ stale, ∃ kind g, x.event = .timer 0 kind g ∧ g < generation)
    (since announce' sa' beacon' sb' : Nat) :
    Waits (⟨beacon', sb', .timer 0 .beacon (generation + 1)⟩ ::
      ⟨announce', sa', .timer 0 .announce (generation + 1)⟩ :: l) (.on since) plan (generation + 1)
      announce' beacon' := by
  refine ⟨sa', sb', sr, [⟨announce, sa, .timer 0 .announce generation⟩,
    ⟨beacon, sb, .timer 0 .beacon generation⟩] ++ stale, ?_, hsr, ?_⟩
  · have hrest := hl.trans (List.perm_append_comm_assoc ..)
    exact (List.Perm.swap ..).trans (.cons _ (.cons _ hrest))
  · intro x hx
    rcases List.mem_append.1 hx with hx | hx
    · simp only [List.mem_cons, List.not_mem_nil, or_false] at hx
      obtain rfl | rfl := hx <;> exact ⟨_, _, rfl, Nat.lt_succ_self _⟩
    · obtain ⟨kind, g, hevent, hg⟩ := hstale x hx
      exact ⟨kind, g, hevent, Nat.lt_succ_of_lt hg⟩

/-- A cut of a plan in order that comes before the first one is the first one. -/
theorem eq_first_of_isBefore {p q : Cut × Nat} {ps : List (Cut × Nat)}
    (hplan : (q :: ps).Pairwise fun p q => p.1.time < q.1.time ∨ p.1.time = q.1.time ∧ p.2 < q.2)
    (hp : p ∈ q :: ps) (h : (Cut.scheduled p).isBefore (Cut.scheduled q) = true) : p = q := by
  have hle := Scheduled.isBefore_iff.1 h
  rcases List.mem_cons.1 hp with rfl | hps
  · rfl
  · have hbefore := (List.pairwise_cons.1 hplan).1 p hps
    simp only [Cut.scheduled] at hle
    omega

/-- The event that comes before all others is one of these. -/
theorem next (h : Waits (e :: l) phase plan generation announce beacon)
    (hfirst : ∀ x ∈ e :: l, e.isBefore x = true)
    (hplan : plan.Pairwise fun p q => p.1.time < q.1.time ∨ p.1.time = q.1.time ∧ p.2 < q.2) :
    Next phase plan generation announce beacon l e := by
  obtain ⟨sa, sb, sr, stale, hp, hsr, hstale⟩ := h
  have hall := fun x hx => hfirst x (hp.mem_iff.2 hx)
  have he := hp.mem_iff.1 List.mem_cons_self
  simp only [List.mem_cons, List.mem_append, List.mem_map] at he hall
  obtain rfl | rfl | htimer | ⟨p, hpmem, rfl⟩ | hold := he
  · have hl := hp.cons_inv
    exact .announce sa fun t seq' => ⟨seq', sb, sr, stale, hl.cons _, hsr, hstale⟩
  · have hl := perm_of_cons_perm (A := [_]) hp
    exact .beacon sb fun t seq' =>
      ⟨sa, seq', sr, stale, (hl.cons _).trans (.swap ..), hsr, hstale⟩
  · cases phase with
    | on since => cases htimer
    | off till =>
      obtain rfl := List.mem_singleton.1 htimer
      refine .restart rfl ?_ (reset (perm_of_cons_perm (A := [_, _]) hp) hsr hstale)
      -- a cut at the same instant was planned before, so it would come first
      intro p hp
      have hle := Scheduled.isBefore_iff.1 (hall _ (.inr (.inr (.inr (.inl ⟨p, hp, rfl⟩)))))
      have := hsr p hp
      simp only [Cut.scheduled] at hle
      omega
  · cases plan with
    | nil => cases hpmem
    | cons q ps =>
      obtain rfl : p = q :=
        eq_first_of_isBefore hplan hpmem (hall _ (.inr (.inr (.inr (.inl ⟨q, .head _, rfl⟩)))))
      have hl := perm_of_cons_perm (A := _ :: _ :: phase.timers generation sr) hp
      have hsr' : ∀ q ∈ ps, q.2 < sr := fun q hq => hsr q (List.mem_cons_of_mem _ hq)
      refine .cut rfl (Scheduled.time_le_of_isBefore (hall _ (.inl rfl)))
        (Scheduled.time_le_of_isBefore (hall _ (.inr (.inl rfl)))) ?_
        ⟨sa, sb, sr, stale, hl, hsr', hstale⟩ ?_
      · rintro till rfl
        exact Scheduled.time_le_of_isBefore (hall _ (.inr (.inr (.inl List.mem_cons_self))))
      · rintro since till sr' rfl hsr'
        have hl : l.Perm ([⟨announce, sa, .timer 0 .announce generation⟩,
          ⟨beacon, sb, .timer 0 .beacon generation⟩] ++ (ps.map Cut.scheduled ++ stale)) := hl
        exact ⟨sa, sb, sr', stale, (hl.cons _).trans List.perm_middle.symm, hsr', hstale⟩
  · obtain ⟨kind, g, hevent, hg⟩ := hstale e hold
    obtain ⟨old, older, rfl⟩ := List.append_of_mem hold
    have hl := perm_of_cons_perm
      (A := _ :: _ :: (phase.timers generation sr ++ (plan.map Cut.scheduled ++ old)))
      (by simpa using hp)
    refine .stale hevent hg ⟨sa, sb, sr, old ++ older, by simpa using hl, hsr, ?_⟩
    intro x hx
    refine hstale x ?_
    rcases List.mem_append.1 hx with hx | hx
    · exact List.mem_append_left _ hx
    · exact List.mem_append_right _ (List.mem_cons_of_mem _ hx)

end Waits

/-- What comes next is a timer or the first cut of the plan. -/
theorem Next.timer_or_cut {phase : Phase} {plan : List (Cut × Nat)}
    {generation announce beacon : Nat} {l : List (Scheduled Occurrence)} {e : Scheduled Occurrence}
    (h : Next phase plan generation announce beacon l e) :
    (∃ kind g, e.event = .timer 0 kind g) ∨ ∃ p ps, plan = p :: ps ∧ e = Cut.scheduled p := by
  cases h with
  | announce | beacon | restart => exact .inl ⟨_, _, rfl⟩
  | cut hplan => exact .inr ⟨_, _, hplan, rfl⟩
  | stale he => exact .inl ⟨_, _, he⟩

namespace Network

/-! ### Plans -/

/-- Cuts in order, each with the number that its event gets if they are planned one after the
    other. -/
def numbered (base : Nat) (cuts : List Cut) : List (Cut × Nat) :=
  (cuts.zipIdx.mergeSort (List.zipIdxLE fun x y => x.time ≤ y.time)).map fun p => (p.1, base + p.2)

end Network

end TokenMesh
