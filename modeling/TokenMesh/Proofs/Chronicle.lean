import TokenMesh.Settings
import Mathlib.Data.List.Basic

namespace TokenMesh

/-!
# The chronicle of a node

When a node that is cut off from power again and again has power, and when its timers beat.  A cut
is granted unless power is off already, and the timers begin anew whenever power comes back.  This
is all that a driver of a node has to keep to, whatever its timers are made of.

* `Cut`, `Cut.inOrder`: a cut of power that is asked for, and many of them in order;
* `Chronicle`, `Chronicle.ofCuts`: when power is on and off if cuts are asked for;
* `beats`: the instants at which a timer beats;
* `Chronicle.beatsOf`: those at which a timer that every return of power sets beats;
* `Beat`: a timer that has beaten so far as it should;
* `Chronicle.Keeps`: what is sent, and the timers that are set, keep to a chronicle.
-/

/-- A cut of power that is asked for. -/
structure Cut where
  time : Nat
  /-- How long it is to last. -/
  length : Nat
deriving DecidableEq, Repr

/-- Whether power is on or off. -/
inductive Phase
  | on (since : Nat)
  | off (till : Nat)
deriving DecidableEq, Repr

/-- What has come of the cuts that were asked for since power was switched on at time zero. -/
structure Chronicle where
  phase : Phase := .on 0
  /-- The spans with power that are over, each with its first and its last instant. -/
  spans : List (Nat × Nat) := []
  /-- The instants at which power came back. -/
  starts : List Nat := []
  /-- Whether cuts were granted, in the order in which they were asked for. -/
  answers : List Bool := []
deriving DecidableEq, Repr

/-- The instants up to `stop` at which a timer beats, from its first beat on. -/
def beats (first period stop : Nat) : List Nat :=
  (List.range ((stop + period - first) / period)).map fun k => first + k * period

theorem mem_beats {first period stop t : Nat} (hp : 0 < period) :
    t ∈ beats first period stop ↔ t ≤ stop ∧ ∃ k, t = first + k * period := by
  have hcount : ∀ k, k < (stop + period - first) / period ↔ first + k * period ≤ stop := by
    intro k
    rw [← Nat.succ_le_iff, Nat.le_div_iff_mul_le hp, Nat.succ_mul]
    omega
  simp only [beats, List.mem_map, List.mem_range, hcount]
  constructor
  · rintro ⟨k, hk, rfl⟩
    exact ⟨hk, k, rfl⟩
  · rintro ⟨hle, k, rfl⟩
    exact ⟨k, hle, rfl⟩

/-- A timer that beats from a first instant on with a period has beaten whenever it should before
    an instant, and never later; `due` is its next beat. -/
structure Beat (first period seen due : Nat) (beaten : List Nat) : Prop where
  exists_count : ∃ k, due = first + k * period ∧
    beaten = (List.range k).map fun j => first + j * period
  past : ∀ t ∈ beaten, t < seen

namespace Beat

variable {first period seen due : Nat} {beaten : List Nat}

/-- Before its first beat. -/
theorem start (first period seen : Nat) : Beat first period seen first [] where
  exists_count := ⟨0, by simp, rfl⟩
  past := by simp

/-- A beat in time. -/
theorem fire (h : Beat first period seen due beaten) (hle : seen ≤ due + 1) :
    Beat first period (due + 1) (due + period) (beaten ++ [due]) where
  exists_count := by
    obtain ⟨k, rfl, rfl⟩ := h.exists_count
    refine ⟨k + 1, by rw [Nat.succ_mul, Nat.add_assoc], ?_⟩
    rw [List.range_succ, List.map_append, List.map_singleton]
  past := by
    intro t ht
    rcases List.mem_append.1 ht with ht | ht
    · exact Nat.lt_of_lt_of_le (h.past t ht) hle
    · rw [List.mem_singleton.1 ht]
      exact Nat.lt_succ_self due

theorem wait {later : Nat} (h : Beat first period seen due beaten) (hle : seen ≤ later) :
    Beat first period later due beaten where
  exists_count := h.exists_count
  past t ht := Nat.lt_of_lt_of_le (h.past t ht) hle

/-- Before the next beat, all beats so far are those that there are. -/
theorem eq_beats {stop : Nat} (h : Beat first period seen due beaten) (hp : 0 < period)
    (hle : seen ≤ stop + 1) (hlt : stop < due) : beaten = beats first period stop := by
  obtain ⟨k, rfl, hbeaten⟩ := h.exists_count
  have hcount : (stop + period - first) / period = k := by
    refine Nat.div_eq_of_lt_le ?_ ?_
    · cases k with
      | zero => simp
      | succ k =>
        have hlast : first + k * period < seen := by
          refine h.past _ ?_
          rw [hbeaten]
          exact List.mem_map.2 ⟨k, List.mem_range.2 (Nat.lt_succ_self k), rfl⟩
        rw [Nat.succ_mul]
        omega
    · rw [Nat.succ_mul]
      omega
  rw [hbeaten, beats, hcount]

/-- The next beat is one of those that there are. -/
theorem mem_beats_due (h : Beat first period seen due beaten) (hp : 0 < period) :
    due ∈ beats first period due := by
  obtain ⟨k, hk, -⟩ := h.exists_count
  exact (mem_beats hp).2 ⟨Nat.le_refl _, k, hk⟩

end Beat

namespace Chronicle

/-- Power comes back. -/
def restore (c : Chronicle) (now : Nat) : Chronicle :=
  { c with phase := .on now, starts := c.starts ++ [now] }

/-- The chronicle just before an instant: power has come back if it was to do so by then. -/
def before (c : Chronicle) (now : Nat) : Chronicle :=
  match c.phase with
  | .on _ => c
  | .off till => if till < now then c.restore till else c

/-- A cut is asked for. -/
def cut (c : Chronicle) (x : Cut) : Chronicle :=
  let c := c.before x.time
  match c.phase with
  | .on since =>
    { c with
      phase := .off (x.time + x.length)
      spans := c.spans ++ [(since, x.time)]
      answers := c.answers ++ [true] }
  | .off _ => { c with answers := c.answers ++ [false] }

/-- All spans with power up to an instant. -/
def spansUntil (c : Chronicle) (stop : Nat) : List (Nat × Nat) :=
  match c.phase with
  | .on since => c.spans ++ [(since, stop)]
  | .off _ => c.spans

/-- The beats of a timer in some spans; it begins to beat some time after each of them has. -/
def beatsIn (spans : List (Nat × Nat)) (delay period : Nat) : List Nat :=
  spans.flatMap fun p => beats (p.1 + delay) period p.2

/-- The beats of a timer that begins to beat some time after power is switched on. -/
def beatsOf (c : Chronicle) (delay period stop : Nat) : List Nat :=
  beatsIn (c.spansUntil stop) delay period

/-! ### Cuts -/

section cuts

variable {c : Chronicle}

theorem before_of_on {since : Nat} (h : c.phase = .on since) (now : Nat) : c.before now = c := by
  unfold before
  rw [h]

theorem before_of_le {till now : Nat} (h : c.phase = .off till) (hle : now ≤ till) :
    c.before now = c := by
  unfold before
  rw [h]
  exact if_neg (Nat.not_lt.2 hle)

theorem before_of_lt {till now : Nat} (h : c.phase = .off till) (hlt : till < now) :
    c.before now = c.restore till := by
  unfold before
  rw [h]
  exact if_pos hlt

/-- What has come back by an instant has come back by a later one. -/
theorem before_before {t now : Nat} (hle : t ≤ now) : (c.before t).before now = c.before now := by
  cases h : c.phase with
  | on since => rw [before_of_on h]
  | off till =>
    rcases Nat.lt_or_ge till t with hlt | hge
    · rw [before_of_lt h hlt, before_of_lt h (Nat.lt_of_lt_of_le hlt hle), before_of_on rfl]
    · rw [before_of_le h hge]

theorem cut_before {t : Nat} {x : Cut} (hle : t ≤ x.time) : (c.before t).cut x = c.cut x := by
  unfold cut
  rw [before_before hle]

theorem cut_of_on {since : Nat} (h : c.phase = .on since) (x : Cut) :
    c.cut x =
      { c with
        phase := .off (x.time + x.length)
        spans := c.spans ++ [(since, x.time)]
        answers := c.answers ++ [true] } := by
  unfold cut
  rw [before_of_on h]
  simp only [h]

theorem cut_of_off {till : Nat} (h : c.phase = .off till) {x : Cut} (hle : x.time ≤ till) :
    c.cut x = { c with answers := c.answers ++ [false] } := by
  unfold cut
  rw [before_of_le h hle]
  simp only [h]

/-- Cuts that are asked for after power has come back see no difference. -/
theorem foldl_cut_before {t stop : Nat} {cuts : List Cut} (ht : t ≤ stop + 1)
    (hcuts : ∀ x ∈ cuts, t ≤ x.time) :
    (cuts.foldl cut (c.before t)).before (stop + 1) = (cuts.foldl cut c).before (stop + 1) := by
  cases cuts with
  | nil => exact before_before ht
  | cons x xs => rw [List.foldl_cons, cut_before (hcuts x List.mem_cons_self), List.foldl_cons]

end cuts

/-- After a cut that was asked for, power is off for the time being. -/
theorem exists_off_of_cut (c : Chronicle) (x : Cut) :
    ∃ till, (c.cut x).phase = .off till ∧ x.time ≤ till := by
  unfold cut
  dsimp only
  split
  · exact ⟨x.time + x.length, rfl, Nat.le_add_right ..⟩
  · next till hoff =>
    refine ⟨till, hoff, ?_⟩
    -- power would have come back
    by_contra hlt
    unfold before at hoff
    split at hoff
    · next hon => rw [hon] at hoff; cases hoff
    · split at hoff
      · cases hoff
      · next hoff' hge => exact hge (by rw [hoff'] at hoff; cases hoff; omega)

/-- Power that is still off at an instant comes back at that instant or later. -/
theorem le_of_before_off {c : Chronicle} {now till : Nat} (h : (c.before now).phase = .off till) :
    now ≤ till := by
  unfold before at h
  split at h
  · next hon => rw [hon] at h; cases h
  · next hoff =>
    split at h
    · cases h
    · next hge =>
      rw [hoff] at h
      cases h
      omega

/-- Each span with power begins when power is switched on or comes back. -/
def Aligned (c : Chronicle) : Prop := ∀ stop, (c.spansUntil stop).map Prod.fst = 0 :: c.starts

theorem Aligned.before {c : Chronicle} (h : c.Aligned) (now : Nat) : (c.before now).Aligned := by
  cases hc : c.phase with
  | on since => rwa [before_of_on hc]
  | off till =>
    rcases Nat.lt_or_ge till now with hlt | hge
    · rw [before_of_lt hc hlt]
      intro stop
      have hold := h stop
      simp only [spansUntil, hc] at hold
      simp only [spansUntil, restore, List.map_append, hold]
      rfl
    · rwa [before_of_le hc hge]

theorem Aligned.cut {c : Chronicle} (h : c.Aligned) (x : Cut) : (c.cut x).Aligned := by
  have hbefore := h.before x.time
  unfold Chronicle.cut
  dsimp only
  intro stop
  have hold := hbefore stop
  split
  · next since hon =>
    simp only [spansUntil, hon] at hold
    simpa [spansUntil] using hold
  · next till hoff =>
    simp only [spansUntil, hoff] at hold ⊢
    exact hold

/-- Whether a timer beats at an instant, if nothing else happens before. -/
def beatsAt (s : ProtocolSettings) (c : Chronicle) (t : Nat) : Bool :=
  match (c.before t).phase with
  | .on since =>
    t ∈ beats (since + s.initialAnnounceDelay) s.announcePeriod t ∨
      t ∈ beats (since + s.beaconPeriod) s.beaconPeriod t
  | .off _ => false

/-- Whether clocks can show the end of a cut, if it is granted. -/
def inTime (c : Chronicle) (x : Cut) : Bool :=
  match (c.before x.time).phase with
  | .on _ => x.time + x.length < Time.horizon
  | .off _ => true

/-- No cut is asked for at an instant at which a timer beats, and clocks can show the end of each
    that is granted. -/
def Clear (s : ProtocolSettings) : Chronicle → List Cut → Prop
  | _, [] => True
  | c, x :: xs => c.beatsAt s x.time = false ∧ c.inTime x = true ∧ Clear s (c.cut x) xs

instance Clear.decidable (s : ProtocolSettings) :
    (c : Chronicle) → (cuts : List Cut) → Decidable (c.Clear s cuts)
  | _, [] => isTrue trivial
  | c, x :: xs =>
    have := Clear.decidable s (c.cut x) xs
    inferInstanceAs (Decidable (_ ∧ _ ∧ _))

/-- What has come of cuts matters only as far as it shows at the instant of the next one. -/
theorem Clear.congr {s : ProtocolSettings} {c c' : Chronicle} {x : Cut} {xs : List Cut}
    (h : c.Clear s (x :: xs)) (heq : c'.before x.time = c.before x.time) :
    c'.Clear s (x :: xs) := by
  have hcut : c'.cut x = c.cut x := by
    rw [← cut_before (Nat.le_refl x.time), heq, cut_before (Nat.le_refl x.time)]
  obtain ⟨hquiet, hend, hlater⟩ := h
  refine ⟨?_, ?_, hcut ▸ hlater⟩
  · rw [beatsAt, heq]
    exact hquiet
  · rw [inTime, heq]
    exact hend

/-- Cuts that come later than an instant see no difference. -/
theorem Clear.before {s : ProtocolSettings} {c : Chronicle} {cuts : List Cut} {t : Nat}
    (h : c.Clear s cuts) (ht : ∀ x ∈ cuts, t ≤ x.time) : (c.before t).Clear s cuts := by
  cases cuts with
  | nil => trivial
  | cons x xs => exact h.congr (before_before (ht x List.mem_cons_self))

/-- Clocks can show the end of a cut that comes while power is on. -/
theorem Clear.end_lt {s : ProtocolSettings} {c : Chronicle} {since : Nat} {x : Cut}
    {xs : List Cut} (h : c.Clear s (x :: xs)) (hphase : c.phase = .on since) :
    x.time + x.length < Time.horizon := by
  have hend := h.2.1
  rw [inTime, before_of_on hphase, hphase] at hend
  exact of_decide_eq_true hend

/-- What was announced before an instant, and when the timers are set to beat next, keeps to a
    chronicle. -/
inductive Keeps (s : ProtocolSettings) (c : Chronicle) (seen announce beacon : Nat)
    (announces beacons : List Nat) : Prop
  | on {since : Nat} {as bs : List Nat} (hphase : c.phase = .on since)
      (hannounces : announces = beatsIn c.spans s.initialAnnounceDelay s.announcePeriod ++ as)
      (hbeacons : beacons = beatsIn c.spans s.beaconPeriod s.beaconPeriod ++ bs)
      (has : Beat (since + s.initialAnnounceDelay) s.announcePeriod seen announce as)
      (hbs : Beat (since + s.beaconPeriod) s.beaconPeriod seen beacon bs)
  | off {till : Nat} (hphase : c.phase = .off till)
      (hannounces : announces = beatsIn c.spans s.initialAnnounceDelay s.announcePeriod)
      (hbeacons : beacons = beatsIn c.spans s.beaconPeriod s.beaconPeriod)

namespace Keeps

variable {s : ProtocolSettings} {c : Chronicle} {seen announce beacon : Nat}
  {announces beacons : List Nat}

theorem start (s : ProtocolSettings) :
    Keeps s {} 0 s.initialAnnounceDelay s.beaconPeriod [] [] := by
  refine .on rfl rfl rfl ?_ ?_
  · rw [Nat.zero_add]
    exact .start ..
  · rw [Nat.zero_add]
    exact .start ..

theorem announced {since : Nat} (h : Keeps s c seen announce beacon announces beacons)
    (hphase : c.phase = .on since) (hle : seen ≤ announce + 1) :
    Keeps s c (announce + 1) (announce + s.announcePeriod) beacon (announces ++ [announce])
      beacons := by
  cases h with
  | on hon ha hb has hbs =>
    exact .on hon (by rw [ha, List.append_assoc]) hb (has.fire hle) (hbs.wait hle)
  | off hoff => rw [hphase] at hoff; cases hoff

theorem beaconed {since : Nat} (h : Keeps s c seen announce beacon announces beacons)
    (hphase : c.phase = .on since) (hle : seen ≤ beacon + 1) :
    Keeps s c (beacon + 1) announce (beacon + s.beaconPeriod) announces (beacons ++ [beacon]) := by
  cases h with
  | on hon ha hb has hbs =>
    exact .on hon ha (by rw [hb, List.append_assoc]) (has.wait hle) (hbs.fire hle)
  | off hoff => rw [hphase] at hoff; cases hoff

/-- Without power it does not matter what timers do. -/
theorem idle {till : Nat} (h : Keeps s c seen announce beacon announces beacons)
    (hphase : c.phase = .off till) (seen' announce' beacon' : Nat) :
    Keeps s c seen' announce' beacon' announces beacons := by
  cases h with
  | on hon => rw [hphase] at hon; cases hon
  | off hoff ha hb => exact .off hoff ha hb

theorem wait {later : Nat} (h : Keeps s c seen announce beacon announces beacons)
    (hle : seen ≤ later) : Keeps s c later announce beacon announces beacons := by
  cases h with
  | on hon ha hb has hbs => exact .on hon ha hb (has.wait hle) (hbs.wait hle)
  | off hoff ha hb => exact .off hoff ha hb

/-- When power comes back, both timers are set as at the start. -/
theorem restored {till : Nat} (h : Keeps s c seen announce beacon announces beacons)
    (hphase : c.phase = .off till) (seen' : Nat) :
    Keeps s (c.restore till) seen' (till + s.initialAnnounceDelay) (till + s.beaconPeriod)
      announces beacons := by
  cases h with
  | on hon => rw [hphase] at hon; cases hon
  | off hoff ha hb =>
    exact .on rfl (by rw [List.append_nil]; exact ha) (by rw [List.append_nil]; exact hb)
      (.start ..) (.start ..)

/-- A cut that is granted at an instant at which no timer beats. -/
theorem granted {since : Nat} {x : Cut} (h : Keeps s c seen announce beacon announces beacons)
    (hs : 0 < s.announcePeriod ∧ 0 < s.beaconPeriod) (hphase : c.phase = .on since)
    (hle : seen ≤ x.time + 1) (ha : x.time < announce) (hb : x.time < beacon)
    (seen' announce' beacon' : Nat) :
    Keeps s (c.cut x) seen' announce' beacon' announces beacons := by
  cases h with
  | on hon ha' hb' has hbs =>
    rw [hphase] at hon
    obtain rfl := Phase.on.inj hon
    rw [cut_of_on hphase]
    refine .off rfl ?_ ?_
    · rw [ha', has.eq_beats hs.1 hle ha, beatsIn, beatsIn, List.flatMap_append]
      simp
    · rw [hb', hbs.eq_beats hs.2 hle hb, beatsIn, beatsIn, List.flatMap_append]
      simp
  | off hoff => rw [hphase] at hoff; cases hoff

/-- A cut that is refused. -/
theorem refused {till : Nat} {x : Cut} (h : Keeps s c seen announce beacon announces beacons)
    (hphase : c.phase = .off till) (hle : x.time ≤ till) (seen' announce' beacon' : Nat) :
    Keeps s (c.cut x) seen' announce' beacon' announces beacons := by
  rw [cut_of_off hphase hle]
  cases h with
  | on hon => rw [hphase] at hon; cases hon
  | off hoff ha hb => exact .off hoff ha hb

/-- Where a cut comes while power is on, no timer is due. -/
theorem ne_of_clear {since : Nat} {x : Cut} {xs : List Cut}
    (h : Keeps s c seen announce beacon announces beacons)
    (hs : 0 < s.announcePeriod ∧ 0 < s.beaconPeriod) (hphase : c.phase = .on since)
    (hclear : c.Clear s (x :: xs)) : announce ≠ x.time ∧ beacon ≠ x.time := by
  have hquiet := hclear.1
  simp only [beatsAt, before_of_on hphase, hphase, decide_eq_false_iff_not, not_or] at hquiet
  cases h with
  | on hon ha hb has hbs =>
    rw [hphase] at hon
    obtain rfl := Phase.on.inj hon
    constructor
    · rintro rfl
      exact hquiet.1 (has.mem_beats_due hs.1)
    · rintro rfl
      exact hquiet.2 (hbs.mem_beats_due hs.2)
  | off hoff => rw [hphase] at hoff; cases hoff

/-- In the end all that was to be sent was sent. -/
theorem eq_beatsOf {stop : Nat} (h : Keeps s c seen announce beacon announces beacons)
    (hs : 0 < s.announcePeriod ∧ 0 < s.beaconPeriod) (hle : seen ≤ stop + 1)
    (hlate : ∀ since, c.phase = .on since → stop < announce ∧ stop < beacon) :
    announces = c.beatsOf s.initialAnnounceDelay s.announcePeriod stop ∧
      beacons = c.beatsOf s.beaconPeriod s.beaconPeriod stop := by
  cases h with
  | on hon ha hb has hbs =>
    obtain ⟨hlate, hlate'⟩ := hlate _ hon
    simp only [beatsOf, spansUntil, hon]
    rw [ha, hb, has.eq_beats hs.1 hle hlate, hbs.eq_beats hs.2 hle hlate']
    simp [beatsIn]
  | off hoff ha hb =>
    simp only [beatsOf, spansUntil, hoff]
    exact ⟨ha, hb⟩

end Keeps

end Chronicle

end TokenMesh
