import Mathlib.Order.WellFounded
import TokenMesh.Proofs.Network.Work

namespace TokenMesh

/-!
# The end of a run

A run up to a given time processes no more events than the workload at its start allows, wherever
walks of data can be priced: links that take time price the hops by the instants that are left, a
limit of hops prices them by the hops that are left.  Where a hop takes no time and hops are not
limited, data is priced at nothing for its walk, and then all that can go on without an end is that
data is handed from node to node, and the clock stands still.

* `Tariff.byTime`, `Tariff.byHops`, `Tariff.flat`: three ways to price data, and when they are fair;
* `Network.after`: what a number of events makes of a network;
* `Network.ne_unfinished_of_next`: a run that breaks off at an event breaks off for a fault in it;
* `Network.run_ends`: a run ends, or nothing but data keeps it busy.
-/

/-! ### Three ways to price data -/

namespace Tariff

variable (limit degree : Nat) {s : ProtocolSettings} {delay : Nat}

/-- Data pays for each instant that is left. -/
def byTime : Tariff where
  limit := limit
  degree := degree
  walk t _ := limit + 1 - t
  toll := 1

/-- Data pays for each hop that is left. -/
def byHops (most : Int32) : Tariff where
  limit := limit
  degree := degree
  walk _ hops := (most.toInt - hops.toInt).toNat + 1
  toll := 1

/-- Data pays for its arrival, and forwards it for nothing. -/
def flat : Tariff where
  limit := limit
  degree := degree
  walk _ _ := 1
  toll := 0

/-- Hops that take time use up the instants that are left. -/
theorem fair_byTime (h : 0 < delay) : (byTime limit degree).Fair s delay where
  toll_le := Nat.le_refl 1
  pos t _ hl := Nat.le_sub_of_add_le' (Nat.succ_le_succ hl)
  start t u hu := Nat.sub_le_sub_left hu _
  hop t u hops hl hu _ := by
    have hl : t ≤ limit := hl
    show limit + 1 - u + 1 ≤ limit + 1 - t
    omega

/-- Hops that are limited use up the hops that are left. -/
theorem fair_byHops {most : Int32} (hm : s.maxHops = some most) (h : most < Int32.maxValue) :
    (byHops limit degree most).Fair s delay where
  toll_le := Nat.le_refl 1
  pos t hops _ := Nat.succ_pos _
  start t u _ := Nat.le_refl _
  hop t u hops _ _ hnext := by
    have hle : (Node.nextHops hops).toInt ≤ most.toInt := Int32.le_iff_toInt_le.1 (hnext most hm)
    have hlt : most.toInt < Int32.maxValue.toInt := Int32.lt_iff_toInt_lt.1 h
    have hcount : (Node.nextHops hops).toInt = hops.toInt + 1 :=
      Node.toInt_nextHops (Int32.lt_iff_toInt_lt.2 (by omega))
    show (most.toInt - (Node.nextHops hops).toInt).toNat + 1 + 1 ≤
      (most.toInt - hops.toInt).toNat + 1
    omega

theorem fair_flat : (flat limit degree).Fair s delay where
  toll_le := Nat.zero_le 1
  pos _ _ _ := Nat.le_refl 1
  start _ _ _ := Nat.le_refl 1
  hop _ _ _ _ _ _ := Nat.le_refl 1

end Tariff

namespace Network

/-! ### Why a run breaks off -/

/-- A fault of two steps comes from one of them. -/
theorem error_of_bind {α β : Type} {x : Except Fault α} {f : α → Except Fault β} {e : Fault}
    (h : (x >>= f) = .error e) : x = .error e ∨ ∃ a, x = .ok a ∧ f a = .error e := by
  cases x with
  | error e' =>
    obtain rfl := Except.error.inj h
    exact .inl rfl
  | ok a => exact .inr ⟨a, rfl, h⟩

/-- A fault after an instant has been shown, or because it could not be. -/
theorem fault_of_shown_bind {α : Type} {t : Nat} {f : Nat → Except Fault α} {e : Fault}
    (h : (shown t >>= f) = .error e) : e = .clockOverflow ∨ f t = .error e := by
  unfold shown at h
  split at h
  · exact .inr h
  · exact .inl (Except.error.inj h).symm

/-- A fault after a check of instants, or because the check failed. -/
theorem fault_of_ensure_bind {α : Type} {inTime : Bool} {f : Unit → Except Fault α} {e : Fault}
    (h : (ensure inTime >>= f) = .error e) : e = .clockOverflow ∨ f () = .error e := by
  unfold ensure at h
  split at h
  · exact .inr h
  · exact .inl (Except.error.inj h).symm

theorem fault_of_commit {net after : Network} {timers : List Nat} {e : Fault}
    (h : net.commit after timers = .error e) : e = .clockOverflow := by
  rcases fault_of_ensure_bind h with h | h
  · exact h
  · cases h

theorem fault_of_crash {net : Network} {i recovery : Nat} {e : Fault}
    (h : net.crash i recovery = .error e) : e = .clockOverflow := by
  rcases fault_of_shown_bind h with h | h
  · exact h
  simp only at h
  split at h
  · cases h
  · rcases fault_of_ensure_bind h with h | h
    · exact h
    · split at h <;> cases h

theorem fault_of_draw {net : Network} {bound : Nat} {e : Fault}
    (h : net.draw bound = .error e) : e = .emptyRange := by
  unfold draw at h
  split at h
  · cases h
  · exact (Except.error.inj h).symm

theorem ne_unfinished_of_injectFailure {net : Network} {f : FailureConfig} {e : Fault}
    (h : net.injectFailure f = .error e) : e ≠ .unfinished := by
  rcases error_of_bind h with h | ⟨cs, _, h⟩
  · -- a link leads out of the network
    unfold candidates at h
    split at h
    · cases h
    · split at h
      · simp only at h
        split at h
        · rw [← Except.error.inj h]
          decide
        · cases h
      · cases h
  split at h
  · cases h
  rcases error_of_bind h with h | ⟨⟨k, net₁⟩, _, h⟩
  · rw [fault_of_draw h]
    decide
  simp only at h
  split at h
  · unfold failNode at h
    split at h
    · rw [← Except.error.inj h]
      decide
    · cases h
    · rw [fault_of_crash h]
      decide
  · rw [← Except.error.inj h]
    decide

theorem ne_unfinished_of_considerFailure {net : Network} {e : Fault}
    (h : net.considerFailure = .error e) : e ≠ .unfinished := by
  unfold considerFailure at h
  cases hf : net.failures with
  | none =>
    rw [hf] at h
    cases h
  | some f =>
    rw [hf] at h
    simp only at h
    split at h
    · rw [← Except.error.inj h]
      decide
    split at h
    · cases h
    split at h
    · cases h
    rcases error_of_bind h with h | ⟨⟨k, net₁⟩, _, h⟩
    · rw [fault_of_draw h]
      decide
    simp only at h
    split at h
    · exact ne_unfinished_of_injectFailure h
    · cases h

/-- No event says of itself that a run has not come to its end. -/
theorem ne_unfinished_of_process {net : Network} {x : Occurrence} {e : Fault}
    (h : net.process x = .error e) : e ≠ .unfinished := by
  cases x with
  | deliver i sender bytes =>
    rcases fault_of_shown_bind h with h | h
    · rw [h]
      decide
    simp only at h
    split at h
    · rw [← Except.error.inj h]
      decide
    · rcases fault_of_ensure_bind h with h | h
      · rw [h]
        decide
      · rw [fault_of_commit h]
        decide
  | timer i kind generation =>
    replace h : net.fire i kind generation = .error e := h
    unfold fire at h
    split at h
    · rw [← Except.error.inj h]
      decide
    · split at h
      · cases h
      · rcases fault_of_shown_bind h with h | h
        · rw [h]
          decide
        · rw [fault_of_commit h]
          decide
  | failureTick => exact ne_unfinished_of_considerFailure h
  | action a =>
    cases a with
    | originate i value =>
      rcases fault_of_shown_bind h with h | h
      · rw [h]
        decide
      simp only at h
      split at h
      · cases h
      · split at h
        · rw [fault_of_commit h]
          decide
        · cases h
    | crash i recovery =>
      rw [fault_of_crash h]
      decide
    | setRole i role => cases h
    | setLossRate rate => cases h

/-- A run that breaks off at an event does so for a fault in that event. -/
theorem ne_unfinished_of_next {net : Network} {limit : Nat} {d : Breakdown}
    (h : net.next limit = .broken d) : d.fault ≠ .unfinished := by
  obtain ⟨e, rest, _, _, hpr⟩ := exists_process_of_broken h
  exact ne_unfinished_of_process hpr

/-! ### The number of events -/

/-- The network after a number of further events up to a given time, if there are as many. -/
def after (limit : Nat) : (count : Nat) → Network → Option Network
  | 0, net => some net
  | count + 1, net =>
    match net.next limit with
    | .moved net' => after limit count net'
    | _ => none

section after

variable {limit : Nat} {net net' : Network}

theorem after_succ {k : Nat} : net.after limit (k + 1) = some net' ↔
    ∃ mid, net.next limit = .moved mid ∧ mid.after limit k = some net' := by
  simp only [after]
  cases net.next limit with
  | resting _ => simp
  | broken _ => simp
  | moved mid => simp

theorem after_add (j k : Nat) (net : Network) :
    net.after limit (j + k) = (net.after limit j).bind (after limit k) := by
  induction j generalizing net with
  | zero => rw [Nat.zero_add]; rfl
  | succ j ih =>
    rw [Nat.succ_add]
    simp only [after]
    cases net.next limit with
    | resting _ => rfl
    | broken _ => rfl
    | moved mid => exact ih mid

/-- What comes after more events comes after the rest of them. -/
theorem after_sub {j k : Nat} {mid : Network} (hmid : net.after limit j = some mid) (hle : j ≤ k)
    (h : net.after limit k = some net') : mid.after limit (k - j) = some net' := by
  rw [← Nat.add_sub_of_le hle, after_add, hmid] at h
  exact h

/-- An event up to a given time does not set the clock back, nor does it set it to a later one. -/
theorem clock_of_next (hn : net.next limit = .moved net') :
    net.clock ≤ net'.clock ∧ net'.clock ≤ max net.clock limit := by
  obtain ⟨e, rest, net₁, _, hle, heffect, rfl⟩ := exists_effect_of_next hn
  have hclock : net₁.watch.clock = max net.clock e.time := by
    rw [clock_watch, (extends_effect heffect).clock]
    rfl
  omega

theorem clock_of_after {k : Nat} (h : net.after limit k = some net') :
    net.clock ≤ net'.clock ∧ net'.clock ≤ max net.clock limit := by
  induction k generalizing net with
  | zero =>
    obtain rfl := Option.some.inj h
    omega
  | succ k ih =>
    obtain ⟨mid, hn, h⟩ := after_succ.1 h
    have hfirst := clock_of_next hn
    have hlater := ih h
    omega

/-- In an endless row of events the clock stands still from some event on. -/
theorem exists_clock_eq (hnet : ∀ k, net.after limit k ≠ none) :
    ∃ k₀ now, ∀ k ≥ k₀, ∀ net', net.after limit k = some net' → net'.clock = now := by
  let left : Nat → Nat := fun k =>
    max net.clock limit - ((net.after limit k).map (·.clock)).getD 0
  -- no event comes nearer to the limit than the one after which the least time is left
  let k₀ := Function.argmin left
  obtain ⟨first, hfirst⟩ := Option.ne_none_iff_exists'.1 (hnet k₀)
  refine ⟨k₀, first.clock, fun k hk net' h => ?_⟩
  have hleast : left k₀ ≤ left k := Function.argmin_le left k
  simp only [left, hfirst, h, Option.map_some, Option.getD_some] at hleast
  have hbound := clock_of_after hfirst
  have hmono := clock_of_after (after_sub hfirst hk h)
  omega

end after

section

variable {t : Topology} {s : ProtocolSettings} {c : Tariff} {net net' : Network}

theorem regular_after {limit k : Nat} (h : net.after limit k = some net') (hr : Regular t s net) :
    Regular t s net' := by
  induction k generalizing net with
  | zero =>
    obtain rfl := Option.some.inj h
    exact hr
  | succ k ih =>
    obtain ⟨mid, hn, h⟩ := after_succ.1 h
    exact ih h (regular_step (.event limit hn) hr)

/-- Further events never raise the workload, and lower it by one each if all of them leave
    something of their price. -/
theorem workload_after (hs : s.Valid) (hc : c.Fair s t.delay) (hd : t.links.length ≤ c.degree)
    {k : Nat} (hr : Regular t s net) (h : net.after c.limit k = some net') :
    net'.workload c + k * c.toll ≤ net.workload c := by
  induction k generalizing net with
  | zero =>
    obtain rfl := Option.some.inj h
    rw [Nat.zero_mul]
    exact Nat.le_refl _
  | succ k ih =>
    obtain ⟨mid, hn, h⟩ := after_succ.1 h
    obtain ⟨e, rest, hp, hpay⟩ := workload_next hs hc hd hr hn
    have hlater := ih (regular_step (.event c.limit hn) hr) h
    have htoll := c.toll_le_surplus hc e.event
    rw [Nat.succ_mul]
    omega

/-- A run comes to its end within a budget that exceeds the workload, unless it breaks off. -/
theorem ne_unfinished_of_runUntil (hs : s.Valid) (hc : c.Fair s t.delay)
    (hd : t.links.length ≤ c.degree) (htoll : c.toll = 1) {budget : Nat} (hr : Regular t s net)
    (hb : net.workload c < budget) {d : Breakdown}
    (h : net.runUntil c.limit budget = .error d) : d.fault ≠ .unfinished := by
  induction budget generalizing net with
  | zero => exact absurd hb (Nat.not_lt_zero _)
  | succ budget ih =>
    unfold runUntil at h
    split at h
    · cases h
    · next net' hn =>
      obtain ⟨e, rest, hp, hpay⟩ := workload_next hs hc hd hr hn
      have hone := c.toll_le_surplus hc e.event
      exact ih (regular_step (.event c.limit hn) hr) (by omega) h
    · next d' hn =>
      obtain rfl := Except.error.inj h
      exact ne_unfinished_of_next hn

/-- In an endless row of events all but finitely many leave nothing of their price. -/
theorem exists_surplus_eq_zero (hs : s.Valid) (hc : c.Fair s t.delay)
    (hd : t.links.length ≤ c.degree) (hr : Regular t s net)
    (hnet : ∀ k, net.after c.limit k ≠ none) :
    ∃ k₀, ∀ k ≥ k₀, ∀ net', net.after c.limit k = some net' →
      ∃ e rest, net'.queue.pop? = some (e, rest) ∧ c.surplus e.event = 0 := by
  let load : Nat → Nat := fun k => ((net.after c.limit k).map (workload c)).getD 0
  -- from the least workload on nothing is paid any more
  let k₀ := Function.argmin load
  refine ⟨k₀, fun k hk net' h => ?_⟩
  have hr' := regular_after h hr
  obtain ⟨first, hfirst⟩ := Option.ne_none_iff_exists'.1 (hnet k₀)
  obtain ⟨last, hlast⟩ := Option.ne_none_iff_exists'.1 (hnet (k + 1))
  have hleast : first.workload c ≤ last.workload c := by
    have hle : load k₀ ≤ load (k + 1) := Function.argmin_le load (k + 1)
    simp only [load, hfirst, hlast] at hle
    exact hle
  have hlow : net'.workload c ≤ first.workload c :=
    Nat.le_trans (Nat.le_add_right ..)
      (workload_after hs hc hd (regular_after hfirst hr) (after_sub hfirst hk h))
  rw [after_add, h] at hlast
  obtain ⟨mid, hn, hmid⟩ := after_succ.1 hlast
  obtain rfl := Option.some.inj hmid
  obtain ⟨e, rest, hp, hpay⟩ := workload_next hs hc hd hr' hn
  exact ⟨e, rest, hp, by omega⟩

end

/-- A run ends, if hops take time or are limited: no more than a fixed number of events lies before
    any given time, and a budget that exceeds it is never used up.  Otherwise a run that does not
    end hands on data and does, from some event on, nothing else, and the clock stands still. -/
theorem run_ends {t : Topology} {s : ProtocolSettings} {seed : UInt64} {net : Network}
    (hs : s.Valid) (hr : Run (fun _ => True) (build t s seed) net) (limit : Nat) :
    (0 < t.delay ∨ (∃ most, s.maxHops = some most ∧ most < Int32.maxValue) →
      ∃ count, (∀ k > count, net.after limit k = none) ∧
        ∀ budget > count, ∀ d, net.runUntil limit budget = .error d → d.fault ≠ .unfinished) ∧
    ((∀ k, net.after limit k ≠ none) →
      ∃ k₀ now, ∀ k ≥ k₀, ∀ net', net.after limit k = some net' → net'.clock = now ∧
        ∃ e rest, net'.queue.pop? = some (e, rest) ∧ e.event.carriesData = true) := by
  have hregular := regular_of_run hr
  -- a price that is fair and leaves something of every event
  have hpriced : ∀ c : Tariff, c.limit = limit → c.degree = t.links.length → c.toll = 1 →
      c.Fair s t.delay → ∃ count, (∀ k > count, net.after limit k = none) ∧
        ∀ budget > count, ∀ d, net.runUntil limit budget = .error d → d.fault ≠ .unfinished := by
    rintro c rfl hd htoll hc
    refine ⟨net.workload c, ?_, ?_⟩
    · intro k hk
      by_contra hmore
      obtain ⟨net', h⟩ := Option.ne_none_iff_exists'.1 hmore
      have hle := workload_after hs hc hd.ge hregular h
      rw [htoll] at hle
      omega
    · intro budget hb d h
      exact ne_unfinished_of_runUntil hs hc hd.ge htoll hregular hb h
  refine ⟨?_, ?_⟩
  · rintro (hdelay | ⟨most, hmost, hlt⟩)
    · exact hpriced (.byTime limit t.links.length) rfl rfl rfl (Tariff.fair_byTime _ _ hdelay)
    · exact hpriced (.byHops limit t.links.length most) rfl rfl rfl
        (Tariff.fair_byHops _ _ hmost hlt)
  · intro hendless
    obtain ⟨k₀, hk⟩ := exists_surplus_eq_zero (c := .flat limit t.links.length) hs
      (Tariff.fair_flat _ _) (Nat.le_refl _) hregular hendless
    obtain ⟨k₁, now, hstill⟩ := exists_clock_eq hendless
    refine ⟨max k₀ k₁, now, fun k hlate net' h => ?_⟩
    refine ⟨hstill k (Nat.le_trans (Nat.le_max_right ..) hlate) net' h, ?_⟩
    obtain ⟨e, rest, hp, hzero⟩ := hk k (Nat.le_trans (Nat.le_max_left ..) hlate) net' h
    refine ⟨e, rest, hp, ?_⟩
    by_contra hother
    rw [Tariff.surplus, if_neg hother] at hzero
    cases hzero

/-- For instance where the only source crashes. -/
theorem run_ends_crashingPair :
    ({} : ProtocolSettings).Valid ∧
      Run (fun _ => True) (build (.build .line 2) {} 7) crashingPair ∧
      0 < (Topology.build .line 2).delay ∧
      ∃ count, (∀ k > count, crashingPair.after (Time.ofSecs 12) k = none) ∧
        ∀ budget > count, ∀ d,
          crashingPair.runUntil (Time.ofSecs 12) budget = .error d → d.fault ≠ .unfinished := by
  have hvalid : ({} : ProtocolSettings).Valid := by decide
  have hrun : Run (fun _ => True) (build (.build .line 2) {} 7) crashingPair :=
    .step (.step (.step (.start trivial) (.setRole ..) trivial) (.plan ..) trivial) (.plan ..)
      trivial
  have hdelay : 0 < (Topology.build .line 2).delay := by decide
  exact ⟨hvalid, hrun, hdelay, (run_ends hvalid hrun (Time.ofSecs 12)).1 (.inl hdelay)⟩

end Network

end TokenMesh
