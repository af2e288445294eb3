import TokenMesh.Proofs.Node.Reaction

namespace TokenMesh

/-!
# Timers and power cuts

What a node does when one of its timers fires or its power is cut, as far as a driver has to know:
what it multicasts, whether it has power, and how often it has been switched on again.

* `Node.sends_timer`: a node with power multicasts, and one without power sends nothing;
* `Node.power_restart`: a node without power has it again after its restart timer has fired.
-/

namespace Node

variable {n : Node}

/-- What a node multicasts when a timer fires, if it has power. -/
theorem sends_timer (n : Node) (kind : TimerKind) (now : Nat) :
    (n.handle kind.event now).sends =
      if n.isDown then []
      else match kind with
        | .announce => [.multicast .announce]
        | .beacon => [.multicast (.beacon n.token.version)]
        | .restart => [] := by
  cases kind with
  | announce =>
    show n.onAnnounceTimer.sends = _
    unfold onAnnounceTimer
    split <;> rfl
  | beacon =>
    show n.onBeaconTimer.sends = _
    unfold onBeaconTimer
    split <;> rfl
  | restart =>
    show n.onRestartTimer.sends = _
    rw [sends_onRestartTimer]
    split <;> rfl

/-- Timers prompt no unicast. -/
theorem multicasts_timer (n : Node) (kind : TimerKind) (now : Nat) :
    ∀ out ∈ (n.handle kind.event now).sends, out.isMulticast = true := by
  intro out hout
  rw [sends_timer] at hout
  split at hout
  · cases hout
  · cases kind with
    | restart => cases hout
    | _ => rw [List.mem_singleton.1 hout]; rfl

/-- The restart timer brings power back. -/
theorem power_restart (h : n.isDown = true) (now : Nat) :
    (n.handle .restartTimer now).node.power = .on ∧
      (n.handle .restartTimer now).node.counters.restarts = n.counters.restarts + 1 := by
  show n.onRestartTimer.node.power = .on ∧ n.onRestartTimer.node.counters.restarts = _
  rw [onRestartTimer_of_down h]
  exact ⟨rfl, rfl⟩

theorem isDown_eq_false_iff : n.isDown = false ↔ n.power = .on := by
  unfold isDown
  cases n.power <;> simp

theorem isDown_of_power {till : Nat} (h : n.power = .down till) : n.isDown = true := by
  unfold isDown
  rw [h]

/-- A power failure is granted to a node with power. -/
theorem powerDown_of_up (h : n.isDown = false) (delay now : Nat) :
    ∃ r, n.powerDown delay now = .ok r ∧ r.node = { n with power := .down (now + delay) } ∧
      r.sends = [] ∧ r.notices = [n.report (.poweringDown delay)] := by
  unfold powerDown
  rw [h]
  exact ⟨_, rfl, rfl, rfl, rfl⟩

theorem powerDown_of_down (h : n.isDown = true) (delay now : Nat) :
    n.powerDown delay now = .error .restartPending := by
  unfold powerDown
  rw [h]
  rfl

end Node

end TokenMesh
