import TokenMesh.Proofs.Message.RoundTrip
import TokenMesh.Proofs.Node.Reaction
import TokenMesh.Network

namespace TokenMesh

/-!
# The lives of a node

From one restart to the next, a node only ever takes over newer tokens, and one that has lost its
power does nothing until it is restarted.

* `Occurrence.token?`: the token that is on its way with an event;
* `Node.token_handleDatagram`, `Node.token_handle_timer_cases`: where a node's next token is from;
* `Node.Later`: what can become of a node;
* `Node.later_perform`: whatever is done with a node, that is what becomes of it.
-/

namespace Token

/-- The next token has the next version: nothing wraps below the last one. -/
theorem toInt_version_of_advance? {held t : Token} {value : Int32}
    (h : held.advance? value = some t) : t.version.toInt = held.version.toInt + 1 := by
  unfold advance? at h
  split at h
  · cases h
  · next hne =>
    obtain rfl := Option.some.inj h
    have hlast : held.version.toInt ≠ 32767 := fun heq => hne (Int16.toInt_inj.1 heq)
    have hlt := Int16.toInt_lt held.version
    have hge := Int16.le_toInt held.version
    have hone : (1 : Int16).toInt = 1 := rfl
    show (held.version + 1).toInt = held.version.toInt + 1
    rw [Int16.toInt_add, hone, Int.bmod_eq_of_le (by omega) (by omega)]

/-- Every token is strictly older than the one that takes its place. -/
theorem version_lt_of_advance? {held t : Token} {value : Int32}
    (h : held.advance? value = some t) : held.version < t.version := by
  have hnext := toInt_version_of_advance? h
  rw [Int16.lt_iff_toInt_lt]
  omega

end Token

namespace Occurrence

/-- The token that is on its way with an event: that of a data message or an answer. -/
def token? : Occurrence → Option Token
  | deliver _ _ bytes =>
    match Message.decode bytes with
    | .ok m => m.token?
    | .error _ => none
  | _ => none

/-- The arrival of a message brings the token of that message. -/
@[simp] theorem token?_deliver_encode (i : Nat) (sender : Address) (m : Message) :
    (deliver i sender m.encode).token? = m.token? := by
  simp [token?]

end Occurrence

namespace Node

/-! ### The next token -/

/-- A datagram leaves the token as it is or brings a strictly newer one. -/
theorem token_handleDatagram (n : Node) (i : Nat) (sender : Address) (bytes : List UInt8)
    (now : Nat) :
    (n.handleDatagram sender bytes now).node.token = n.token ∨
      ∃ t ∈ (Occurrence.deliver i sender bytes).token?, n.token.version < t.version ∧
        (n.handleDatagram sender bytes now).node.token = t := by
  unfold handleDatagram
  cases hdec : Message.decode bytes with
  | ok m =>
    have hm : (Occurrence.deliver i sender bytes).token? = m.token? := by
      simp [Occurrence.token?, hdec]
    rw [hm]
    exact n.token_onInbound sender m now
  | error e => exact .inl rfl

@[simp] theorem token_onAnnounceTimer (n : Node) : n.onAnnounceTimer.node.token = n.token := by
  unfold onAnnounceTimer
  split <;> rfl

@[simp] theorem token_onBeaconTimer (n : Node) : n.onBeaconTimer.node.token = n.token := by
  unfold onBeaconTimer
  split <;> rfl

/-- Timers leave the token of a node with power as it is. -/
theorem token_handle_timer {n : Node} (kind : TimerKind) (now : Nat)
    (h : n.isDown = false) : (n.handle kind.event now).node.token = n.token := by
  cases kind with
  | announce => exact n.token_onAnnounceTimer
  | beacon => exact n.token_onBeaconTimer
  | restart =>
    show n.onRestartTimer.node.token = _
    rw [onRestartTimer_of_up h]

/-- Timers leave the token of a node as it is, or bring back the one that it started with. -/
theorem token_handle_timer_cases (n : Node) (kind : TimerKind) (now : Nat) :
    (n.handle kind.event now).node.token = n.token ∨
      (n.handle kind.event now).node.token = .initial := by
  cases hd : n.isDown with
  | false => exact .inl (token_handle_timer kind now hd)
  | true =>
    cases kind with
    | announce => exact .inl n.token_onAnnounceTimer
    | beacon => exact .inl n.token_onBeaconTimer
    | restart =>
      right
      show n.onRestartTimer.node.token = _
      rw [onRestartTimer_of_down hd]
      rfl

/-! ### From one restart to the next -/

/-- What can become of a node.  Unless it is restarted, it keeps its token or takes over a newer
    one, and it stays without power once it has lost it. -/
structure Later (n n' : Node) : Prop where
  restarts : n.counters.restarts ≤ n'.counters.restarts
  token : n'.counters.restarts = n.counters.restarts →
    n'.token = n.token ∨ n.token.version < n'.token.version
  down : n'.counters.restarts = n.counters.restarts → n.isDown = true → n'.isDown = true

namespace Later

variable {n n' n'' : Node}

theorem refl (n : Node) : n.Later n where
  restarts := Nat.le_refl _
  token _ := .inl rfl
  down _ h := h

theorem trans (h : n.Later n') (h' : n'.Later n'') : n.Later n'' := by
  have hle := h.restarts
  have hle' := h'.restarts
  refine ⟨Nat.le_trans hle hle', ?_, ?_⟩
  · intro heq
    -- no restart on the whole way is none on either part of it
    rcases h'.token (by omega) with ht' | ht'
    · rw [ht']
      exact h.token (by omega)
    · rcases h.token (by omega) with ht | ht
      · rw [← ht]
        exact .inr ht'
      · exact .inr (Int16.lt_trans ht ht')
  · intro heq hd
    exact h'.down (by omega) (h.down (by omega) hd)

/-- A node that has not been restarted does not fall back. -/
theorem version_le (h : n.Later n') (heq : n'.counters.restarts = n.counters.restarts) :
    n.token.version ≤ n'.token.version := by
  rcases h.token heq with ht | ht
  · rw [ht]
    exact Int16.le_refl _
  · exact Int16.le_of_lt ht

/-- A reaction that neither takes power nor gives it back, and brings no older token. -/
theorem of_steady {r : Reaction} (hs : r.Steady n)
    (ht : r.node.token = n.token ∨ n.token.version < r.node.token.version) : n.Later r.node where
  restarts := Nat.le_of_eq hs.restarts.symm
  token _ := ht
  down _ hd := by rwa [hs.isDown]

end Later

/-- A message brings no older token. -/
theorem later_inbound (n : Node) (sender : Address) (m : Message) (now : Nat) :
    n.Later (n.handle (.inbound sender m) now).node := by
  refine .of_steady (n.steady_handle (by simp) now) ?_
  refine (n.token_onInbound sender m now).imp_right fun ⟨t, _, hlt, ht⟩ => ?_
  show n.token.version < (n.onInbound sender m now).node.token.version
  rw [ht]
  exact hlt

/-- Only a restart makes a node fall back, and it is counted. -/
theorem later_restart (n : Node) (now : Nat) : n.Later (n.handle .restartTimer now).node := by
  have hsweep : (n.handle .restartTimer now).node = n.onRestartTimer.node.sweep now := rfl
  cases hd : n.isDown with
  | false =>
    refine ⟨?_, ?_, ?_⟩
    · rw [hsweep, onRestartTimer_of_up hd]
      exact Nat.le_refl _
    · intro _
      left
      rw [hsweep, onRestartTimer_of_up hd]
      rfl
    · intro _ hdown
      rw [hd] at hdown
      cases hdown
  | true =>
    have hcount : (n.handle .restartTimer now).node.counters.restarts =
        n.counters.restarts + 1 := by
      rw [hsweep, onRestartTimer_of_down hd]
      rfl
    refine ⟨by omega, ?_, ?_⟩
    · intro heq
      omega
    · intro heq
      omega

/-- Whatever is done with a node, it is the same node, later. -/
theorem later_perform (n : Node) (op : Operation) : n.Later (n.perform op).1.node := by
  cases op with
  | event e now =>
    cases e with
    | announceTimer =>
      exact .of_steady (n.steady_handle (by simp) now) (.inl n.token_onAnnounceTimer)
    | beaconTimer => exact .of_steady (n.steady_handle (by simp) now) (.inl n.token_onBeaconTimer)
    | restartTimer => exact n.later_restart now
    | inbound sender m => exact n.later_inbound sender m now
  | datagram sender bytes now =>
    refine .of_steady (n.steady_handleDatagram sender bytes now) ?_
    refine (n.token_handleDatagram 0 sender bytes now).imp_right fun ⟨t, _, hlt, ht⟩ => ?_
    show n.token.version < (n.handleDatagram sender bytes now).node.token.version
    rw [ht]
    exact hlt
  | originate value now =>
    obtain ⟨e, he⟩ | ⟨t, _, _, hadv, ht⟩ := n.originate_cases value now
    · simp only [perform, he]
      exact .of_steady (steady_of_originate he) (.inl rfl)
    · simp only [perform, ht]
      refine .of_steady (steady_of_originate ht) (.inr ?_)
      rw [token_launch]
      exact Token.version_lt_of_advance? hadv
  | setRole role => exact .of_steady (n.steady_setRole role) (.inl (n.token_setRole role))
  | powerDown delay now =>
    cases hp : n.powerDown delay now with
    | ok r =>
      simp only [perform, hp]
      obtain ⟨_, hnode, _, _⟩ := powerDown_eq_ok hp
      rw [hnode]
      exact ⟨Nat.le_refl _, fun _ => .inl rfl, fun _ _ => rfl⟩
    | error e =>
      simp only [perform, hp]
      exact .refl n

/-- A node with power is not restarted. -/
theorem restarts_perform {n : Node} (hup : n.isDown = false) (op : Operation) :
    (n.perform op).1.node.counters.restarts = n.counters.restarts := by
  cases op with
  | event e now =>
    by_cases he : e = .restartTimer
    · subst he
      show (n.onRestartTimer.node.sweep now).counters.restarts = _
      rw [onRestartTimer_of_up hup]
      rfl
    · exact (n.steady_handle he now).restarts
  | datagram sender bytes now => exact (n.steady_handleDatagram sender bytes now).restarts
  | originate value now =>
    rcases ho : n.originate value now with ⟨r, e | t⟩
    · simp only [perform, ho]
      exact (steady_of_originate ho).restarts
    · simp only [perform, ho]
      exact (steady_of_originate ho).restarts
  | setRole role => exact (n.steady_setRole role).restarts
  | powerDown delay now =>
    cases hp : n.powerDown delay now with
    | ok r =>
      simp only [perform, hp]
      rw [(powerDown_eq_ok hp).2.1]
    | error e => simp only [perform, hp]

/-- Whatever a node with power does, its token stays as it is or makes way for a newer one. -/
theorem token_perform {n : Node} (hup : n.isDown = false) (op : Operation) :
    (n.perform op).1.node.token = n.token ∨
      n.token.version < (n.perform op).1.node.token.version :=
  (n.later_perform op).token (restarts_perform hup op)

end Node

end TokenMesh
