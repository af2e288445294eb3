import TokenMesh.Proofs.Node.Reaction
import TokenMesh.Proofs.Random

namespace TokenMesh

/-!
# Requests to originate

A request to originate a token is granted or refused as a whole.  It sweeps the node in any case.
One that is granted makes the node take over its next token, too, and hand it to a neighbor, if
there is one left.

* `Node.answer_originate`: what is answered to a request;
* `Node.launch_of_alone`, `Node.launch_of_known`: what becomes of a token that is originated;
* `Node.originate_of_refused`, `Node.walk_of_granted`: what comes of a request.
-/

namespace Node

/-! ### Granted or refused -/

/-- A request is refused without power, then to a node that is not a source, then after the last
    version.  Otherwise it is answered with the next token. -/
theorem answer_originate (n : Node) (value : Option Int32) (now : Nat) :
    (n.originate value now).2 =
      if n.isDown = true then .error .poweredDown
      else if n.role ≠ .source then .error (.notSource n.role)
      else if n.token.version = 32767 then .error .versionExhausted
      else .ok ⟨value.getD (n.token.value + 1), n.token.version + 1⟩ := by
  have hsweep : (n.sweep now).isDown = n.isDown := rfl
  unfold originate
  dsimp only
  rw [hsweep]
  by_cases hd : n.isDown = true
  · rw [if_pos hd, if_pos hd]
  rw [if_neg hd, if_neg hd]
  by_cases hr : n.role = .source
  · have hsource : ¬ (n.sweep now).role ≠ .source := not_not_intro hr
    rw [if_neg hsource, if_neg (not_not_intro hr)]
    by_cases hv : n.token.version = 32767
    · have hnone : ∀ v, (n.sweep now).token.advance? v = none := fun v => if_pos hv
      rw [hnone, if_pos hv]
    · have hsome : ∀ v, (n.sweep now).token.advance? v = some ⟨v, n.token.version + 1⟩ :=
        fun v => if_neg hv
      rw [hsome, if_neg hv]
      -- the answer does not depend on whether there is somebody to hand the token to
      dsimp only
      split <;> rfl
  · have hother : (n.sweep now).role ≠ .source := hr
    rw [if_pos hother, if_pos hr]
    rfl

/-- So the answer tells the state of the node. -/
theorem answer_originate_iff (n : Node) (value : Option Int32) (now : Nat) :
    ((n.originate value now).2 = .error .poweredDown ↔ n.isDown = true) ∧
    (∀ role, (n.originate value now).2 = .error (.notSource role) ↔
      n.isDown = false ∧ n.role ≠ .source ∧ role = n.role) ∧
    ((n.originate value now).2 = .error .versionExhausted ↔
      n.isDown = false ∧ n.role = .source ∧ n.token.version = 32767) ∧
    ∀ t, (n.originate value now).2 = .ok t ↔
      n.isDown = false ∧ n.role = .source ∧ n.token.version ≠ 32767 ∧
        t = ⟨value.getD (n.token.value + 1), n.token.version + 1⟩ := by
  rw [answer_originate]
  -- the first reason to refuse counts
  by_cases hd : n.isDown = true
  · simp [hd]
  by_cases hr : n.role = .source
  · by_cases hv : n.token.version = 32767
    · simp [hd, hr, hv]
    · simp [hd, hr, hv, eq_comm]
  · simp [hd, hr, eq_comm]

/-! ### The first step of a walk -/

/-- A peer is chosen as long as somebody is known, and nothing is drawn where nobody is. -/
theorem choosePeer_cases (n : Node) :
    (n.neighbors.entries = [] ∧ n.choosePeer = (none, n)) ∨
      ∃ e ∈ n.neighbors.entries, ∃ g,
        n.choosePeer = (some e.address, { n with generator := g }) := by
  unfold choosePeer
  rcases n.neighbors.pick_cases n.generator with ⟨hnone, hpick⟩ | ⟨e, he, hpick⟩
  · rw [hpick]
    exact .inl ⟨hnone, rfl⟩
  · refine .inr ⟨e, he, (n.neighbors.pick n.generator).2, ?_⟩
    dsimp only
    rw [hpick]
    rfl

/-- Where nobody is known, a new token is kept, and nothing is drawn. -/
theorem launch_of_alone {n : Node} (h : n.neighbors.entries = []) (token : Token)
    (told : List Notice) :
    (n.launch token told).sends = [] ∧
      (n.launch token told).node = { n with
        token := token
        counters := { n.counters with
          forwardsWithoutNeighbor := n.counters.forwardsWithoutNeighbor + 1 } } := by
  rcases ({ n with token := token } : Node).choosePeer_cases with ⟨_, hpeer⟩ | ⟨e, he, _⟩
  · unfold launch
    rw [hpeer]
    exact ⟨rfl, rfl⟩
  · exact absurd h (List.ne_nil_of_mem he)

/-- Where somebody is known, a new token goes to one of them. -/
theorem launch_of_known {n : Node} (h : n.neighbors.entries ≠ []) (token : Token)
    (told : List Notice) :
    ∃ e ∈ n.neighbors.entries, ∃ g,
      (n.launch token told).sends = [.unicast e.address (.carry token 0)] ∧
      (n.launch token told).node = { n with
        token := token
        generator := g
        counters := { n.counters with dataOriginated := n.counters.dataOriginated + 1 } } := by
  rcases ({ n with token := token } : Node).choosePeer_cases with ⟨hnone, _⟩ | ⟨e, he, g, hpeer⟩
  · exact absurd hnone h
  · refine ⟨e, he, g, ?_⟩
    unfold launch
    rw [hpeer]
    exact ⟨rfl, rfl⟩

/-! ### What comes of a request -/

/-- A refused request only sweeps. -/
theorem originate_of_refused {n : Node} {value : Option Int32} {now : Nat} {e : Refusal}
    (h : (n.originate value now).2 = .error e) :
    (n.originate value now).1 = { node := n.sweep now, notices := n.sweepNotices now } := by
  obtain ⟨e', he⟩ | ⟨t, _, _, _, ht⟩ := n.originate_cases value now
  · rw [he]
  · rw [ht] at h
    cases h

/-- A request that is granted launches the token that it is answered with, after the sweep. -/
theorem originate_of_granted {n : Node} {value : Option Int32} {now : Nat} {t : Token}
    (h : (n.originate value now).2 = .ok t) :
    (n.originate value now).1 =
      (n.sweep now).launch t (n.sweepNotices now ++ [n.report (.originating t)]) := by
  obtain ⟨e, he⟩ | ⟨u, _, _, _, hu⟩ := n.originate_cases value now
  · rw [he] at h
    cases h
  · rw [hu] at h ⊢
    obtain rfl := Except.ok.inj h
    rfl

/-- What becomes of a token that is originated: it goes to a neighbor that the sweep has left, or
    to nobody if none is left. -/
theorem walk_of_granted {n : Node} {value : Option Int32} {now : Nat} {t : Token}
    (h : (n.originate value now).2 = .ok t) :
    ((n.sweep now).neighbors.entries ≠ [] → ∃ e ∈ (n.sweep now).neighbors.entries, ∃ g,
      (n.originate value now).1.sends = [.unicast e.address (.carry t 0)] ∧
      (n.originate value now).1.node = { n.sweep now with
        token := t
        generator := g
        counters := { (n.sweep now).counters with
          dataOriginated := n.counters.dataOriginated + 1 } }) ∧
    ((n.sweep now).neighbors.entries = [] →
      (n.originate value now).1.sends = [] ∧
      (n.originate value now).1.node = { n.sweep now with
        token := t
        counters := { (n.sweep now).counters with
          forwardsWithoutNeighbor := n.counters.forwardsWithoutNeighbor + 1 } }) := by
  rw [originate_of_granted h]
  exact ⟨fun hknown => launch_of_known hknown t _, fun halone => launch_of_alone halone t _⟩

end Node

end TokenMesh
