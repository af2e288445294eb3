import TokenMesh.Proofs.Topology.Graph
import TokenMesh.Topology.Connectivity

namespace TokenMesh

/-!
# The search for what is connected

The search from one node that is up reaches exactly the nodes that are joined to it through nodes
that are up, so that its answer is right whatever the topology.

* `Topology.Joined`: two nodes are joined by a path of links whose nodes have a property;
* `Topology.Connects`: any two nodes with the property are joined so;
* `Topology.joined_of_unreached`, `Topology.not_mem_of_joined`: what a search reaches is joined to
  where it began, and nothing that is joined to it is left;
* `Topology.connects_iff`: an answer of the search is right;
* `Topology.exists_isConnectedWithout?`: in a closed topology there is always an answer.
-/

namespace Topology

variable {t t' : Topology} {up up' : Nat → Prop} {a b c : Nat}

/-- In a closed topology only nodes are linked. -/
theorem lt_of_isLinked (hc : t.Closed) (h : t.isLinked a b = true) : b < t.nodeCount := by
  obtain ⟨l, hl, hjoins⟩ := isLinked_iff.1 h
  have hhigh := hc l hl
  have hlow := l.low_lt_high
  simp only [Link.joins, Bool.or_eq_true, Bool.and_eq_true, beq_iff_eq] at hjoins
  omega

/-! ### Paths -/

/-- Two nodes are joined by a path of links, all of whose nodes have a property. -/
inductive Joined (t : Topology) (up : Nat → Prop) (a : Nat) : Nat → Prop
  | refl (h : up a) : Joined t up a a
  | step {b c : Nat} (h : Joined t up a b) (hl : t.isLinked b c = true) (hc : up c) :
      Joined t up a c

/-- Any two nodes with a property are joined through nodes that have it too. -/
def Connects (t : Topology) (up : Nat → Prop) : Prop := ∀ a b, up a → up b → t.Joined up a b

namespace Joined

theorem left (h : t.Joined up a b) : up a := by
  induction h with
  | refl h => exact h
  | step _ _ _ ih => exact ih

theorem right (h : t.Joined up a b) : up b := by
  cases h with
  | refl h => exact h
  | step _ _ hc => exact hc

theorem trans (h : t.Joined up a b) (h' : t.Joined up b c) : t.Joined up a c := by
  induction h' with
  | refl _ => exact h
  | step _ hl hc ih => exact ih.step hl hc

theorem single (ha : up a) (hb : up b) (hl : t.isLinked a b = true) : t.Joined up a b :=
  (refl ha).step hl hb

theorem symm (h : t.Joined up a b) : t.Joined up b a := by
  induction h with
  | refl h => exact .refl h
  | @step b c h hl hc ih =>
    rw [isLinked_comm] at hl
    exact (single hc h.right hl).trans ih

/-- More links and more nodes that may be passed leave what is joined as it is. -/
theorem mono (hl : ∀ i j, t.isLinked i j = true → t'.isLinked i j = true)
    (hup : ∀ i, up i → up' i) (h : t.Joined up a b) : t'.Joined up' a b := by
  induction h with
  | refl h => exact .refl (hup _ h)
  | step _ hbc hc ih => exact ih.step (hl _ _ hbc) (hup _ hc)

end Joined

theorem connects_congr (hl : ∀ i j, t'.isLinked i j = t.isLinked i j)
    (hup : ∀ i, up' i ↔ up i) : t'.Connects up' ↔ t.Connects up := by
  have h : up' = up := funext fun i => propext (hup i)
  subst h
  constructor
  · intro hc a b ha hb
    exact (hc a b ha hb).mono (fun i j => by rw [hl]; exact id) fun _ => id
  · intro hc a b ha hb
    exact (hc a b ha hb).mono (fun i j => by rw [hl]; exact id) fun _ => id

/-- Nodes that are all joined to one of them are joined to each other. -/
theorem connects_of_joined (h : ∀ b, up b → t.Joined up a b) : t.Connects up :=
  fun b c hb hc => (h b hb).symm.trans (h c hc)

/-! ### The search -/

theorem mem_among {near nodes : List Nat} : b ∈ among near nodes ↔ b ∈ nodes ∧ b ∈ near := by
  simp [among]

theorem mem_apart {near nodes : List Nat} : b ∈ apart near nodes ↔ b ∈ nodes ∧ b ∉ near := by
  simp [apart]

/-- A node that the search reaches is joined to one that it began with. -/
theorem joined_of_unreached {unseen todo left : List Nat}
    (h : t.unreached unseen todo = some left) (hunseen : ∀ x ∈ unseen, up x)
    (htodo : ∀ x ∈ todo, up x) (hb : b ∈ unseen) (hleft : b ∉ left) :
    ∃ a ∈ todo, t.Joined up a b := by
  -- the induction follows the search: a node is next to the one at hand or is found later
  induction unseen, todo using unreached.induct t with
  | case1 unseen =>
    rw [unreached] at h
    obtain rfl := Option.some.inj h
    exact absurd hb hleft
  | case2 unseen a todo near hout =>
    rw [unreached, if_pos hout] at h
    cases h
  | case3 unseen a todo near hin ih =>
    rw [unreached, if_neg hin] at h
    have ha : up a := htodo a List.mem_cons_self
    have hnear : ∀ x ∈ unseen, x ∈ near → t.Joined up a x := fun x hx hxn =>
      .single ha (hunseen x hx) (mem_neighbors_iff.1 hxn)
    by_cases hbn : b ∈ near
    · exact ⟨a, List.mem_cons_self, hnear b hb hbn⟩
    · have htodo' : ∀ x ∈ among near unseen ++ todo, up x := by
        intro x hx
        rcases List.mem_append.1 hx with hx | hx
        · exact hunseen x (mem_among.1 hx).1
        · exact htodo x (List.mem_cons_of_mem _ hx)
      obtain ⟨x, hx, hxb⟩ := ih h (fun x hx => hunseen x (mem_apart.1 hx).1) htodo'
        (mem_apart.2 ⟨hb, hbn⟩)
      rcases List.mem_append.1 hx with hx | hx
      · obtain ⟨hxu, hxn⟩ := mem_among.1 hx
        exact ⟨a, List.mem_cons_self, (hnear x hxu hxn).trans hxb⟩
      · exact ⟨x, List.mem_cons_of_mem _ hx, hxb⟩

theorem subset_of_unreached {unseen todo left : List Nat}
    (h : t.unreached unseen todo = some left) : left ⊆ unseen := by
  induction unseen, todo using unreached.induct t with
  | case1 unseen =>
    rw [unreached] at h
    obtain rfl := Option.some.inj h
    exact List.Subset.refl _
  | case2 unseen a todo near hout =>
    rw [unreached, if_pos hout] at h
    cases h
  | case3 unseen a todo near hin ih =>
    rw [unreached, if_neg hin] at h
    exact fun x hx => (mem_apart.1 (ih h hx)).1

/-- No link leads from what the search began with or has reached to what it leaves. -/
theorem not_isLinked_of_unreached {unseen todo left : List Nat}
    (h : t.unreached unseen todo = some left) (ha : a ∈ todo ∨ a ∈ unseen ∧ a ∉ left)
    (hb : b ∈ left) : ¬ t.isLinked a b = true := by
  induction unseen, todo using unreached.induct t with
  | case1 unseen =>
    rw [unreached] at h
    obtain rfl := Option.some.inj h
    rcases ha with ha | ⟨ha, hna⟩
    · cases ha
    · exact absurd ha hna
  | case2 unseen x todo near hout =>
    rw [unreached, if_pos hout] at h
    cases h
  | case3 unseen x todo near hin ih =>
    rw [unreached, if_neg hin] at h
    rcases ha with ha | ⟨ha, hna⟩
    · rcases List.mem_cons.1 ha with rfl | ha
      · -- the neighbors of the node at hand have all been taken out
        have hbn : b ∉ near := (mem_apart.1 (subset_of_unreached h hb)).2
        exact fun hl => hbn (mem_neighbors_iff.2 hl)
      · exact ih h (.inl (List.mem_append_right _ ha))
    · by_cases han : a ∈ near
      · exact ih h (.inl (List.mem_append_left _ (mem_among.2 ⟨ha, han⟩)))
      · exact ih h (.inr ⟨mem_apart.2 ⟨ha, han⟩, hna⟩)

/-- What is joined to the node that the search began with is never left. -/
theorem not_mem_of_joined {others left : List Nat} (h : t.unreached others [a] = some left)
    (ha : a ∉ others) (hup : ∀ x, up x → x = a ∨ x ∈ others) (hj : t.Joined up a b) :
    b ∉ left := by
  induction hj with
  | refl _ => exact fun hmem => ha (subset_of_unreached h hmem)
  | @step b c hab hl hc ih =>
    have hdone : b ∈ [a] ∨ b ∈ others ∧ b ∉ left := by
      rcases hup b hab.right with rfl | hb
      · exact .inl List.mem_cons_self
      · exact .inr ⟨hb, ih⟩
    exact fun hmem => not_isLinked_of_unreached h hdone hmem hl

/-- The search has an answer as long as no link leads out of the nodes. -/
theorem exists_unreached (hc : t.Closed) (unseen todo : List Nat) :
    ∃ left, t.unreached unseen todo = some left := by
  induction unseen, todo using unreached.induct t with
  | case1 unseen => exact ⟨unseen, by rw [unreached]⟩
  | case2 unseen a todo near hout =>
    obtain ⟨b, hb, hge⟩ := List.any_eq_true.1 hout
    have hlt := lt_of_isLinked hc (mem_neighbors_iff.1 hb)
    exact absurd hlt (by simpa using hge)
  | case3 unseen a todo near hin ih =>
    rw [unreached, if_neg hin]
    exact ih

/-! ### Its answer -/

/-- A node that is there and is not marked as down. -/
def IsUp (t : Topology) (down : List Bool) (i : Nat) : Prop :=
  i < t.nodeCount ∧ isMarked down i = false

theorem mem_live {down : List Bool} : a ∈ t.live down ↔ t.IsUp down a := by
  simp [live, IsUp]

/-- An answer says whether the nodes that are up are connected. -/
theorem connects_iff {down : List Bool} {answer : Bool}
    (h : t.isConnectedWithout? down = some answer) : answer = true ↔ t.Connects (t.IsUp down) := by
  have hup : ∀ x, x ∈ t.live down ↔ t.IsUp down x := fun _ => mem_live
  have hnodup : (t.live down).Nodup := List.nodup_range.filter _
  unfold isConnectedWithout? at h
  cases hlive : t.live down with
  | nil =>
    rw [hlive] at h hup
    obtain rfl := Option.some.inj h
    simp only [true_iff]
    intro a b ha
    exact absurd ((hup a).2 ha) List.not_mem_nil
  | cons a others =>
    rw [hlive] at h hup hnodup
    obtain ⟨left, hleft, rfl⟩ := Option.map_eq_some_iff.1 h
    have ha : t.IsUp down a := (hup a).1 List.mem_cons_self
    have hothers : ∀ x ∈ others, t.IsUp down x :=
      fun x hx => (hup x).1 (List.mem_cons_of_mem _ hx)
    rw [List.isEmpty_iff]
    constructor
    · rintro rfl
      apply connects_of_joined (a := a)
      intro b hb
      rcases List.mem_cons.1 ((hup b).2 hb) with rfl | hb
      · exact .refl ha
      · obtain ⟨x, hx, hxb⟩ := joined_of_unreached hleft hothers (by simpa using ha) hb
          List.not_mem_nil
        rwa [List.mem_singleton.1 hx] at hxb
    · intro hconn
      apply List.eq_nil_iff_forall_not_mem.2
      intro b hb
      have hbup := hothers b (subset_of_unreached hleft hb)
      exact not_mem_of_joined hleft (List.nodup_cons.1 hnodup).1
        (fun x hx => List.mem_cons.1 ((hup x).2 hx)) (hconn a b ha hbup) hb

/-- In a closed topology the question always has an answer. -/
theorem exists_isConnectedWithout? (hc : t.Closed) (down : List Bool) :
    ∃ answer, t.isConnectedWithout? down = some answer := by
  unfold isConnectedWithout?
  split
  · exact ⟨true, rfl⟩
  · next a others _ =>
    obtain ⟨left, hleft⟩ := exists_unreached hc others [a]
    exact ⟨left.isEmpty, by rw [hleft]; rfl⟩

end Topology

end TokenMesh
