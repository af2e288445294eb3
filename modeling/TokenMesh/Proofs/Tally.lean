import TokenMesh.Tally

namespace TokenMesh

/-!
# Counting

What one more under a name does to the counts of a tally and to their total.
-/

namespace Tally

/-- The count of a name among the entries of a tally. -/
def countIn (name : String) (es : List (String × Nat)) : Nat :=
  ((es.find? fun e => e.1 == name).map (·.2)).getD 0

theorem countIn_cons (name k : String) (n : Nat) (es : List (String × Nat)) :
    countIn name ((k, n) :: es) = if k = name then n else countIn name es := by
  unfold countIn
  by_cases h : k = name <;> simp [h]

/-- A name that comes before all others has no count. -/
theorem countIn_eq_zero_of_lt {name : String} {es : List (String × Nat)}
    (h : ∀ e ∈ es, name < e.1) : countIn name es = 0 := by
  have hnone : (es.find? fun e => e.1 == name) = none := by
    refine List.find?_eq_none.2 ?_
    intro e he heq
    have := h e he
    rw [beq_iff_eq.1 heq] at this
    exact String.lt_irrefl _ this
  rw [countIn, hnone]
  rfl

/-- Names that do not come before each other are equal. -/
theorem name_eq_of_not_lt {a b : String} (h : ¬ a < b) (h' : ¬ b < a) : a = b :=
  String.le_antisymm (String.not_lt.1 h') (String.not_lt.1 h)

/-- In order, a name that comes before the first entry comes before all of them. -/
theorem lt_of_lt_head {name : String} {e : String × Nat} {es : List (String × Nat)}
    (hs : (e :: es).Pairwise fun a b => a.1 < b.1) (h : name < e.1) :
    ∀ d ∈ e :: es, name < d.1 := by
  intro d hd
  rcases List.mem_cons.1 hd with rfl | hd
  · exact h
  · exact String.lt_trans h ((List.pairwise_cons.1 hs).1 d hd)

/-- A change of one count leaves all others alone. -/
theorem countIn_update (name k : String) (f : Nat → Nat) {es : List (String × Nat)}
    (hs : es.Pairwise fun a b => a.1 < b.1) :
    countIn k (update name f es) = if name = k then f (countIn name es) else countIn k es := by
  induction es with
  | nil => simp only [update, countIn_cons]; rfl
  | cons e es ih =>
    obtain ⟨j, n⟩ := e
    have ih := ih (List.pairwise_cons.1 hs).2
    simp only [update]
    split
    · next hlt =>
      rw [countIn_eq_zero_of_lt (lt_of_lt_head hs hlt), countIn_cons]
    · next hnlt =>
      split
      · next hlt =>
        -- the entry at hand is not the one that changes
        have hne : j ≠ name := fun h => String.lt_irrefl _ (h ▸ hlt)
        rw [countIn_cons, countIn_cons, countIn_cons, ih, if_neg hne]
        by_cases hj : j = k
        · rw [if_pos hj, if_pos hj, if_neg fun h => hne (hj.trans h.symm)]
        · rw [if_neg hj, if_neg hj]
      · next hnlt' =>
        obtain rfl := name_eq_of_not_lt hnlt hnlt'
        rw [countIn_cons, countIn_cons, countIn_cons, if_pos rfl]
        split <;> rfl

/-- A change of one count changes the total by as much. -/
theorem total_update (name : String) (f : Nat → Nat) {es : List (String × Nat)}
    (hs : es.Pairwise fun a b => a.1 < b.1) :
    (update name f es).foldr (fun e n => e.2 + n) 0 + countIn name es =
      es.foldr (fun e n => e.2 + n) 0 + f (countIn name es) := by
  induction es with
  | nil => simp [update, countIn]
  | cons e es ih =>
    obtain ⟨j, n⟩ := e
    have ih := ih (List.pairwise_cons.1 hs).2
    simp only [update]
    split
    · next hlt =>
      rw [countIn_eq_zero_of_lt (lt_of_lt_head hs hlt)]
      simp only [List.foldr_cons]
      omega
    · next hnlt =>
      split
      · next hlt =>
        have hne : j ≠ name := fun h => String.lt_irrefl _ (h ▸ hlt)
        rw [countIn_cons, if_neg hne]
        simp only [List.foldr_cons]
        omega
      · next hnlt' =>
        obtain rfl := name_eq_of_not_lt hnlt hnlt'
        rw [countIn_cons, if_pos rfl]
        simp only [List.foldr_cons]
        omega

/-- One more under a name counts for that name alone. -/
theorem count_add (t : Tally) (name k : String) :
    (t.add name).count k = t.count k + if name = k then 1 else 0 := by
  show countIn k (update name (· + 1) t.entries) = countIn k t.entries + _
  rw [countIn_update _ _ _ t.sorted]
  split
  · next h => rw [h]
  · rfl

/-- One more under a name is one more in total. -/
theorem total_add (t : Tally) (name : String) : (t.add name).total = t.total + 1 := by
  have h := total_update name (· + 1) t.sorted
  show (update name (· + 1) t.entries).foldr (fun e n => e.2 + n) 0 =
    t.entries.foldr (fun e n => e.2 + n) 0 + 1
  omega

end Tally

end TokenMesh
