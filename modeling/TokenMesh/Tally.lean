namespace TokenMesh

/-!
# Tallies

Counts under names, in the order of the names.  Each name has one count at most, and names compare
by their code points.
-/

/-- Counts under names in ascending order. -/
structure Tally where
  entries : List (String × Nat)
  sorted : entries.Pairwise fun a b => a.1 < b.1
deriving DecidableEq, Repr

namespace Tally

/-- The entries with the count of a name changed by `f`, which is given the old count or zero. -/
def update (name : String) (f : Nat → Nat) : List (String × Nat) → List (String × Nat)
  | [] => [(name, f 0)]
  | (k, n) :: rest =>
    if name < k then (name, f 0) :: (k, n) :: rest
    else if k < name then (k, n) :: update name f rest
    else (k, f n) :: rest

theorem fst_mem_update {name : String} {f : Nat → Nat} {es : List (String × Nat)}
    {e : String × Nat} (h : e ∈ update name f es) : e.1 = name ∨ ∃ d ∈ es, d.1 = e.1 := by
  induction es with
  | nil => simp only [update, List.mem_singleton] at h; exact .inl (by rw [h])
  | cons d ds ih =>
    obtain ⟨k, n⟩ := d
    simp only [update] at h
    split at h
    · rcases List.mem_cons.1 h with h | h
      · exact .inl (by rw [h])
      · exact .inr ⟨e, h, rfl⟩
    · split at h
      · rcases List.mem_cons.1 h with h | h
        · exact .inr ⟨_, List.mem_cons_self, by rw [h]⟩
        · rcases ih h with h | ⟨d, hd, he⟩
          · exact .inl h
          · exact .inr ⟨d, List.mem_cons_of_mem _ hd, he⟩
      · rcases List.mem_cons.1 h with h | h
        · exact .inr ⟨_, List.mem_cons_self, by rw [h]⟩
        · exact .inr ⟨e, List.mem_cons_of_mem _ h, rfl⟩

/-- A change of one count keeps the names in order. -/
theorem pairwise_update (name : String) (f : Nat → Nat) {es : List (String × Nat)}
    (h : es.Pairwise fun a b => a.1 < b.1) :
    (update name f es).Pairwise fun a b => a.1 < b.1 := by
  induction es with
  | nil => simp [update]
  | cons d ds ih =>
    obtain ⟨k, n⟩ := d
    obtain ⟨hk, hds⟩ := List.pairwise_cons.1 h
    simp only [update]
    split
    -- a new name before all others, a name further on, or the name at hand
    · next hlt =>
      refine List.pairwise_cons.2 ⟨fun e he => ?_, h⟩
      rcases List.mem_cons.1 he with rfl | he
      · exact hlt
      · exact String.lt_trans hlt (hk e he)
    · split
      · next hlt =>
        refine List.pairwise_cons.2 ⟨fun e he => ?_, ih hds⟩
        rcases fst_mem_update he with he | ⟨d, hd, he⟩
        · rw [he]; exact hlt
        · rw [← he]; exact hk d hd
      · exact List.pairwise_cons.2 ⟨fun e he => hk e he, hds⟩

/-- No counts. -/
def empty : Tally := ⟨[], .nil⟩

/-- The tally with one more under a name. -/
def add (t : Tally) (name : String) : Tally :=
  ⟨update name (· + 1) t.entries, pairwise_update _ _ t.sorted⟩

/-- The tally with a given count under a name. -/
def put (t : Tally) (name : String) (n : Nat) : Tally :=
  ⟨update name (fun _ => n) t.entries, pairwise_update _ _ t.sorted⟩

/-- The count under a name; zero where there is none. -/
def count (t : Tally) (name : String) : Nat :=
  ((t.entries.find? fun e => e.1 == name).map (·.2)).getD 0

/-- All counts together. -/
def total (t : Tally) : Nat := t.entries.foldr (fun e n => e.2 + n) 0

end Tally

end TokenMesh
