import Mathlib.Order.Bounds.Basic
import TokenMesh.Network

namespace TokenMesh

/-!
# Addresses of nodes

The address of a node ends in its index, of which sixteen bits are kept.  So 2¹⁶ nodes have an
address of their own, and of nodes with one address the last one is found at it.

* `Network.addressOf_eq_addressOf_iff`: which nodes share an address;
* `Network.indexAt?_eq_some_iff`: the node at an address is the last one that has it;
* `Network.indexAt?_eq_foldl`: what is found is what a book holds into which all nodes are entered;
* `Network.indexAt?_addressOf_iff`, `Network.forall_addressOf_injective_iff`: when a node is found
  at its address, and when no two nodes share one.
-/

namespace Network

variable {a b : Address} {host count i j : Nat}

/-! ### Numbers -/

/-- The number that the address of a node ends in. -/
theorem hostNumber?_addressOf (i : Nat) :
    hostNumber? (addressOf i) = some ((i + 1) % 65536) := by
  have hhigh : ((i + 1) / 256).toUInt8.toNat = (i + 1) / 256 % 256 := rfl
  have hlow : (i + 1).toUInt8.toNat = (i + 1) % 256 := rfl
  show some (((i + 1) / 256).toUInt8.toNat * 256 + (i + 1).toUInt8.toNat) = _
  rw [hhigh, hlow]
  congr 1
  omega

/-- What an address of a node consists of. -/
theorem exists_of_hostNumber? (h : hostNumber? a = some host) :
    ∃ c d : UInt8, a = .v4 ⟨10, 0, c, d⟩ port ∧ host = c.toNat * 256 + d.toNat := by
  unfold hostNumber? at h
  split at h
  · next c d p =>
    split at h
    · next hp => exact ⟨c, d, by rw [hp], (Option.some.inj h).symm⟩
    · cases h
  · cases h

/-- The number that an address ends in has sixteen bits. -/
theorem lt_of_hostNumber? (h : hostNumber? a = some host) : host < 65536 := by
  obtain ⟨c, d, _, rfl⟩ := exists_of_hostNumber? h
  have hc := c.toNat_lt
  have hd := d.toNat_lt
  omega

/-- Addresses that end in the same number are the same. -/
theorem eq_of_hostNumber? (ha : hostNumber? a = some host) (hb : hostNumber? b = some host) :
    a = b := by
  obtain ⟨c, d, rfl, rfl⟩ := exists_of_hostNumber? ha
  obtain ⟨c', d', rfl, heq⟩ := exists_of_hostNumber? hb
  have hd := d.toNat_lt
  have hd' := d'.toNat_lt
  obtain rfl : c = c' := UInt8.toNat_inj.1 (by omega)
  obtain rfl : d = d' := UInt8.toNat_inj.1 (by omega)
  rfl

theorem addressOf_eq_iff : addressOf i = a ↔ hostNumber? a = some ((i + 1) % 65536) := by
  constructor
  · rintro rfl
    exact hostNumber?_addressOf i
  · exact eq_of_hostNumber? (hostNumber?_addressOf i)

/-- Addresses repeat every 2¹⁶ nodes. -/
theorem addressOf_eq_addressOf_iff : addressOf i = addressOf j ↔ i % 65536 = j % 65536 := by
  rw [addressOf_eq_iff, hostNumber?_addressOf, Option.some.injEq]
  omega

/-! ### Look-ups -/

/-- The node at an address is the last one that has it. -/
theorem indexAt?_eq_some_iff :
    indexAt? count a = some i ↔ IsGreatest {k | k < count ∧ addressOf k = a} i := by
  simp only [IsGreatest, upperBounds, Set.mem_ofPred_eq, addressOf_eq_iff]
  unfold indexAt?
  cases hhost : hostNumber? a with
  | none => simp
  | some host =>
    have hlt := lt_of_hostNumber? hhost
    simp only [Option.some.injEq]
    constructor
    · intro h
      split at h
      · obtain rfl := Option.some.inj h
        refine ⟨⟨by omega, by omega⟩, ?_⟩
        rintro k ⟨hk, hsame⟩
        omega
      · cases h
    · rintro ⟨⟨hi, hsame⟩, hlast⟩
      have hnext : count ≤ i + 65536 := by
        by_contra hlt'
        have hle := hlast (a := i + 65536) ⟨by omega, by omega⟩
        omega
      rw [if_pos (by omega)]
      congr 1
      omega

/-- One more node takes the place of those that have its address. -/
theorem indexAt?_succ (count : Nat) (a : Address) :
    indexAt? (count + 1) a = if addressOf count = a then some count else indexAt? count a := by
  ext i
  rw [indexAt?_eq_some_iff]
  split
  · next hlast =>
    rw [Option.some.injEq]
    constructor
    · rintro ⟨⟨hi, -⟩, hgreatest⟩
      have hle := hgreatest ⟨Nat.lt_succ_self count, hlast⟩
      omega
    · rintro rfl
      exact ⟨⟨Nat.lt_succ_self _, hlast⟩, fun k hk => Nat.le_of_lt_succ hk.1⟩
  · next hother =>
    have hsame : {k | k < count + 1 ∧ addressOf k = a} = {k | k < count ∧ addressOf k = a} := by
      ext k
      refine and_congr_left fun hk => ?_
      have hne : k ≠ count := fun h => hother (h ▸ hk)
      omega
    rw [hsame, indexAt?_eq_some_iff]

/-- Look-ups are those in a book into which the nodes are entered one after the other, each of them
    in the place of those before it that have its address. -/
theorem indexAt?_eq_foldl (count : Nat) :
    indexAt? count = (List.range count).foldl
      (fun book i => Function.update book (addressOf i) (some i)) fun _ => none := by
  induction count with
  | zero =>
    ext a i
    simp [indexAt?_eq_some_iff, IsGreatest]
  | succ count ih =>
    rw [List.range_succ, List.foldl_append, ← ih]
    ext1 a
    rw [indexAt?_succ, List.foldl_cons, List.foldl_nil, Function.update_apply]
    exact if_congr eq_comm rfl rfl

/-- A node is found at its address unless a later one has it, too. -/
theorem indexAt?_addressOf_iff (h : i < count) :
    indexAt? count (addressOf i) = some i ↔ count ≤ i + 65536 := by
  rw [indexAt?_eq_some_iff]
  constructor
  · rintro ⟨_, hlast⟩
    by_contra hlt
    have hle := hlast ⟨by omega, addressOf_eq_addressOf_iff.2 (Nat.add_mod_right i 65536)⟩
    omega
  · intro hnext
    refine ⟨⟨h, rfl⟩, ?_⟩
    rintro k ⟨hk, hsame⟩
    rw [addressOf_eq_addressOf_iff] at hsame
    omega

/-- Among at most 2¹⁶ nodes every one is reached at its address. -/
theorem indexAt?_addressOf (h : i < count) (hc : count ≤ 65536) :
    indexAt? count (addressOf i) = some i :=
  (indexAt?_addressOf_iff h).2 (Nat.le_add_left_of_le hc)

/-- Among at most 2¹⁶ nodes no two have the same address. -/
theorem addressOf_ne (hi : i < count) (hj : j < count) (hc : count ≤ 65536) (hne : i ≠ j) :
    addressOf i ≠ addressOf j := by
  rw [ne_eq, addressOf_eq_addressOf_iff]
  omega

/-- No two nodes have the same address just if there are at most 2¹⁶ nodes. -/
theorem forall_addressOf_injective_iff :
    (∀ i < count, ∀ j < count, addressOf i = addressOf j → i = j) ↔ count ≤ 65536 := by
  constructor
  · intro h
    by_contra hlt
    have heq := h 0 (by omega) 65536 (by omega) (addressOf_eq_addressOf_iff.2 rfl)
    cases heq
  · intro hc i hi j hj
    exact not_imp_not.1 (addressOf_ne hi hj hc)

end Network

end TokenMesh
