import TokenMesh.Address.Printer
import TokenMesh.Address.Reader
import TokenMesh.Proofs.Text.Numeral

namespace TokenMesh

/-!
# The round trip of an address

The text of an address reads as that address: of either family, with or without a scope, whether an
IPv6 address is written in full, with `::` for a run of zeros, or as a mapped IPv4 address.

* `Ipv4.read_print`: four octets come back;
* `Ipv6.readGroups_text`: groups come back, and nothing after them is taken for another one;
* `Ipv6.eq_around_zeros`: what `::` stands for are zeros;
* `Ipv6.read_print`: all three forms of an IPv6 address come back;
* `Address.read?_print`: so do addresses.
-/

open Text

@[simp] theorem afterChar?_cons (c : Char) (cs : List Char) : afterChar? c (c :: cs) = some cs :=
  if_pos rfl

theorem afterChar?_of_head?_ne {c : Char} {cs : List Char} (h : cs.head? ≠ some c) :
    afterChar? c cs = none := by
  cases cs with
  | nil => rfl
  | cons d cs => exact if_neg fun heq => h (by rw [heq]; rfl)

variable {rest : List Char}

/-- No numeral begins where no digit stands. -/
theorem numeral?_of_ends {form : NumeralForm} (h : Ends form.base rest) :
    numeral? form rest = none := by
  unfold numeral?
  rw [digits_of_ends h]
  rfl

/-- What is left after a numeral is what is left after its digits. -/
theorem snd_of_numeral? {form : NumeralForm} {cs : List Char} {n : Nat}
    (h : numeral? form cs = some (n, rest)) : (digits form.base cs).2 = rest := by
  unfold numeral? at h
  simp only [Option.ite_none_left_eq_some, Option.some.injEq, Prod.mk.injEq] at h
  exact h.2.2.2

namespace Ipv4

theorem numeral?_octet (a : UInt8) (h : Ends 10 rest) :
    numeral? octet (decimal a.toNat ++ rest) = some (a.toNat, rest) := by
  refine numeral?_toDigits octet (by decide) (by decide) a.toNat_lt ?_ h
  rintro w ⟨⟩
  have := a.toNat_lt
  exact ⟨by decide, by show a.toNat < 10 ^ 3; omega⟩

/-- Four octets are read back. -/
theorem read_print (ip : Ipv4) (h : Ends 10 rest) : read (ip.print ++ rest) = some (ip, rest) := by
  have hdot : ∀ cs, Ends 10 ('.' :: cs) := fun cs => ends_cons (by decide)
  unfold read print
  simp only [List.append_assoc, List.cons_append, numeral?_octet _ (hdot _), numeral?_octet _ h,
    afterChar?_cons, Option.bind_eq_bind, Option.bind_some, Nat.toUInt8_eq, UInt8.ofNat_toNat]
  rfl

/-- Where the digits are not followed by a dot no IPv4 address begins. -/
theorem read_eq_none {cs : List Char} (h : (digits 10 cs).2.head? ≠ some '.') : read cs = none := by
  unfold read
  cases hn : numeral? octet cs with
  | none => rfl
  | some x =>
    obtain ⟨n, r⟩ := x
    have hr : (digits 10 cs).2 = r := snd_of_numeral? hn
    rw [hr] at h
    simp only [Option.bind_eq_bind, Option.bind_some, afterChar?_of_head?_ne h, Option.bind_none]

end Ipv4

namespace Ipv6

/-! ### Groups -/

theorem ends_ten_of_ends (h : Ends 16 rest) : Ends 10 rest := by
  intro c cs heq
  have hc := h c cs heq
  unfold digit? at hc ⊢
  grind

/-- A text behind some groups in which they do not go on. -/
structure Closes (rest : List Char) : Prop where
  ends : Ends 16 rest
  undotted : rest.head? ≠ some '.'
  /-- Nor do they behind a colon. -/
  colon : ∀ cs, rest = ':' :: cs → Ends 16 cs

theorem numeral?_group (g : UInt16) (h : Ends 16 rest) :
    numeral? group (hexadecimal g.toNat ++ rest) = some (g.toNat, rest) := by
  refine numeral?_toDigits group (by decide) (by decide) g.toNat_lt ?_ h
  rintro w ⟨⟩
  have := g.toNat_lt
  exact ⟨by decide, by show g.toNat < 16 ^ 4; omega⟩

/-- A group is never taken for the beginning of an IPv4 address. -/
theorem read_group_eq_none (g : UInt16) (h : Ends 16 rest) (hdot : rest.head? ≠ some '.') :
    Ipv4.read (hexadecimal g.toNat ++ rest) = none := by
  apply Ipv4.read_eq_none
  obtain ⟨ds, hds, heq⟩ := exists_spells (show 1 < 16 by decide) g.toNat
  rw [hexadecimal, heq]
  -- behind its decimal digits there is a letter or the end of the group
  have hlt := hds.lt
  clear hds heq
  induction ds with
  | nil => rwa [List.map_nil, List.nil_append, digits_of_ends (ends_ten_of_ends h)]
  | cons d ds ih =>
    rw [List.map_cons, List.cons_append, digits]
    split
    · exact ih fun x hx => hlt x (List.mem_cons_of_mem _ hx)
    · have hne : ∀ d < 16, Nat.digitChar d ≠ '.' := by decide
      simp [hne d (hlt d List.mem_cons_self)]

/-- Groups as they are written at the start of a part, or behind other groups. -/
def groupsText (first : Bool) (gs : List UInt16) : List Char :=
  if first then printGroups gs else gs.flatMap fun g => ':' :: hexadecimal g.toNat

theorem printGroups_cons (g : UInt16) (gs : List UInt16) :
    printGroups (g :: gs) = hexadecimal g.toNat ++ groupsText false gs := by
  induction gs generalizing g with
  | nil => simp [printGroups, groupsText]
  | cons g' gs ih =>
    have h := ih g'
    simp only [printGroups, List.map_cons, List.intercalate_cons_cons] at h ⊢
    rw [h]
    simp [groupsText]

/-- Groups are separated by colons. -/
theorem groupsText_cons (first : Bool) (g : UInt16) (gs : List UInt16) :
    ∃ separator : List Char, (∀ cs, separated? first (separator ++ cs) = some cs) ∧
      groupsText first (g :: gs) = separator ++ (hexadecimal g.toNat ++ groupsText false gs) := by
  cases first with
  | true => exact ⟨[], fun _ => rfl, printGroups_cons g gs⟩
  | false => exact ⟨[':'], fun _ => rfl, rfl⟩

/-- No groups are read where they do not go on. -/
theorem readGroups_of_closes (room : Nat) (first : Bool) (h : Closes rest) :
    readGroups room first rest = ([], false, rest) := by
  have hnone : ∀ cs, Ends 16 cs → Ipv4.read cs = none ∧ numeral? group cs = none := by
    intro cs hcs
    refine ⟨?_, numeral?_of_ends hcs⟩
    unfold Ipv4.read
    rw [numeral?_of_ends (ends_ten_of_ends hcs)]
    rfl
  -- no part begins at the text itself, nor behind a colon that it begins with
  have hseparated : (separated? first rest).bind Ipv4.read = none ∧
      (separated? first rest).bind (numeral? group) = none := by
    cases first with
    | true => exact hnone rest h.ends
    | false =>
      cases rest with
      | nil => exact ⟨rfl, rfl⟩
      | cons c cs =>
        by_cases hc : c = ':'
        · rw [hc]
          exact hnone cs (h.colon cs (by rw [hc]))
        · have hsep : separated? false (c :: cs) = none := if_neg hc
          rw [hsep]
          exact ⟨rfl, rfl⟩
  cases room with
  | zero => rfl
  | succ room =>
    rw [readGroups, hseparated.1, hseparated.2]
    simp

/-- Groups are read back, as far as there is room for them. -/
theorem readGroups_text {gs : List UInt16} {room : Nat} (hroom : gs.length ≤ room)
    (first : Bool) (h : Closes rest) :
    readGroups room first (groupsText first gs ++ rest) = (gs, false, rest) := by
  induction gs generalizing room first with
  | nil =>
    have hnil : groupsText first [] = [] := by cases first <;> rfl
    rw [hnil]
    exact readGroups_of_closes room first h
  | cons g gs ih =>
    obtain ⟨room, rfl⟩ : ∃ r, room = r + 1 := ⟨room - 1, by rw [List.length_cons] at hroom; omega⟩
    obtain ⟨separator, hsep, htext⟩ := groupsText_cons first g gs
    -- what follows the group is the colon before the next one, or the rest
    have hnext : Ends 16 (groupsText false gs ++ rest) ∧
        (groupsText false gs ++ rest).head? ≠ some '.' := by
      cases gs with
      | nil => exact ⟨h.ends, h.undotted⟩
      | cons g' gs => exact ⟨ends_cons (by decide), by simp [groupsText]⟩
    have hgroup := numeral?_group g hnext.1
    have hdotted := read_group_eq_none g hnext.1 hnext.2
    rw [htext, List.append_assoc, List.append_assoc, readGroups, hsep]
    simp only [Option.bind_some, hdotted, hgroup, ite_self]
    rw [ih (Nat.le_of_succ_le_succ hroom) false, Nat.toUInt16_eq, UInt16.ofNat_toNat]

/-! ### Runs of zeros -/

/-- The longest run is a run. -/
theorem longestRun_le (gs : List UInt16) :
    (longestRun gs).2 ≤ leadingZeros (gs.drop (longestRun gs).1) := by
  unfold longestRun
  refine List.foldlRecOn _ _
    (motive := fun best : Nat × Nat => best.2 ≤ leadingZeros (gs.drop best.1)) (Nat.zero_le _) ?_
  intro best hbest i _
  dsimp only
  split
  · exact Nat.le_refl _
  · exact hbest

theorem take_of_le_leadingZeros {gs : List UInt16} {n : Nat} (h : n ≤ leadingZeros gs) :
    gs.take n = List.replicate n 0 := by
  induction gs generalizing n with
  | nil =>
    obtain rfl : n = 0 := Nat.le_zero.1 h
    rfl
  | cons g gs ih =>
    cases n with
    | zero => rfl
    | succ n =>
      unfold leadingZeros at h ih
      rw [List.takeWhile_cons] at h
      split at h
      · next hg =>
        rw [List.take_succ_cons, ih (Nat.le_of_succ_le_succ h), eq_of_beq hg]
        rfl
      · exact absurd h (Nat.not_succ_le_zero n)

/-- A run of zeros splits the groups into those before it, its zeros and those behind it. -/
theorem eq_around_zeros {gs : List UInt16} {start n : Nat}
    (h : n ≤ leadingZeros (gs.drop start)) :
    gs = gs.take start ++ List.replicate n 0 ++ gs.drop (start + n) ∧
      (0 < n → start + n ≤ gs.length) := by
  have htake := take_of_le_leadingZeros h
  constructor
  · rw [← htake, List.append_assoc, ← List.drop_drop, List.take_append_drop,
      List.take_append_drop]
  · intro hpos
    have hlength := congrArg List.length htake
    rw [List.length_take, List.length_drop, List.length_replicate] at hlength
    omega

/-! ### Addresses in IPv6 -/

/-- Of a mapped address the first five groups are zeros and the sixth has all bits set. -/
theorem toList_of_mapped? {ip : Ipv6} {inner : Ipv4} (h : ip.mapped? = some inner) :
    ip.toList = List.replicate 5 0 ++ [0xffff, inner.high, inner.low] := by
  have hjoin : ∀ g : UInt16, (g / 256).toUInt8.toUInt16 * 256 + (g % 256).toUInt8.toUInt16 = g := by
    intro g
    apply UInt16.toNat_inj.1
    have := g.toNat_lt
    simp only [UInt16.toNat_add, UInt16.toNat_mul, UInt8.toNat_toUInt16, UInt16.toNat_toUInt8,
      UInt16.toNat_div, UInt16.toNat_mod, UInt16.reduceToNat]
    omega
  unfold mapped? at h
  split at h
  · next g g' hgs =>
    obtain rfl := Option.some.inj h
    rw [hgs, Ipv4.high, Ipv4.low, hjoin, hjoin]
    rfl
  · cases h

/-- No groups go on behind a colon that another one follows. -/
theorem closes_colons (cs : List Char) : Closes (':' :: ':' :: cs) where
  ends := ends_cons (by decide)
  undotted := by simp
  colon := by
    rintro _ ⟨⟩
    exact ends_cons (by decide)

/-- The groups around `::`, however the ones behind it are written, and zeros in between. -/
theorem read_around {ip : Ipv6} (front : List UInt16) {back : List UInt16} {n : Nat}
    {dotted : Bool} {cs : List Char} (hn : 0 < n)
    (hip : ip.toList = front ++ List.replicate n 0 ++ back)
    (hback : readGroups (7 - front.length) true cs = (back, dotted, rest)) :
    read (printGroups front ++ ':' :: ':' :: cs) = some (ip, rest) := by
  have hlength : front.length + n + back.length = 8 := by
    rw [← length_toList ip, hip, List.length_append, List.length_append, List.length_replicate]
  have hroom : front.length ≤ 8 := by omega
  have hfront := readGroups_text hroom true (closes_colons cs)
  have hzeros : 8 - front.length - back.length = n := by omega
  rw [groupsText, if_pos rfl] at hfront
  unfold read
  simp only [hfront, afterChar?_cons, Option.bind_eq_bind, Option.bind_some, hback, hzeros, ← hip,
    ofList?_toList]
  rw [if_neg (by omega)]
  rfl

/-- The text behind the colons of a mapped address: a group and an IPv4 address. -/
theorem readGroups_mapped (inner : Ipv4) (h : Ends 10 rest) :
    readGroups 7 true ("ffff:".toList ++ (inner.print ++ rest)) =
      ([0xffff, inner.high, inner.low], true, rest) := by
  have htext : "ffff:".toList ++ (inner.print ++ rest) =
      hexadecimal (0xffff : UInt16).toNat ++ ':' :: (inner.print ++ rest) := by
    have hffff : hexadecimal (0xffff : UInt16).toNat = ['f', 'f', 'f', 'f'] := by decide
    rw [hffff]
    rfl
  have hcolon : Ends 16 (':' :: (inner.print ++ rest)) := ends_cons (by decide)
  have hgroup := numeral?_group 0xffff hcolon
  have hdotted := read_group_eq_none 0xffff hcolon (by simp)
  rw [htext, readGroups, separated?, if_pos rfl]
  simp only [Option.bind_some, hdotted, hgroup, ite_self]
  rw [readGroups, separated?, if_neg Bool.false_ne_true, afterChar?_cons, if_neg (by decide),
    Option.bind_some, inner.read_print h]
  rfl

/-- An IPv6 address is read back from the form that it is written in. -/
theorem read_print (ip : Ipv6) (h : Closes rest) : read (ip.print ++ rest) = some (ip, rest) := by
  have hrun := longestRun_le ip.toList
  unfold print
  split
  · next inner hmapped =>
    -- five zeros are left out, and the IPv4 address is the end of what is behind them
    have hback := readGroups_mapped inner (ends_ten_of_ends h.ends)
    rw [List.append_assoc]
    exact read_around [] (show 0 < 5 by decide) (toList_of_mapped? hmapped) hback
  · dsimp only
    generalize longestRun ip.toList = run at hrun ⊢
    obtain ⟨start, n⟩ := run
    obtain ⟨hgroups, hlength⟩ := eq_around_zeros hrun
    split
    · next hn =>
      -- the longest run is left out, and what is around it has room for the rest
      have hpos : 0 < n := Nat.zero_lt_of_lt hn
      have hle := hlength hpos
      rw [length_toList] at hle
      have hroom : (ip.toList.drop (start + n)).length ≤ 7 - (ip.toList.take start).length := by
        rw [List.length_drop, List.length_take, length_toList]
        omega
      have hback := readGroups_text hroom true h
      rw [List.append_assoc]
      exact read_around _ hpos hgroups hback
    · -- no run is long enough, so all eight groups are there
      have hall := readGroups_text (Nat.le_of_eq ip.length_toList) true h
      rw [groupsText, if_pos rfl] at hall
      unfold read
      simp only [hall, length_toList, if_true, ofList?_toList, Option.map_some]

end Ipv6

namespace Address

theorem readPort_print (port : UInt16) :
    readPort (':' :: decimal port.toNat) = some (port, []) := by
  have hport : numeral? portForm (decimal port.toNat ++ []) = some (port.toNat, []) :=
    numeral?_toDigits portForm (by decide) (by decide) port.toNat_lt (fun _ h => nomatch h) ends_nil
  rw [List.append_nil] at hport
  unfold readPort
  simp only [afterChar?_cons, hport, Option.bind_eq_bind, Option.bind_some, Nat.toUInt16_eq,
    UInt16.ofNat_toNat]
  rfl

/-- A scope as it is written, with nothing for none. -/
def zone (scope : UInt32) : List Char := if scope == 0 then [] else '%' :: decimal scope.toNat

theorem readScope_zone (scope : UInt32) {rest : List Char} (hrest : Ends 10 rest)
    (hpercent : rest.head? ≠ some '%') : readScope (zone scope ++ rest) = (scope, rest) := by
  unfold zone
  split
  · next h =>
    unfold readScope
    rw [List.nil_append, afterChar?_of_head?_ne hpercent, eq_of_beq h]
    rfl
  · have hscope : numeral? scopeForm (decimal scope.toNat ++ rest) = some (scope.toNat, rest) :=
      numeral?_toDigits scopeForm (by decide) (by decide) scope.toNat_lt (fun _ h => nomatch h)
        hrest
    unfold readScope
    rw [List.cons_append, afterChar?_cons, Option.bind_some, hscope]
    simp only [Nat.toUInt32_eq, UInt32.ofNat_toNat]

theorem closes_zone (scope : UInt32) (cs : List Char) : Ipv6.Closes (zone scope ++ ']' :: cs) := by
  unfold zone
  split
  · exact ⟨ends_cons (by decide), by simp, by rintro _ ⟨⟩⟩
  · exact ⟨ends_cons (by decide), by simp, by rintro _ ⟨⟩⟩

/-- The text of an address reads as that address. -/
theorem read?_print (a : Address) : read? a.print = some a := by
  cases a with
  | v4 ip port =>
    have hcolon : Ends 10 (':' :: decimal port.toNat) := ends_cons (by decide)
    have hip := ip.read_print hcolon
    unfold read? readV4 print
    simp only [hip, readPort_print, Option.bind_eq_bind, Option.bind_some]
    rfl
  | v6 ip scope port =>
    have hprint : print (v6 ip scope port) =
        '[' :: (ip.print ++ (zone scope ++ (']' :: ':' :: decimal port.toNat))) := by
      simp [print, zone]
    have hv4 : Ipv4.read (print (v6 ip scope port)) = none := by
      rw [hprint]
      exact Ipv4.read_eq_none (by rw [digits_of_ends (ends_cons (by decide))]; simp)
    have hip := ip.read_print (closes_zone scope (':' :: decimal port.toNat))
    have hbracket : Ends 10 (']' :: ':' :: decimal port.toNat) := ends_cons (by decide)
    have hscope := readScope_zone scope hbracket (by simp)
    unfold read? readV4
    rw [hv4, hprint]
    unfold readV6
    simp only [afterChar?_cons, hip, hscope, readPort_print, Option.bind_eq_bind,
      Option.bind_some, Option.bind_none]
    rfl

example : (v6 ⟨#v[0xfe80, 0, 0, 1, 0, 0, 0, 1]⟩ 2 80).text = "[fe80:0:0:1::1%2]:80" := by
  decide

example : (v6 ⟨#v[0, 0, 0, 0, 0, 0xffff, 0x0a00, 1]⟩ 0 80).text = "[::ffff:10.0.0.1]:80" := by
  decide

end Address

end TokenMesh
