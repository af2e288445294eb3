import TokenMesh.Proofs.Message.Canonical

namespace TokenMesh

/-!
# What is wrong with a datagram

A message is read field by field, its tag first.  So the length of a datagram and the number in
its first four bytes decide whether it holds a message, and if not, what is wrong with it.

* `Wire.shortage`: the bytes that are missing for the first of some fields that does not fit;
* `Wire.Reads`: a reading that takes fields of given widths, or lacks bytes for one of them;
* `Message.reads_decodeFields`: the fields of every kind of message are read so;
* `Message.faults_exact`: each fault is reported exactly where it is the first one.
-/

namespace Wire

/-! ### Fields of given widths -/

/-- How many bytes are missing for the first of some fields, given by their widths, that does not
fit into a number of bytes; none if all of them fit. -/
def shortage : (widths : List Nat) → (available : Nat) → Option Nat
  | [], _ => none
  | w :: ws, n => if n < w then some (w - n) else shortage ws (n - w)

theorem shortage_eq_none_iff {widths : List Nat} {n : Nat} :
    shortage widths n = none ↔ widths.sum ≤ n := by
  induction widths generalizing n with
  | nil => simp [shortage]
  | cons w ws ih =>
    rw [shortage, List.sum_cons]
    split
    · simp only [reduceCtorEq, false_iff]
      omega
    · rw [ih]
      omega

/-- Bytes are missing for a field just if those before it fit and it does not. -/
theorem shortage_eq_some_iff {widths : List Nat} {n missing : Nat} :
    shortage widths n = some missing ↔ ∃ before w after, widths = before ++ w :: after ∧
      before.sum ≤ n ∧ n < before.sum + w ∧ missing = before.sum + w - n := by
  induction widths generalizing n with
  | nil => simp [shortage]
  | cons w ws ih =>
    rw [shortage]
    split
    · next hlt =>
      constructor
      · intro h
        obtain rfl := Option.some.inj h
        exact ⟨[], w, ws, rfl, Nat.zero_le n, by simpa using hlt, by simp⟩
      · rintro ⟨before, v, after, hws, hle, hv, rfl⟩
        -- the first field is the only one before which nothing has to fit
        cases before with
        | nil =>
          obtain ⟨rfl, rfl⟩ := List.cons.inj hws
          simp
        | cons u us =>
          obtain ⟨rfl, rfl⟩ := List.cons.inj hws
          rw [List.sum_cons] at hle
          omega
    · next hge =>
      rw [ih]
      constructor
      · rintro ⟨before, v, after, rfl, hle, hv, rfl⟩
        refine ⟨w :: before, v, after, rfl, ?_, ?_, ?_⟩ <;> rw [List.sum_cons] <;> omega
      · rintro ⟨before, v, after, hws, hle, hv, rfl⟩
        cases before with
        | nil =>
          obtain ⟨rfl, rfl⟩ := List.cons.inj hws
          rw [List.sum_nil] at hv
          omega
        | cons u us =>
          obtain ⟨rfl, rfl⟩ := List.cons.inj hws
          rw [List.sum_cons] at *
          exact ⟨us, v, after, rfl, by omega, by omega, by omega⟩

/-- A reading takes fields of given widths off the front of a datagram.  Where one does not fit,
the first such field decides what is reported. -/
structure Reads {α : Type} (widths : List Nat)
    (read : List UInt8 → Except WireError (α × List UInt8)) : Prop where
  short : ∀ {bs missing}, shortage widths bs.length = some missing →
    read bs = .error (.unexpectedEnd missing)
  long : ∀ bs, widths.sum ≤ bs.length → ∃ a, read bs = .ok (a, bs.drop widths.sum)

theorem error_bind {α β : Type} (e : WireError) (f : α → Except WireError β) :
    (Except.error e >>= f) = Except.error e := rfl

namespace Reads

variable {α β : Type}

/-- Nothing is read, and nothing is missing. -/
theorem pure (a : α) : Reads [] fun bs => Except.ok (a, bs) where
  short h := nomatch h
  long _ _ := ⟨a, rfl⟩

/-- One field after another. -/
theorem bind {w : Nat} {ws : List Nat} {f : List UInt8 → Except WireError (α × List UInt8)}
    {g : α → List UInt8 → Except WireError (β × List UInt8)} (hf : Reads [w] f)
    (hg : ∀ a, Reads ws (g a)) : Reads (w :: ws) fun bs => f bs >>= fun x => g x.1 x.2 where
  short {bs missing} h := by
    rw [shortage] at h
    split at h
    · next hlt =>
      have hshort : shortage [w] bs.length = some missing := by rw [shortage, if_pos hlt, h]
      rw [hf.short hshort, error_bind]
    · next hge =>
      obtain ⟨a, ha⟩ := hf.long bs (by simpa using hge)
      rw [ha, ok_bind]
      refine (hg a).short ?_
      rw [List.length_drop, List.sum_singleton]
      exact h
  long bs h := by
    rw [List.sum_cons] at h
    obtain ⟨a, ha⟩ := hf.long bs (by rw [List.sum_singleton]; omega)
    obtain ⟨b, hb⟩ := (hg a).long (bs.drop w) (by rw [List.length_drop]; omega)
    refine ⟨b, ?_⟩
    rw [ha, ok_bind, List.sum_singleton, hb, List.drop_drop, List.sum_cons]

/-- What is read may be put into another form. -/
theorem map {widths : List Nat} {f : List UInt8 → Except WireError (α × List UInt8)}
    (hf : Reads widths f) (g : α → β) :
    Reads widths fun bs => f bs >>= fun x => Except.ok (g x.1, x.2) where
  short h := by rw [hf.short h, error_bind]
  long bs h := by
    obtain ⟨a, ha⟩ := hf.long bs h
    exact ⟨g a, by rw [ha, ok_bind]⟩

end Reads

theorem reads_read16 : Reads [2] read16 where
  short {bs missing} h := by
    match bs with
    | [] | [_] =>
      obtain rfl := Option.some.inj h
      rfl
    | _ :: _ :: rest =>
      have hfits : shortage [2] (rest.length + 2) = none := shortage_eq_none_iff.2 (by simp)
      cases hfits.symm.trans h
  long bs h := by
    match bs, h with
    | _ :: _ :: rest, _ => exact ⟨_, rfl⟩

theorem reads_read32 : Reads [4] read32 where
  short {bs missing} h := by
    match bs with
    | [] | [_] | [_, _] | [_, _, _] =>
      obtain rfl := Option.some.inj h
      rfl
    | _ :: _ :: _ :: _ :: rest =>
      have hfits : shortage [4] (rest.length + 4) = none := shortage_eq_none_iff.2 (by simp)
      cases hfits.symm.trans h
  long bs h := by
    match bs, h with
    | _ :: _ :: _ :: _ :: rest, _ => exact ⟨_, rfl⟩

theorem reads_readVersion : Reads [2] readVersion := reads_read16.map UInt16.toInt16

theorem reads_readValue : Reads [4] readValue := reads_read32.map UInt32.toInt32

/-! ### The number in front -/

/-- The number in the first four bytes of a datagram, the most significant byte first. -/
def leadingNumber (bs : List UInt8) : Nat := (bs.take 4).foldl (fun n b => 256 * n + b.toNat) 0

theorem toNat_of_read32 {bs rest : List UInt8} {w : UInt32} (h : read32 bs = .ok (w, rest)) :
    w.toNat = leadingNumber bs := by
  have hw := w.toNat_lt
  obtain rfl := eq_of_read32 h
  simp only [leadingNumber, bytes32, List.cons_append, List.take_succ_cons, List.take_zero,
    List.foldl_cons, List.foldl_nil, UInt32.toNat_toUInt8, UInt32.toNat_shiftRight,
    Nat.shiftRight_eq_div_pow]
  show _ = 256 * (256 * (256 * (256 * 0 + w.toNat / 2 ^ 24 % 2 ^ 8) + w.toNat / 2 ^ 16 % 2 ^ 8) +
    w.toNat / 2 ^ 8 % 2 ^ 8) + w.toNat % 2 ^ 8
  omega

/-- A datagram of four bytes or more begins with its number in front. -/
theorem exists_read32 {bs : List UInt8} (h : 4 ≤ bs.length) :
    ∃ w : UInt32, w.toNat = leadingNumber bs ∧ read32 bs = .ok (w, bs.drop 4) := by
  obtain ⟨w, hw⟩ := reads_read32.long bs h
  exact ⟨w, toNat_of_read32 hw, hw⟩

theorem leadingNumber_append {bs : List UInt8} (h : 4 ≤ bs.length) (extra : List UInt8) :
    leadingNumber (bs ++ extra) = leadingNumber bs := by
  rw [leadingNumber, List.take_append_of_le_length h, leadingNumber]

end Wire

namespace Message

open Wire

/-! ### The kinds of message -/

/-- The widths of the fields of a kind of message, in order. -/
def Kind.widths : Kind → List Nat
  | announce => []
  | data => [4, 2, 4]
  | beacon => [2]
  | control => [2]
  | recover => [4, 2]

/-- A message is written as its tag and then a number for each of these fields. -/
theorem map_fst_numbers (m : Message) : m.numbers.map Prod.fst = 4 :: m.kind.widths := by
  cases m <;> rfl

theorem wireSize_eq_sum (k : Kind) : k.wireSize = (4 :: k.widths).sum := by
  cases k <;> rfl

/-- The fields of a kind of message are read one after the other. -/
theorem reads_decodeFields (k : Kind) : Reads k.widths (decodeFields k.tag) := by
  cases k with
  | announce => exact .pure _
  | data =>
    exact reads_readValue.bind fun value => reads_readVersion.bind fun version =>
      reads_readValue.map (Message.data value version)
  | beacon => exact reads_readVersion.map Message.beacon
  | control => exact reads_readVersion.map Message.control
  | recover =>
    exact reads_readValue.bind fun value => reads_readVersion.map (Message.recover value)

/-- What is read under the tag of a kind is a message of that kind. -/
theorem kind_of_decodeFields {k : Kind} {bs rest : List UInt8} {m : Message}
    (h : decodeFields k.tag bs = .ok (m, rest)) : m.kind = k := by
  have htag := (eq_of_decodeFields h).1
  generalize m.kind = k' at htag
  revert htag
  cases k <;> cases k' <;> decide

/-- A tag above those of all kinds is unknown, whatever follows it. -/
theorem decodeFields_of_lt {tag : UInt32} (h : 4 < tag.toNat) (bs : List UInt8) :
    decodeFields tag bs = .error (.unknownTag tag) := by
  unfold decodeFields
  split
  all_goals first | rfl | exact absurd h (by decide)

theorem toNat_tag (k : Kind) : k.tag.toNat = Kind.all.idxOf k := by
  cases k <;> decide

theorem leadingNumber_encode (m : Message) : leadingNumber m.encode = Kind.all.idxOf m.kind := by
  have hread : read32 m.encode = .ok (m.kind.tag, m.encodeFields) := read32_bytes32 ..
  rw [← toNat_of_read32 hread, toNat_tag]

theorem exists_idxOf_eq {n : Nat} (h : n ≤ 4) : ∃ k : Kind, Kind.all.idxOf k = n := by
  have hn : n < Kind.all.length := Nat.lt_succ_of_le h
  exact ⟨Kind.all[n], List.Nodup.idxOf_getElem (by decide) n hn⟩

/-! ### Datagrams -/

section kind

variable {k : Kind} {bs : List UInt8}

/-- Under the tag of a kind, its fields come next. -/
theorem read32_of_leadingNumber (h : 4 ≤ bs.length) (hk : Kind.all.idxOf k = leadingNumber bs) :
    read32 bs = .ok (k.tag, bs.drop 4) := by
  obtain ⟨w, hw, hread⟩ := exists_read32 h
  have htag : w = k.tag := UInt32.toNat_inj.1 (by rw [hw, toNat_tag, hk])
  rw [hread, htag]

/-- Of a datagram that is too short for its kind, the bytes are missing for the first field that
does not fit. -/
theorem decode_of_shortage {missing : Nat} (h : 4 ≤ bs.length)
    (hk : Kind.all.idxOf k = leadingNumber bs)
    (hs : shortage k.widths (bs.length - 4) = some missing) :
    decode bs = .error (.unexpectedEnd missing) := by
  unfold decode
  rw [read32_of_leadingNumber h hk, ok_bind]
  dsimp only
  rw [(reads_decodeFields k).short (by rw [List.length_drop, hs]), error_bind]

/-- A datagram that is long enough for its kind holds a message of that kind, unless bytes are left
over behind it. -/
theorem decode_of_wireSize_le (h : k.wireSize ≤ bs.length)
    (hk : Kind.all.idxOf k = leadingNumber bs) :
    ∃ m : Message, m.kind = k ∧ decode bs =
      if bs.length = k.wireSize then .ok m else .error (.trailing k.wireSize bs.length) := by
  rw [wireSize_eq_sum, List.sum_cons] at *
  obtain ⟨m, hm⟩ := (reads_decodeFields k).long (bs.drop 4)
    (by rw [List.length_drop]; omega)
  refine ⟨m, kind_of_decodeFields hm, ?_⟩
  unfold decode
  rw [read32_of_leadingNumber (by omega) hk, ok_bind]
  dsimp only
  rw [hm, ok_bind]
  dsimp only
  rw [List.drop_drop]
  by_cases hlen : bs.length = 4 + k.widths.sum
  · rw [if_pos hlen, if_pos (by rw [List.drop_of_length_le (by omega)]; rfl)]
    rfl
  · have hleft : bs.length - (bs.drop (4 + k.widths.sum)).length = 4 + k.widths.sum := by
      rw [List.length_drop]
      omega
    rw [if_neg hlen, if_neg, hleft]
    · rfl
    · rw [List.isEmpty_iff, List.drop_eq_nil_iff]
      omega

end kind

theorem decode_of_length_lt {bs : List UInt8} (h : bs.length < 4) :
    decode bs = .error (.unexpectedEnd (4 - bs.length)) := by
  unfold decode
  rw [reads_read32.short (by rw [shortage, if_pos h]), error_bind]

theorem decode_of_unknown {bs : List UInt8} (h : 4 ≤ bs.length) (ht : 4 < leadingNumber bs) :
    ∃ tag : UInt32, tag.toNat = leadingNumber bs ∧ decode bs = .error (.unknownTag tag) := by
  obtain ⟨tag, htag, hread⟩ := exists_read32 h
  refine ⟨tag, htag, ?_⟩
  unfold decode
  rw [hread, ok_bind]
  dsimp only
  rw [decodeFields_of_lt (by omega), error_bind]

/-- A message that is cut short lacks bytes, wherever it is cut. -/
theorem decode_of_prefix {m : Message} {bs : List UInt8} (h : bs <+: m.encode)
    (hne : bs ≠ m.encode) :
    ∃ missing, 0 < missing ∧ decode bs = .error (.unexpectedEnd missing) := by
  have hlt : bs.length < m.kind.wireSize := by
    rw [← length_encode]
    exact Nat.lt_of_le_of_ne h.length_le fun hlen => hne (h.eq_of_length hlen)
  by_cases h4 : bs.length < 4
  · exact ⟨4 - bs.length, by omega, decode_of_length_lt h4⟩
  -- the tag is whole, so the kind is known
  have hle : 4 ≤ bs.length := by omega
  have hk : Kind.all.idxOf m.kind = leadingNumber bs := by
    obtain ⟨rest, hrest⟩ := h
    rw [← leadingNumber_encode, ← hrest, leadingNumber_append hle]
  rw [wireSize_eq_sum, List.sum_cons] at hlt
  cases hs : shortage m.kind.widths (bs.length - 4) with
  | none =>
    have hsum := shortage_eq_none_iff.1 hs
    omega
  | some missing =>
    obtain ⟨before, w, after, _, hbefore, hw, rfl⟩ := shortage_eq_some_iff.1 hs
    exact ⟨_, by omega, decode_of_shortage hle hk hs⟩

/-- A message with bytes behind it is refused for them. -/
theorem decode_append {m : Message} {extra : List UInt8} (h : extra ≠ []) :
    decode (m.encode ++ extra) =
      .error (.trailing m.encode.length (m.encode ++ extra).length) := by
  have hlen : (m.encode ++ extra).length = m.kind.wireSize + extra.length := by
    rw [List.length_append, length_encode]
  have hextra := List.length_pos_iff.2 h
  have h4 : 4 ≤ m.encode.length := by
    rw [length_encode, wireSize_eq_sum, List.sum_cons]
    omega
  have hlong : m.kind.wireSize ≤ (m.encode ++ extra).length := by omega
  obtain ⟨_, _, hd⟩ := decode_of_wireSize_le hlong
    (by rw [leadingNumber_append h4, leadingNumber_encode])
  rw [hd, if_neg (by omega), length_encode]

/-- **Faults.**  A kind of message takes the same number of bytes each time, and its fields are of
the same widths.  A datagram that is too short for a tag lacks the rest of the tag.  With a tag that
no kind has, it is refused for that, whatever follows.  Under the tag of a kind it lacks the rest of
the first field that does not fit, if there is one; if all of them fit, bytes behind the last one
are too many, and without them it holds a message of that kind.  So a message that is cut short
always lacks bytes, and a longer datagram that begins with one always has too many. -/
theorem faults_exact :
    (∀ m : Message, m.encode.length = m.kind.wireSize ∧
      m.numbers.map Prod.fst = 4 :: m.kind.widths ∧
      m.kind.wireSize = 4 + m.kind.widths.sum) ∧
    (∀ bs : List UInt8, bs.length < 4 → decode bs = .error (.unexpectedEnd (4 - bs.length))) ∧
    (∀ bs : List UInt8, 4 ≤ bs.length → 4 < leadingNumber bs →
      ∃ tag : UInt32, tag.toNat = leadingNumber bs ∧ decode bs = .error (.unknownTag tag)) ∧
    (∀ bs : List UInt8, 4 ≤ bs.length → leadingNumber bs ≤ 4 →
      ∃ k : Kind, Kind.all.idxOf k = leadingNumber bs ∧
        (bs.length < k.wireSize → ∃ before w after, k.widths = before ++ w :: after ∧
          4 + before.sum ≤ bs.length ∧ bs.length < 4 + before.sum + w ∧
          decode bs = .error (.unexpectedEnd (4 + before.sum + w - bs.length))) ∧
        (k.wireSize < bs.length → decode bs = .error (.trailing k.wireSize bs.length)) ∧
        (bs.length = k.wireSize → ∃ m : Message, m.kind = k ∧ decode bs = .ok m)) ∧
    (∀ (m : Message) (bs : List UInt8), bs <+: m.encode → bs ≠ m.encode →
      ∃ missing, 0 < missing ∧ decode bs = .error (.unexpectedEnd missing)) ∧
    (∀ (m : Message) (extra : List UInt8), extra ≠ [] → decode (m.encode ++ extra) =
      .error (.trailing m.encode.length (m.encode ++ extra).length)) := by
  refine ⟨fun m => ⟨length_encode m, map_fst_numbers m, wireSize_eq_sum _⟩,
    fun bs => decode_of_length_lt, fun bs => decode_of_unknown, ?_,
    fun m bs => decode_of_prefix, fun m extra => decode_append⟩
  intro bs h4 ht
  obtain ⟨k, hk⟩ := exists_idxOf_eq ht
  refine ⟨k, hk, ?_, ?_, ?_⟩
  · intro hlt
    rw [wireSize_eq_sum, List.sum_cons] at hlt
    cases hs : shortage k.widths (bs.length - 4) with
    | none =>
      have hsum := shortage_eq_none_iff.1 hs
      omega
    | some missing =>
      obtain ⟨before, w, after, hwidths, hbefore, hw, hmissing⟩ := shortage_eq_some_iff.1 hs
      refine ⟨before, w, after, hwidths, by omega, by omega, ?_⟩
      rw [decode_of_shortage h4 hk hs, hmissing]
      congr 2
      omega
  · intro hlt
    obtain ⟨_, _, hd⟩ := decode_of_wireSize_le (Nat.le_of_lt hlt) hk
    rw [hd, if_neg (Nat.ne_of_gt hlt)]
  · intro hlen
    obtain ⟨m, hm, hd⟩ := decode_of_wireSize_le (Nat.le_of_eq hlen.symm) hk
    exact ⟨m, hm, by rw [hd, if_pos hlen]⟩

/-- A data message without its last byte lacks that byte of its hops; with one more it is too long
by that, and the same bytes under tag nine are refused for the tag. -/
theorem faults_exact_data :
    let whole := (Message.data 5 1 0).encode
    decode (whole.take 13) = .error (.unexpectedEnd 1) ∧
    decode (whole ++ [0]) = .error (.trailing 14 15) ∧
    decode (0 :: 0 :: 0 :: 9 :: whole.drop 4) = .error (.unknownTag 9) := by
  intro whole
  obtain ⟨_, _, hunknown, hknown, _, hlonger⟩ := faults_exact
  refine ⟨?_, hlonger (.data 5 1 0) [0] (by decide), ?_⟩
  · obtain ⟨k, hk, hshort, _⟩ := hknown (whole.take 13) (by decide) (by decide)
    obtain rfl : k = .data := by
      revert hk
      cases k <;> decide
    obtain ⟨before, w, after, hwidths, hle, hlt, hd⟩ := hshort (by decide)
    rw [hd]
    -- the last field is the only one that thirteen bytes end in
    have hlen : (whole.take 13).length = 13 := by decide
    rw [hlen] at hle hlt ⊢
    match before, hwidths with
    | [], h => cases h; simp at hlt
    | [_], h => cases h; simp at hlt
    | [_, _], h => cases h; rfl
    | _ :: _ :: _ :: _, h => simp [Kind.widths] at h
  · obtain ⟨tag, htag, hd⟩ :=
      hunknown (0 :: 0 :: 0 :: 9 :: whole.drop 4) (by decide) (by decide)
    rw [hd, show tag = 9 from UInt32.toNat_inj.1 htag]

end Message

end TokenMesh
