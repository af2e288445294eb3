import Mathlib.Algebra.Ring.Int.Defs
import TokenMesh.Proofs.Message.RoundTrip
import TokenMesh.Proofs.Node.Reaction

namespace TokenMesh

/-!
# The wire format

Every message has exactly one written form, and nothing else reads as that message.  The form is a
list of numbers, each in a fixed number of bytes, so it also shows where it ends.

* `Wire.twosComplement`: a number in a fixed number of bytes, the most significant first;
* `Message.numbers`: the numbers that a message is written as, with the bytes that each takes;
* `Message.eq_encode_of_decode`: what reads as a message is that message in writing;
* `Message.codec_bijection`: messages and the datagrams that can be read stand for each other, one
  to one.
-/

namespace Wire

/-! ### Words that are put together from bytes -/

theorem bytes16_or (a b : UInt8) : bytes16 (a.toUInt16 <<< 8 ||| b.toUInt16) = [a, b] := by
  have hhigh : ((a.toUInt16 <<< 8 ||| b.toUInt16) >>> 8).toUInt8 = a := by
    apply UInt8.eq_of_toBitVec_eq
    apply BitVec.eq_of_getLsbD_eq
    intro i hi
    have hin : 8 + i < 16 := by omega
    simp [hi, hin]
  have hlow : (a.toUInt16 <<< 8 ||| b.toUInt16).toUInt8 = b := by
    apply UInt8.eq_of_toBitVec_eq
    apply BitVec.eq_of_getLsbD_eq
    intro i hi
    simp [hi]
  simp only [bytes16, hhigh, hlow]

theorem bytes32_or (a b c d : UInt8) :
    bytes32 (a.toUInt32 <<< 24 ||| b.toUInt32 <<< 16 ||| c.toUInt32 <<< 8 ||| d.toUInt32) =
      [a, b, c, d] := by
  -- what is shifted past its own eight bits is zero
  have hout : ∀ (x : UInt8) (k : Nat), 8 ≤ k → x.toBitVec.getLsbD k = false :=
    fun x k hk => BitVec.getLsbD_of_ge _ _ hk
  generalize hw : a.toUInt32 <<< 24 ||| b.toUInt32 <<< 16 ||| c.toUInt32 <<< 8 ||| d.toUInt32 = w
  have hfirst : (w >>> 24).toUInt8 = a := by
    subst hw
    apply UInt8.eq_of_toBitVec_eq
    apply BitVec.eq_of_getLsbD_eq
    intro i hi
    have h₁ : ¬ 24 + i < 24 := by omega
    have h₂ : 24 + i < 32 := by omega
    simp [hi, h₁, h₂, hout b (24 + i - 16) (by omega), hout c (24 + i - 8) (by omega),
      hout d (24 + i) (by omega)]
  have hsecond : (w >>> 16).toUInt8 = b := by
    subst hw
    apply UInt8.eq_of_toBitVec_eq
    apply BitVec.eq_of_getLsbD_eq
    intro i hi
    have h₁ : 16 + i < 24 := by omega
    have h₂ : 16 + i < 32 := by omega
    simp [hi, h₁, h₂, hout c (16 + i - 8) (by omega), hout d (16 + i) (by omega)]
  have hthird : (w >>> 8).toUInt8 = c := by
    subst hw
    apply UInt8.eq_of_toBitVec_eq
    apply BitVec.eq_of_getLsbD_eq
    intro i hi
    have h₁ : 8 + i < 16 := by omega
    have h₂ : 8 + i < 24 := by omega
    have h₃ : 8 + i < 32 := by omega
    simp [hi, h₁, h₂, h₃]
  have hfourth : w.toUInt8 = d := by
    subst hw
    apply UInt8.eq_of_toBitVec_eq
    apply BitVec.eq_of_getLsbD_eq
    intro i hi
    simp [hi]
  simp only [bytes32, hfirst, hsecond, hthird, hfourth]

/-! ### Reading backwards -/

theorem ok_of_bind {α β : Type} {x : Except WireError α} {f : α → Except WireError β} {b : β}
    (h : (x >>= f) = .ok b) : ∃ a, x = .ok a ∧ f a = .ok b := by
  cases x with
  | error e => cases h
  | ok a => exact ⟨a, rfl, h⟩

theorem eq_of_read16 {bs rest : List UInt8} {w : UInt16} (h : read16 bs = .ok (w, rest)) :
    bs = bytes16 w ++ rest := by
  unfold read16 at h
  split at h
  · obtain ⟨rfl, rfl⟩ := Prod.mk.inj (Except.ok.inj h)
    rw [bytes16_or]
    rfl
  · cases h

theorem eq_of_read32 {bs rest : List UInt8} {w : UInt32} (h : read32 bs = .ok (w, rest)) :
    bs = bytes32 w ++ rest := by
  unfold read32 at h
  split at h
  · obtain ⟨rfl, rfl⟩ := Prod.mk.inj (Except.ok.inj h)
    rw [bytes32_or]
    rfl
  · cases h

theorem eq_of_readVersion {bs rest : List UInt8} {v : Int16}
    (h : readVersion bs = .ok (v, rest)) : bs = bytes16 v.toUInt16 ++ rest := by
  obtain ⟨⟨w, rest'⟩, hr, h⟩ := ok_of_bind h
  obtain ⟨rfl, rfl⟩ := Prod.mk.inj (Except.ok.inj h)
  exact eq_of_read16 hr

theorem eq_of_readValue {bs rest : List UInt8} {v : Int32}
    (h : readValue bs = .ok (v, rest)) : bs = bytes32 v.toUInt32 ++ rest := by
  obtain ⟨⟨w, rest'⟩, hr, h⟩ := ok_of_bind h
  obtain ⟨rfl, rfl⟩ := Prod.mk.inj (Except.ok.inj h)
  exact eq_of_read32 hr

/-! ### Numbers -/

/-- A whole number in two's complement of a number of bytes, the most significant first. -/
def twosComplement (width : Nat) (x : Int) : List UInt8 :=
  (List.range width).reverse.map fun k => UInt8.ofNat (x / 256 ^ k % 256).toNat

theorem eq_ofNat_of_toNat {b : UInt8} {x : Int} (h : (b.toNat : Int) = x % 256) :
    b = UInt8.ofNat (x % 256).toNat := by
  apply UInt8.toNat_inj.mp
  rw [UInt8.toNat_ofNat']
  omega

/-- The bytes of a word are those of any number that it stands for. -/
theorem bytes16_eq {w : UInt16} {x : Int} (h : (w.toNat : Int) = x % 2 ^ 16) :
    bytes16 w = twosComplement 2 x := by
  have hhigh : ((w >>> 8).toUInt8.toNat : Int) = x / 256 ^ 1 % 256 := by
    rw [UInt16.toNat_toUInt8, UInt16.toNat_shiftRight, Nat.shiftRight_eq_div_pow]
    show ((w.toNat / 2 ^ 8 % 2 ^ 8 : Nat) : Int) = _
    omega
  have hlow : (w.toUInt8.toNat : Int) = x / 256 ^ 0 % 256 := by
    rw [UInt16.toNat_toUInt8]
    omega
  rw [bytes16, eq_ofNat_of_toNat hhigh, eq_ofNat_of_toNat hlow]
  rfl

/-- The bytes of a word are those of any number that it stands for. -/
theorem bytes32_eq {w : UInt32} {x : Int} (h : (w.toNat : Int) = x % 2 ^ 32) :
    bytes32 w = twosComplement 4 x := by
  have hfirst : ((w >>> 24).toUInt8.toNat : Int) = x / 256 ^ 3 % 256 := by
    rw [UInt32.toNat_toUInt8, UInt32.toNat_shiftRight, Nat.shiftRight_eq_div_pow]
    show ((w.toNat / 2 ^ 24 % 2 ^ 8 : Nat) : Int) = _
    omega
  have hsecond : ((w >>> 16).toUInt8.toNat : Int) = x / 256 ^ 2 % 256 := by
    rw [UInt32.toNat_toUInt8, UInt32.toNat_shiftRight, Nat.shiftRight_eq_div_pow]
    show ((w.toNat / 2 ^ 16 % 2 ^ 8 : Nat) : Int) = _
    omega
  have hthird : ((w >>> 8).toUInt8.toNat : Int) = x / 256 ^ 1 % 256 := by
    rw [UInt32.toNat_toUInt8, UInt32.toNat_shiftRight, Nat.shiftRight_eq_div_pow]
    show ((w.toNat / 2 ^ 8 % 2 ^ 8 : Nat) : Int) = _
    omega
  have hfourth : (w.toUInt8.toNat : Int) = x / 256 ^ 0 % 256 := by
    rw [UInt32.toNat_toUInt8]
    omega
  rw [bytes32, eq_ofNat_of_toNat hfirst, eq_ofNat_of_toNat hsecond, eq_ofNat_of_toNat hthird,
    eq_ofNat_of_toNat hfourth]
  rfl

theorem bytes16_toUInt16 (v : Int16) : bytes16 v.toUInt16 = twosComplement 2 v.toInt := by
  apply bytes16_eq
  show (v.toBitVec.toNat : Int) = v.toBitVec.toInt % 2 ^ 16
  have hlt := v.toBitVec.isLt
  rw [BitVec.toInt_eq_toNat_cond]
  split <;> omega

theorem bytes32_toUInt32 (v : Int32) : bytes32 v.toUInt32 = twosComplement 4 v.toInt := by
  apply bytes32_eq
  show (v.toBitVec.toNat : Int) = v.toBitVec.toInt % 2 ^ 32
  have hlt := v.toBitVec.isLt
  rw [BitVec.toInt_eq_toNat_cond]
  split <;> omega

end Wire

namespace Message

open Wire

/-! ### The format -/

/-- The numbers that a message is written as, with the bytes that each of them takes: the place of
its kind among all kinds, and then its fields. -/
def numbers (m : Message) : List (Nat × Int) :=
  (4, (Kind.all.idxOf m.kind : Int)) ::
    match m with
    | announce => []
    | data value version hops => [(4, value.toInt), (2, version.toInt), (4, hops.toInt)]
    | beacon version => [(2, version.toInt)]
    | control version => [(2, version.toInt)]
    | recover value version => [(4, value.toInt), (2, version.toInt)]

theorem bytes32_tag (k : Kind) : bytes32 k.tag = twosComplement 4 (Kind.all.idxOf k : Int) := by
  cases k <;> decide

/-- A message is written number by number. -/
theorem encode_eq_numbers (m : Message) :
    m.encode = m.numbers.flatMap fun (width, x) => twosComplement width x := by
  unfold encode numbers
  rw [List.flatMap_cons, bytes32_tag]
  cases m <;> simp [encodeFields, bytes32_toUInt32, bytes16_toUInt16]

/-- The bytes of a message are as many as its kind takes. -/
theorem length_encode (m : Message) : m.encode.length = m.kind.wireSize := by
  cases m <;> rfl

/-! ### Reading -/

/-- Fields that can be read are those of the message that they read as, and what is left over
comes after them. -/
theorem eq_of_decodeFields {tag : UInt32} {bs rest : List UInt8} {m : Message}
    (h : decodeFields tag bs = .ok (m, rest)) :
    tag = m.kind.tag ∧ bs = m.encodeFields ++ rest := by
  unfold decodeFields at h
  split at h
  · obtain ⟨rfl, rfl⟩ := Prod.mk.inj (Except.ok.inj h)
    exact ⟨rfl, rfl⟩
  · obtain ⟨⟨value, bs₁⟩, h₁, h⟩ := ok_of_bind h
    obtain ⟨⟨version, bs₂⟩, h₂, h⟩ := ok_of_bind h
    obtain ⟨⟨hops, bs₃⟩, h₃, h⟩ := ok_of_bind h
    obtain ⟨rfl, rfl⟩ := Prod.mk.inj (Except.ok.inj h)
    rw [eq_of_readValue h₁, eq_of_readVersion h₂, eq_of_readValue h₃]
    exact ⟨rfl, by simp only [encodeFields, List.append_assoc]⟩
  · obtain ⟨⟨version, bs₁⟩, h₁, h⟩ := ok_of_bind h
    obtain ⟨rfl, rfl⟩ := Prod.mk.inj (Except.ok.inj h)
    exact ⟨rfl, eq_of_readVersion h₁⟩
  · obtain ⟨⟨version, bs₁⟩, h₁, h⟩ := ok_of_bind h
    obtain ⟨rfl, rfl⟩ := Prod.mk.inj (Except.ok.inj h)
    exact ⟨rfl, eq_of_readVersion h₁⟩
  · obtain ⟨⟨value, bs₁⟩, h₁, h⟩ := ok_of_bind h
    obtain ⟨⟨version, bs₂⟩, h₂, h⟩ := ok_of_bind h
    obtain ⟨rfl, rfl⟩ := Prod.mk.inj (Except.ok.inj h)
    rw [eq_of_readValue h₁, eq_of_readVersion h₂]
    exact ⟨rfl, by simp only [encodeFields, List.append_assoc]⟩
  · cases h

/-- A datagram that reads as a message is that message in writing. -/
theorem eq_encode_of_decode {bs : List UInt8} {m : Message} (h : decode bs = .ok m) :
    bs = m.encode := by
  obtain ⟨⟨tag, fields⟩, hr, h⟩ := ok_of_bind h
  obtain ⟨⟨m', rest⟩, hf, h⟩ := ok_of_bind h
  dsimp only at h hf
  split at h
  · rename_i hrest
    obtain rfl := Except.ok.inj h
    obtain ⟨rfl, rfl⟩ := eq_of_decodeFields hf
    rw [eq_of_read32 hr, List.isEmpty_iff.mp hrest, List.append_nil, encode]
  · cases h

theorem encode_injective {m m' : Message} (h : m.encode = m'.encode) : m = m' := by
  have hm := decode_encode m
  rw [h, decode_encode] at hm
  exact (Except.ok.inj hm).symm

/-- No message goes on where another one ends. -/
theorem eq_of_encode_prefix {m m' : Message} (h : m.encode <+: m'.encode) : m = m' := by
  obtain ⟨rest, h⟩ := h
  -- the tag and the fields of both are read from the same bytes
  have hread := congrArg read32 h
  rw [encode, encode, List.append_assoc, read32_bytes32, read32_bytes32] at hread
  obtain ⟨htag, hfields⟩ := Prod.mk.inj (Except.ok.inj hread)
  have hm := decodeFields_encodeFields m rest
  have hm' := decodeFields_encodeFields m' []
  rw [List.append_nil, ← htag, ← hfields, hm] at hm'
  exact (Prod.mk.inj (Except.ok.inj hm')).1

/-- Messages are written as the place of their kind in four bytes and then their fields in order,
in big-endian two's complement.  What is written reads as the message again, and a datagram reads
as a message only if it is that message in writing.  So the datagrams that can be read are the ones
that can be written, different messages differ in writing, and none is the beginning of another. -/
theorem codec_bijection :
    (∀ m : Message, m.encode = m.numbers.flatMap fun (width, x) => twosComplement width x) ∧
    (∀ m : Message, decode m.encode = .ok m) ∧
    (∀ (bs : List UInt8) (m : Message), decode bs = .ok m ↔ bs = m.encode) ∧
    (∀ bs : List UInt8, (∃ m, decode bs = .ok m) ↔ ∃ m : Message, m.encode = bs) ∧
    (∀ m m' : Message, m.encode = m'.encode ↔ m = m') ∧
    (∀ m m' : Message, m.encode <+: m'.encode ↔ m = m') := by
  have hiff : ∀ (bs : List UInt8) (m : Message), decode bs = .ok m ↔ bs = m.encode := by
    intro bs m
    constructor
    · exact eq_encode_of_decode
    · rintro rfl
      exact decode_encode m
  refine ⟨encode_eq_numbers, decode_encode, hiff, ?_, ?_, ?_⟩
  · intro bs
    simp only [hiff, eq_comm]
  · intro m m'
    exact ⟨encode_injective, congrArg encode⟩
  · intro m m'
    constructor
    · exact eq_of_encode_prefix
    · rintro rfl
      exact List.prefix_rfl

end Message

end TokenMesh
