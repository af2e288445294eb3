import TokenMesh.Message.Wire

namespace TokenMesh

/-!
# The round trip of a message

A datagram that holds the bytes of a message reads as that message.

* `Wire.read16_bytes16`, `Wire.read32_bytes32`: words come back from the front of a datagram;
* `Message.decode_encode`: messages come back.
-/

namespace Wire

/-! ### Words -/

/-- A word is put together again from its two bytes. -/
theorem or_bytes16 (w : UInt16) :
    (w >>> 8).toUInt8.toUInt16 <<< 8 ||| w.toUInt8.toUInt16 = w := by
  apply UInt16.eq_of_toBitVec_eq
  simp only [UInt16.toBitVec_or, UInt16.toBitVec_shiftLeft, UInt8.toBitVec_toUInt16,
    UInt16.toBitVec_toUInt8, UInt16.toBitVec_shiftRight]
  apply BitVec.eq_of_getLsbD_eq
  intro i hi
  -- a bit is in the lower byte or in the upper one
  by_cases h : i < 8
  · simp [h, hi]
  · have h₁ : i - 8 < 8 := by omega
    have h₂ : 8 + (i - 8) = i := by omega
    simp [h, h₁, h₂, hi]

/-- A word is put together again from its four bytes. -/
theorem or_bytes32 (w : UInt32) :
    (w >>> 24).toUInt8.toUInt32 <<< 24 ||| (w >>> 16).toUInt8.toUInt32 <<< 16 |||
      (w >>> 8).toUInt8.toUInt32 <<< 8 ||| w.toUInt8.toUInt32 = w := by
  apply UInt32.eq_of_toBitVec_eq
  simp only [UInt32.toBitVec_or, UInt32.toBitVec_shiftLeft, UInt8.toBitVec_toUInt32,
    UInt32.toBitVec_toUInt8, UInt32.toBitVec_shiftRight]
  apply BitVec.eq_of_getLsbD_eq
  intro i hi
  -- the bytes from the lowest to the highest
  by_cases h : i < 8
  · have h₁ : i < 16 := by omega
    have h₂ : i < 24 := by omega
    simp [h, h₁, h₂, hi]
  by_cases h' : i < 16
  · have h₁ : i - 8 < 8 := by omega
    have h₂ : 8 + (i - 8) = i := by omega
    have h₃ : i < 24 := by omega
    simp [h, h', h₁, h₂, h₃, hi]
  by_cases h'' : i < 24
  · have h₁ : i - 16 < 8 := by omega
    have h₂ : 16 + (i - 16) = i := by omega
    have h₃ : ¬ i - 8 < 8 := by omega
    simp [h, h', h'', h₁, h₂, h₃, hi]
  · have h₁ : i - 24 < 8 := by omega
    have h₂ : 24 + (i - 24) = i := by omega
    have h₃ : ¬ i - 8 < 8 := by omega
    have h₄ : ¬ i - 16 < 8 := by omega
    simp [h, h', h'', h₁, h₂, h₃, h₄, hi]

@[simp] theorem read16_bytes16 (w : UInt16) (rest : List UInt8) :
    read16 (bytes16 w ++ rest) = .ok (w, rest) := by
  show Except.ok (_, rest) = _
  rw [or_bytes16]

@[simp] theorem read32_bytes32 (w : UInt32) (rest : List UInt8) :
    read32 (bytes32 w ++ rest) = .ok (w, rest) := by
  show Except.ok (_, rest) = _
  rw [or_bytes32]

/-! ### Fields -/

/-- Reading goes on with what has been read. -/
theorem ok_bind {α β : Type} (a : α) (f : α → Except WireError β) :
    (Except.ok a >>= f) = f a := rfl

@[simp] theorem readVersion_bytes16 (v : Int16) (rest : List UInt8) :
    readVersion (bytes16 v.toUInt16 ++ rest) = .ok (v, rest) := by
  unfold readVersion
  rw [read16_bytes16]
  rfl

@[simp] theorem readValue_bytes32 (v : Int32) (rest : List UInt8) :
    readValue (bytes32 v.toUInt32 ++ rest) = .ok (v, rest) := by
  unfold readValue
  rw [read32_bytes32]
  rfl

end Wire

namespace Message

open Wire

/-- The fields of a message come back, and so does what follows them. -/
theorem decodeFields_encodeFields (m : Message) (rest : List UInt8) :
    decodeFields m.kind.tag (m.encodeFields ++ rest) = .ok (m, rest) := by
  cases m with
  | announce => rfl
  | data value version hops =>
    simp only [kind, Kind.tag, encodeFields, decodeFields, List.append_assoc, readValue_bytes32,
      readVersion_bytes16, ok_bind]
    rfl
  | beacon version =>
    simp only [kind, Kind.tag, encodeFields, decodeFields, readVersion_bytes16]
    rfl
  | control version =>
    simp only [kind, Kind.tag, encodeFields, decodeFields, readVersion_bytes16]
    rfl
  | recover value version =>
    simp only [kind, Kind.tag, encodeFields, decodeFields, List.append_assoc, readValue_bytes32,
      readVersion_bytes16, ok_bind]
    rfl

/-- The bytes of a message hold that message. -/
@[simp] theorem decode_encode (m : Message) : decode m.encode = .ok m := by
  have hfields := decodeFields_encodeFields m []
  rw [List.append_nil] at hfields
  unfold decode encode
  rw [read32_bytes32]
  show (decodeFields m.kind.tag m.encodeFields >>= _) = _
  rw [hfields]
  rfl

end Message

end TokenMesh
