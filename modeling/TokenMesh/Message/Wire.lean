import TokenMesh.Message

namespace TokenMesh

/-!
# Messages on the wire

A message is a tag of four bytes and then its fields, all big-endian two's complement: values and
hops in four bytes, versions in two.  A datagram holds exactly one message.

* `Message.encode`: the bytes of a message;
* `Message.decode`: the message that a datagram holds, or the first thing wrong with it;
* `Message.wireSize`: how many bytes each kind of message takes.

Reading goes from left to right, so a missing byte is reported for the first field that does not
fit, an unknown tag whatever follows it, and bytes left over only behind a whole message.
-/

/-- What can be wrong with a datagram. -/
inductive WireError
  /-- The first field that does not fit lacks this many bytes. -/
  | unexpectedEnd (missing : Nat)
  /-- No kind of message has this tag. -/
  | unknownTag (tag : UInt32)
  /-- A whole message takes `expected` of the `actual` bytes. -/
  | trailing (expected actual : Nat)
deriving DecidableEq, Repr

namespace Wire

/-- The two bytes of a word, the most significant first. -/
def bytes16 (w : UInt16) : List UInt8 := [(w >>> 8).toUInt8, w.toUInt8]

/-- The four bytes of a word, the most significant first. -/
def bytes32 (w : UInt32) : List UInt8 :=
  [(w >>> 24).toUInt8, (w >>> 16).toUInt8, (w >>> 8).toUInt8, w.toUInt8]

/-- A word of two bytes from the front of a datagram. -/
def read16 : List UInt8 → Except WireError (UInt16 × List UInt8)
  | a :: b :: rest => .ok (a.toUInt16 <<< 8 ||| b.toUInt16, rest)
  | short => .error (.unexpectedEnd (2 - short.length))

/-- A word of four bytes from the front of a datagram. -/
def read32 : List UInt8 → Except WireError (UInt32 × List UInt8)
  | a :: b :: c :: d :: rest =>
    .ok (a.toUInt32 <<< 24 ||| b.toUInt32 <<< 16 ||| c.toUInt32 <<< 8 ||| d.toUInt32, rest)
  | short => .error (.unexpectedEnd (4 - short.length))

/-- A version from the front of a datagram. -/
def readVersion (bs : List UInt8) : Except WireError (Int16 × List UInt8) := do
  let (w, rest) ← read16 bs
  return (w.toInt16, rest)

/-- A value or a hop count from the front of a datagram. -/
def readValue (bs : List UInt8) : Except WireError (Int32 × List UInt8) := do
  let (w, rest) ← read32 bs
  return (w.toInt32, rest)

end Wire

namespace Message

open Wire

/-- The tag of a kind of message. -/
def Kind.tag : Kind → UInt32
  | announce => 0
  | data => 1
  | beacon => 2
  | control => 3
  | recover => 4

/-- The bytes that a message of a kind takes. -/
def Kind.wireSize : Kind → Nat
  | announce => 4
  | data => 14
  | beacon => 6
  | control => 6
  | recover => 10

/-- The bytes of the fields of a message. -/
def encodeFields : Message → List UInt8
  | announce => []
  | data value version hops =>
    bytes32 value.toUInt32 ++ bytes16 version.toUInt16 ++ bytes32 hops.toUInt32
  | beacon version => bytes16 version.toUInt16
  | control version => bytes16 version.toUInt16
  | recover value version => bytes32 value.toUInt32 ++ bytes16 version.toUInt16

/-- The bytes of a message. -/
def encode (m : Message) : List UInt8 := bytes32 m.kind.tag ++ m.encodeFields

/-- The fields of the message with a tag, and the bytes after them. -/
def decodeFields (tag : UInt32) (bs : List UInt8) : Except WireError (Message × List UInt8) :=
  match tag with
  | 0 => .ok (.announce, bs)
  | 1 => do
    let (value, bs) ← readValue bs
    let (version, bs) ← readVersion bs
    let (hops, bs) ← readValue bs
    return (.data value version hops, bs)
  | 2 => do
    let (version, bs) ← readVersion bs
    return (.beacon version, bs)
  | 3 => do
    let (version, bs) ← readVersion bs
    return (.control version, bs)
  | 4 => do
    let (value, bs) ← readValue bs
    let (version, bs) ← readVersion bs
    return (.recover value version, bs)
  | _ => .error (.unknownTag tag)

/-- The message that a datagram holds. -/
def decode (bs : List UInt8) : Except WireError Message := do
  let (tag, fields) ← read32 bs
  let (m, rest) ← decodeFields tag fields
  if rest.isEmpty then return m
  else throw (.trailing (bs.length - rest.length) bs.length)

end Message

end TokenMesh
