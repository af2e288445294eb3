import TokenMesh.Address
import TokenMesh.Text.Numeral

namespace TokenMesh

/-!
# Reading addresses

The texts that stand for an address.  Octets are decimal without leading zeros, groups have one to
four hexadecimal digits, and the last two groups of an IPv6 address may be written as an IPv4
address.  `::` stands for at least one zero group.  Nothing may be left over: no blanks, and no
second spelling such as a port without its address.
-/

open Text

/-- The text after a given character, if it starts with it. -/
def afterChar? (c : Char) : List Char → Option (List Char)
  | [] => none
  | d :: r => if d = c then some r else none

/-- The value of a reading that leaves nothing over. -/
def whole {α : Type} : Option (α × List Char) → Option α
  | some (a, []) => some a
  | _ => none

namespace Ipv4

/-- An octet: at most three decimal digits, below 256, no leading zero. -/
def octet : NumeralForm where
  base := 10
  bound := 256
  width := some 3
  padded := false

/-- The IPv4 address at the start of a text. -/
def read (cs : List Char) : Option (Ipv4 × List Char) := do
  let (a, cs) ← numeral? octet cs
  let cs ← afterChar? '.' cs
  let (b, cs) ← numeral? octet cs
  let cs ← afterChar? '.' cs
  let (c, cs) ← numeral? octet cs
  let cs ← afterChar? '.' cs
  let (d, cs) ← numeral? octet cs
  return (⟨a.toUInt8, b.toUInt8, c.toUInt8, d.toUInt8⟩, cs)

/-- The upper two octets as a group of an IPv6 address. -/
def high (ip : Ipv4) : UInt16 := ip.a.toUInt16 * 256 + ip.b.toUInt16

/-- The lower two octets as a group of an IPv6 address. -/
def low (ip : Ipv4) : UInt16 := ip.c.toUInt16 * 256 + ip.d.toUInt16

end Ipv4

namespace Ipv6

/-- A group: at most four hexadecimal digits. -/
def group : NumeralForm where
  base := 16
  bound := 65536
  width := some 4
  padded := true

/-- What is left once the separator before a part is taken; the first part has none. -/
def separated? (first : Bool) (cs : List Char) : Option (List Char) :=
  if first then some cs else afterChar? ':' cs

/-- As many groups as a text starts with, but no more than `room`; whether they end in a dotted
    IPv4 address, which takes the room of two; and the text after them. -/
def readGroups : (room : Nat) → (first : Bool) → List Char → List UInt16 × Bool × List Char
  | 0, _, cs => ([], false, cs)
  | room + 1, first, cs =>
    let dotted := if room = 0 then none else (separated? first cs).bind Ipv4.read
    match dotted with
    | some (ip, rest) => ([ip.high, ip.low], true, rest)
    | none =>
      match (separated? first cs).bind (numeral? group) with
      | some (g, rest) =>
        let (gs, ended, rest) := readGroups room false rest
        (g.toUInt16 :: gs, ended, rest)
      | none => ([], false, cs)

/-- The IPv6 address at the start of a text: eight groups, or fewer around one `::`. -/
def read (cs : List Char) : Option (Ipv6 × List Char) :=
  let (front, dotted, rest) := readGroups 8 true cs
  if front.length = 8 then (ofList? front).map (·, rest)
  else if dotted then none
  else do
    let rest ← afterChar? ':' rest
    let rest ← afterChar? ':' rest
    let (back, _, rest) := readGroups (7 - front.length) true rest
    let zeros := List.replicate (8 - front.length - back.length) 0
    let ip ← ofList? (front ++ zeros ++ back)
    return (ip, rest)

end Ipv6

namespace Ip

/-- The IP address that a whole text stands for. -/
def read? (cs : List Char) : Option Ip :=
  match whole (Ipv4.read cs) with
  | some ip => some (.v4 ip)
  | none => (whole (Ipv6.read cs)).map .v6

/-- The IP address that a string stands for. -/
def ofText? (s : String) : Option Ip := read? s.toList

end Ip

namespace Address

/-- A port: any number of decimal digits, below 65536. -/
def portForm : NumeralForm where
  base := 10
  bound := 65536
  width := none
  padded := true

/-- A scope: any number of decimal digits, below 2³². -/
def scopeForm : NumeralForm where
  base := 10
  bound := 4294967296
  width := none
  padded := true

/-- A port after its colon. -/
def readPort (cs : List Char) : Option (UInt16 × List Char) := do
  let cs ← afterChar? ':' cs
  let (n, cs) ← numeral? portForm cs
  return (n.toUInt16, cs)

/-- A scope after its percent sign; zero, with nothing taken, where there is none. -/
def readScope (cs : List Char) : UInt32 × List Char :=
  match (afterChar? '%' cs).bind (numeral? scopeForm) with
  | some (n, rest) => (n.toUInt32, rest)
  | none => (0, cs)

/-- An IPv4 address and its port. -/
def readV4 (cs : List Char) : Option (Address × List Char) := do
  let (ip, cs) ← Ipv4.read cs
  let (port, cs) ← readPort cs
  return (.v4 ip port, cs)

/-- An IPv6 address and its scope in brackets, then its port. -/
def readV6 (cs : List Char) : Option (Address × List Char) := do
  let cs ← afterChar? '[' cs
  let (ip, cs) ← Ipv6.read cs
  let (scope, cs) := readScope cs
  let cs ← afterChar? ']' cs
  let (port, cs) ← readPort cs
  return (.v6 ip scope port, cs)

/-- The address that a whole text stands for. -/
def read? (cs : List Char) : Option Address :=
  match whole (readV4 cs) with
  | some a => some a
  | none => whole (readV6 cs)

/-- The address that a string stands for. -/
def ofText? (s : String) : Option Address := read? s.toList

end Address

end TokenMesh
