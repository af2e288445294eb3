import TokenMesh.Address
import TokenMesh.Text.Numeral

namespace TokenMesh

/-!
# The text of an address

IPv4 addresses are written as four decimal octets.  IPv6 addresses are written in their shortest
form: groups in lower case hexadecimal without leading zeros, and the longest run of two or more
zero groups (the first of equals) as `::`.  A mapped IPv4 address keeps its dotted form after
`::ffff:`.  Inside an `Address` an IPv6 address stands in brackets, with its scope after a percent
sign unless that is zero.
-/

open Text

namespace Ipv4

/-- Four decimal octets with dots between them. -/
def print (ip : Ipv4) : List Char :=
  decimal ip.a.toNat ++ '.' :: decimal ip.b.toNat ++ '.' :: decimal ip.c.toNat ++
    '.' :: decimal ip.d.toNat

end Ipv4

namespace Ipv6

/-- How many zero groups a list starts with. -/
def leadingZeros (gs : List UInt16) : Nat := (gs.takeWhile (· == 0)).length

/-- The first longest run of zero groups: where it starts, and how long it is. -/
def longestRun (gs : List UInt16) : Nat × Nat :=
  (List.range gs.length).foldl
    (fun best i =>
      let n := leadingZeros (gs.drop i)
      if best.2 < n then (i, n) else best)
    (0, 0)

/-- Groups in hexadecimal with colons between them. -/
def printGroups (gs : List UInt16) : List Char :=
  List.intercalate [':'] (gs.map fun g => hexadecimal g.toNat)

/-- The shortest form of an IPv6 address. -/
def print (ip : Ipv6) : List Char :=
  match ip.mapped? with
  | some inner => "::ffff:".toList ++ inner.print
  | none =>
    let gs := ip.toList
    let (start, length) := longestRun gs
    if 1 < length then
      printGroups (gs.take start) ++ ':' :: ':' :: printGroups (gs.drop (start + length))
    else printGroups gs

end Ipv6

namespace Ip

/-- The text of an IP address. -/
def print : Ip → List Char
  | v4 ip => ip.print
  | v6 ip => ip.print

/-- The text of an IP address, as a string. -/
def text (ip : Ip) : String := String.ofList ip.print

end Ip

namespace Address

/-- The text of an address: host, colon, port. -/
def print : Address → List Char
  | v4 ip port => ip.print ++ ':' :: decimal port.toNat
  | v6 ip scope port =>
    let zone := if scope == 0 then [] else '%' :: decimal scope.toNat
    '[' :: ip.print ++ zone ++ ']' :: ':' :: decimal port.toNat

/-- The text of an address, as a string. -/
def text (a : Address) : String := String.ofList a.print

end Address

end TokenMesh
