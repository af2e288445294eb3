namespace TokenMesh

/-!
# Addresses

What a node is known by: an IP address and a port, and for IPv6 the scope that a link-local
address belongs to.

* `Ipv4`, `Ipv6`, `Ip`: the two families and their sum;
* `Address`: where a datagram comes from or goes to;
* `Ip.isMulticast`: the groups that one datagram can be sent to.

Addresses of different families are never equal, not even an IPv4 address and its mapped form.
-/

/-- An IPv4 address: four octets, the most significant first. -/
structure Ipv4 where
  a : UInt8
  b : UInt8
  c : UInt8
  d : UInt8
deriving DecidableEq, Repr

/-- An IPv6 address: eight groups of sixteen bits, the most significant first. -/
structure Ipv6 where
  groups : Vector UInt16 8
deriving DecidableEq, Repr

/-- An IP address of either family. -/
inductive Ip
  | v4 (ip : Ipv4)
  | v6 (ip : Ipv6)
deriving DecidableEq, Repr

/-- Where a datagram comes from or goes to. -/
inductive Address
  | v4 (ip : Ipv4) (port : UInt16)
  | v6 (ip : Ipv6) (scope : UInt32) (port : UInt16)
deriving DecidableEq, Repr

namespace Ipv4

/-- The multicast groups of IPv4 are 224.0.0.0 to 239.255.255.255. -/
def isMulticast (ip : Ipv4) : Bool := 224 ≤ ip.a && ip.a ≤ 239

end Ipv4

namespace Ipv6

/-- The eight groups in order. -/
def toList (ip : Ipv6) : List UInt16 := ip.groups.toList

/-- The address with the given groups, if there are eight of them. -/
def ofList? (gs : List UInt16) : Option Ipv6 :=
  if h : gs.length = 8 then some ⟨⟨gs.toArray, by simpa using h⟩⟩ else none

/-- The multicast groups of IPv6 are those whose first eight bits are set. -/
def isMulticast (ip : Ipv6) : Bool := ip.groups[0] / 256 == 255

/-- The IPv4 address that a mapped address carries: five groups of zeros, then all ones. -/
def mapped? (ip : Ipv6) : Option Ipv4 :=
  match ip.toList with
  | [0, 0, 0, 0, 0, 0xffff, g, h] =>
    some ⟨(g / 256).toUInt8, (g % 256).toUInt8, (h / 256).toUInt8, (h % 256).toUInt8⟩
  | _ => none

@[simp] theorem length_toList (ip : Ipv6) : ip.toList.length = 8 := by simp [toList]

@[simp] theorem ofList?_toList (ip : Ipv6) : ofList? ip.toList = some ip := by
  obtain ⟨⟨gs, h⟩⟩ := ip
  simp [ofList?, toList, Vector.toList, h]

end Ipv6

namespace Ip

/-- Whether an address names a multicast group. -/
def isMulticast : Ip → Bool
  | v4 ip => ip.isMulticast
  | v6 ip => ip.isMulticast

end Ip

namespace Address

/-- The address of a port of an IP address, outside any scope. -/
def ofIp : Ip → UInt16 → Address
  | .v4 ip, port => .v4 ip port
  | .v6 ip, port => .v6 ip 0 port

end Address

end TokenMesh
