import TokenMesh.Address
import TokenMesh.Random

namespace TokenMesh

/-!
# The neighbor table

The peers that a node has heard from lately, in the order in which they were first heard.  An
announcement enters its sender or renews its entry; an entry that is not renewed in time expires.
A full table takes no new peer: nothing is evicted to make room.

* `NeighborTable.announce`: hear an announcement;
* `NeighborTable.expire`: drop the entries whose time has come;
* `NeighborTable.pick`: choose an entry at random.
-/

/-- A peer and the instant at which it is forgotten. -/
structure Neighbor where
  address : Address
  expiry : Nat
deriving DecidableEq, Repr

/-- The peers heard from lately. -/
structure NeighborTable where
  entries : List Neighbor
  /-- The most peers that are kept. -/
  capacity : Nat
  /-- How long a peer is kept after it was last heard. -/
  timeout : Nat
deriving DecidableEq, Repr

/-- What became of an announcement. -/
inductive AnnounceOutcome
  | inserted
  | refreshed
  | dropped
deriving DecidableEq, Repr

namespace NeighborTable

/-- A table without peers. -/
def empty (capacity timeout : Nat) : NeighborTable := ⟨[], capacity, timeout⟩

/-- The addresses of the peers, the longest known first. -/
def addresses (t : NeighborTable) : List Address := t.entries.map (·.address)

/-- How many peers there are. -/
def size (t : NeighborTable) : Nat := t.entries.length

/-- Whether there are no peers. -/
def isEmpty (t : NeighborTable) : Bool := t.entries.isEmpty

/-- The entry of a peer. -/
def get? (t : NeighborTable) (a : Address) : Option Neighbor :=
  t.entries.find? fun e => e.address == a

/-- Whether a peer is known. -/
def contains (t : NeighborTable) (a : Address) : Bool := t.entries.any fun e => e.address == a

/-- What becomes of an announcement: a known sender is renewed, an unknown one is entered as long
    as there is room. -/
def outcome (t : NeighborTable) (sender : Address) : AnnounceOutcome :=
  if t.contains sender then .refreshed
  else if t.size < t.capacity then .inserted
  else .dropped

/-- The table after an announcement heard at `now`. -/
def announce (t : NeighborTable) (sender : Address) (now : Nat) : NeighborTable :=
  let entry : Neighbor := ⟨sender, now + t.timeout⟩
  match t.outcome sender with
  | .refreshed =>
    { t with entries := t.entries.map fun e => if e.address = sender then entry else e }
  | .inserted => { t with entries := t.entries ++ [entry] }
  | .dropped => t

/-- The entries whose time has come. -/
def due (t : NeighborTable) (now : Nat) : List Neighbor :=
  t.entries.filter fun e => e.expiry ≤ now

/-- The table without the entries whose time has come. -/
def expire (t : NeighborTable) (now : Nat) : NeighborTable :=
  { t with entries := t.entries.filter fun e => now < e.expiry }

/-- A peer chosen at random; none, and nothing drawn, where no peer is known. -/
def pick (t : NeighborTable) (g : Generator) : Option Neighbor × Generator :=
  match g.below? t.size with
  | some (i, g) => (t.entries[i]?, g)
  | none => (none, g)

/-- The table without any peer. -/
def clear (t : NeighborTable) : NeighborTable := { t with entries := [] }

end NeighborTable

end TokenMesh
