import TokenMesh.Node

namespace TokenMesh

/-!
# Walks

A source puts a new version on its token and hands it to one random neighbor.  Every node that
receives data keeps the newer of the two tokens and, unless it is a sink or the walk has used up
its hops, hands its own copy to another random neighbor.

* `Node.originate`: begin a walk with a new token;
* `Node.onData`: take part in a walk.
-/

namespace Node

/-- The hops of a walk after one more; the count stops at the greatest number it can hold. -/
def nextHops (hops : Int32) : Int32 := if hops = Int32.maxValue then hops else hops + 1

/-- Whether a walk may not go on with the given hops. -/
def overLimit (n : Node) (hops : Int32) : Bool :=
  match n.settings.maxHops with
  | some most => most < hops
  | none => false

/-- The choice of the peer that a walk goes on to, and the node after the draw it takes. -/
def choosePeer (n : Node) : Option Address × Node :=
  let (entry, g) := n.neighbors.pick n.generator
  (entry.map (·.address), { n with generator := g })

/-- Begin a walk with a new token.  Neighbors whose time has come are forgotten first, whatever
    becomes of the request: a node without power refuses, then one that is not a source, then one
    that has used up its versions. -/
def originate (n : Node) (value : Option Int32) (now : Nat) : Reaction × Except Refusal Token :=
  let removed := n.sweepNotices now
  let n := n.sweep now
  let refuse (r : Refusal) : Reaction × Except Refusal Token :=
    ({ node := n, notices := removed }, .error r)
  if n.isDown then refuse .poweredDown
  else if n.role ≠ .source then refuse (.notSource n.role)
  else match n.token.advance? (value.getD n.token.nextValue) with
    | none => refuse .versionExhausted
    | some token =>
      -- the token is kept even if there is nobody to hand it to
      let told := removed ++ [n.report (.originating token)]
      let (peer, n) := { n with token := token }.choosePeer
      match peer with
      | some peer =>
        ({ node := { n with counters := { n.counters with
              dataOriginated := n.counters.dataOriginated + 1 } }
           sends := [.unicast peer (.carry token 0)]
           notices := told }, .ok token)
      | none =>
        ({ node := { n with counters := { n.counters with
              forwardsWithoutNeighbor := n.counters.forwardsWithoutNeighbor + 1 } }
           notices := told ++ [n.report .keptLocally] }, .ok token)

/-- The end of a walk at this node. -/
def absorb (n : Node) (notices : List Notice) : Reaction where
  node := { n with counters := { n.counters with dataAbsorbed := n.counters.dataAbsorbed + 1 } }
  notices := notices

/-- The next step of a walk: the node's own copy of the token, which may be newer than what
    arrived, goes to a random neighbor. -/
def forward (n : Node) (hops : Int32) (notices : List Notice) : Reaction :=
  let token := n.token
  let (peer, n) := n.choosePeer
  match peer with
  | some peer =>
    { node := { n with counters := { n.counters with
        dataForwarded := n.counters.dataForwarded + 1 } }
      sends := [.unicast peer (.carry token hops)]
      notices := notices }
  | none =>
    { node := { n with counters := { n.counters with
        forwardsWithoutNeighbor := n.counters.forwardsWithoutNeighbor + 1 } }
      notices := notices ++ [n.report .nowhereToForward] }

/-- The node that keeps the newer of its token and the one that data brought. -/
def takeData (n : Node) (offered : Token) : Node :=
  { n with
    token := n.token.accept offered
    counters := { n.counters with dataReceived := n.counters.dataReceived + 1 } }

/-- The reports of data that arrived: every arrival, and the first of a version at a sink. -/
def dataNotices (n : Node) (sender : Address) (offered : Token) (hops : Int32) : List Notice :=
  let acceptance := n.token.judge offered
  let arrival := n.report (.dataReceived offered hops sender acceptance)
  if acceptance = .accepted ∧ n.role = .sink then
    [arrival, n.report (.sinkReached offered hops)]
  else [arrival]

/-- Take part in a walk: keep the newer token, then absorb the walk or hand it on. -/
def onData (n : Node) (sender : Address) (offered : Token) (hops : Int32) : Reaction :=
  let notices := n.dataNotices sender offered hops
  let n := n.takeData offered
  if !n.role.forwards then n.absorb notices
  else if n.overLimit (nextHops hops) then n.absorb (notices ++ [n.report .hopLimit])
  else n.forward (nextHops hops) notices

end Node

end TokenMesh
