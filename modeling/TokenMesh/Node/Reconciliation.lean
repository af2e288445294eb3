import TokenMesh.Node

namespace TokenMesh

/-!
# Reconciliation

Neighbors compare versions through beacons.  The one that holds the newer token pushes it, the one
that is behind asks for it, and nothing happens where the versions agree.  A request is always
answered, since the one that asked discards an answer that is not newer.
-/

namespace Node

/-- The node's token on its way to a peer. -/
def sendToken (n : Node) (peer : Address) (h : Happening) : Reaction where
  node := { n with counters := { n.counters with recoversSent := n.counters.recoversSent + 1 } }
  sends := [.unicast peer (.answer n.token)]
  notices := [n.report h]

/-- The node's request for a newer token on its way to a peer. -/
def requestToken (n : Node) (peer : Address) (h : Happening) : Reaction where
  node := { n with counters := { n.counters with controlsSent := n.counters.controlsSent + 1 } }
  sends := [.unicast peer (.control n.token.version)]
  notices := [n.report h]

/-- A peer has told its version: push to one that is behind, ask one that is ahead. -/
def onBeacon (n : Node) (peer : Address) (version : Int16) : Reaction :=
  let ours := n.token.version
  if version < ours then n.sendToken peer (.pushing peer version ours)
  else if ours < version then n.requestToken peer (.requesting peer ours version)
  else { node := n }

/-- A peer has asked for the token. -/
def onControl (n : Node) (peer : Address) (version : Int16) : Reaction :=
  n.sendToken peer (.answering peer version n.token.version)

/-- A peer has sent its token, which is kept if it is newer. -/
def onRecover (n : Node) (peer : Address) (offered : Token) : Reaction :=
  match n.token.judge offered with
  | .accepted =>
    { node := { n with
        token := offered
        counters := { n.counters with recoversAccepted := n.counters.recoversAccepted + 1 } }
      notices := [n.report (.recovered offered peer)] }
  | .stale =>
    { node := { n with counters := { n.counters with
        recoversRejected := n.counters.recoversRejected + 1 } } }

end Node

end TokenMesh
