import TokenMesh.Controller

namespace TokenMesh

/-!
# Descriptions

One line on the state of a node, for whoever looks into a running program.  The number of neighbors
stands for their table, and an outage shows when it ends, in nanoseconds.
-/

namespace Token

/-- A token in words. -/
def describe (t : Token) : String :=
  s!"Token \x7b value: {t.value.toInt}, version: {t.version.toInt} \x7d"

end Token

namespace Power

/-- A state of power in words. -/
def describe : Power → String
  | on => "On"
  | down restartAt => s!"Down \x7b restart_at: {restartAt} \x7d"

end Power

namespace Node

/-- A node in words. -/
def describe (n : Node) : String :=
  s!"Node \x7b address: {n.address.text}, role: {n.role.title}, token: {n.token.describe}, " ++
    s!"neighbors: {n.neighbors.size}, power: {n.power.describe} \x7d"

end Node

namespace Controller

/-- A node in words, with the address that its transport listens on. -/
def describe (n : Node) (listen : Address) : String :=
  s!"NodeController \x7b node: {n.describe}, local_addr: {listen.text} \x7d"

end Controller

end TokenMesh
