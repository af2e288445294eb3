import TokenMesh.Text.Word

namespace TokenMesh

/-!
# Roles

A source originates tokens, a relay hands them on, a sink keeps what it gets.  Only a sink does
not forward.
-/

/-- The part a node plays. -/
inductive Role
  | source
  | relay
  | sink
deriving DecidableEq, Repr

namespace Role

/-- All roles. -/
def all : List Role := [source, relay, sink]

/-- Whether a node of this role hands on the data it receives. -/
def forwards : Role → Bool
  | sink => false
  | _ => true

/-- The name of a role in messages and on the command line. -/
def name : Role → String
  | source => "source"
  | relay => "relay"
  | sink => "sink"

/-- The name of a role in saved results. -/
def title : Role → String
  | source => "Source"
  | relay => "Relay"
  | sink => "Sink"

/-- The role that a word names, in either case. -/
def ofText? (s : String) : Option Role := all.find? fun r => Text.isWord r.name s

/-- The role with the given title. -/
def ofTitle? (s : String) : Option Role := all.find? fun r => r.title == s

@[simp] theorem ofTitle?_title (r : Role) : ofTitle? r.title = some r := by
  cases r <;> decide

end Role

end TokenMesh
