import TokenMesh.Token

namespace TokenMesh

/-!
# Messages

What nodes say to each other: `announce` makes the sender known, `data` carries the token along a
walk, `beacon` advertises a version, `control` asks for a newer token and `recover` answers.
-/

/-- A message between neighbors. -/
inductive Message
  | announce
  | data (value : Int32) (version : Int16) (hops : Int32)
  | beacon (version : Int16)
  | control (version : Int16)
  | recover (value : Int32) (version : Int16)
deriving DecidableEq, Repr

/-- The five kinds of message. -/
inductive Message.Kind
  | announce
  | data
  | beacon
  | control
  | recover
deriving DecidableEq, Repr

namespace Message

/-- The name of a kind of message. -/
def Kind.name : Kind → String
  | announce => "announce"
  | data => "data"
  | beacon => "beacon"
  | control => "control"
  | recover => "recover"

/-- The kind of a message. -/
def kind : Message → Kind
  | announce => .announce
  | data .. => .data
  | beacon _ => .beacon
  | control _ => .control
  | recover .. => .recover

/-- The data message that carries a token after some hops. -/
def carry (t : Token) (hops : Int32) : Message := .data t.value t.version hops

/-- The answer that carries a token. -/
def answer (t : Token) : Message := .recover t.value t.version

end Message

end TokenMesh
