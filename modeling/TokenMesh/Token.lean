namespace TokenMesh

/-!
# The token

The one datum that all nodes keep in step: a value and the version that orders it.  Versions are
compared as signed numbers and the greater one wins, so a node's version only grows until the
node loses power.

* `Token.accept`: take over a token that is strictly newer;
* `Token.advance?`: a new value under the next version, unless there is none;
* `Token.initial`: what a node holds before it has heard anything, and after a power loss.
-/

/-- A value and its version. -/
structure Token where
  value : Int32
  version : Int16
deriving DecidableEq, Repr

/-- Whether an offered token was taken over. -/
inductive Acceptance
  | accepted
  | stale
deriving DecidableEq, Repr

namespace Token

/-- What a node holds before it has heard anything. -/
def initial : Token := ⟨0, 0⟩

/-- The greatest version; no token follows it. -/
def lastVersion : Int16 := 32767

/-- What a held token makes of an offered one. -/
def judge (held offered : Token) : Acceptance :=
  if held.version < offered.version then .accepted else .stale

/-- The token held once another has been offered: the offered one if it is strictly newer. -/
def accept (held offered : Token) : Token :=
  match held.judge offered with
  | .accepted => offered
  | .stale => held

/-- A new value under the next version.  Versions never wrap, so none follows the last one. -/
def advance? (held : Token) (value : Int32) : Option Token :=
  if held.version = lastVersion then none else some ⟨value, held.version + 1⟩

/-- The value that follows the held one; values do wrap. -/
def nextValue (held : Token) : Int32 := held.value + 1

theorem accept_of_lt {held offered : Token} (h : held.version < offered.version) :
    held.accept offered = offered := by
  simp [accept, judge, h]

theorem accept_of_not_lt {held offered : Token} (h : ¬ held.version < offered.version) :
    held.accept offered = held := by
  simp [accept, judge, h]

end Token

end TokenMesh
