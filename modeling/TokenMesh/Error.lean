import TokenMesh.Address.Printer
import TokenMesh.Message.Wire
import TokenMesh.Role
import TokenMesh.Text.Quoted

namespace TokenMesh

/-!
# Errors

Everything that can be refused or go wrong, as causes.  The wording is in this module and nowhere
else.

* `Refusal`: what a node declines to do in its present state;
* `SettingsError`: a setting that no node can run with;
* `Error`: the above, with the failures of the codec, the transport and the channels;
* `Error.chain`: the text of an error, then those of the causes below it.
-/

/-- What a node declines to do in its present state. -/
inductive Refusal
  /-- Only a source originates tokens. -/
  | notSource (role : Role)
  /-- No version follows the one that is held. -/
  | versionExhausted
  /-- The radio is off until a restart. -/
  | poweredDown
  /-- A restart is due already. -/
  | restartPending
deriving DecidableEq, Repr

/-- A setting that no node can run with. -/
inductive SettingsError
  | zeroAnnouncePeriod
  | zeroBeaconPeriod
  | zeroNeighborTimeout
  | noNeighbors
  | negativeHops (hops : Int32)
  | badListenAddress (text : String)
  | notMulticast (group : Ip)
  /-- Any other complaint, in its own words. -/
  | other (text : String)
deriving DecidableEq, Repr

/-- A failure to write or to read a message. -/
inductive CodecError
  | wire (e : WireError)
  /-- A complaint of the writer, in its own words. -/
  | encoding (text : String)
  /-- A complaint of the reader, in its own words. -/
  | decoding (text : String)
deriving DecidableEq, Repr

/-- Everything that can be refused or go wrong. -/
inductive Error
  | settings (e : SettingsError)
  | transport (text : String)
  | system (text : String)
  | codec (e : CodecError)
  | refusal (r : Refusal)
  | concurrency (text : String)
deriving DecidableEq, Repr

namespace Refusal

/-- The wording of a refusal. -/
def message : Refusal → String
  | notSource role => s!"node is a {role.name} and cannot originate data"
  | versionExhausted => "token version counter exhausted"
  | poweredDown => "node is powered down"
  | restartPending => "a restart is already scheduled"

end Refusal

namespace SettingsError

/-- The wording of a complaint about settings. -/
def message : SettingsError → String
  | zeroAnnouncePeriod => "announce period must be non-zero"
  | zeroBeaconPeriod => "beacon period must be non-zero"
  | zeroNeighborTimeout => "neighbor timeout must be non-zero"
  | noNeighbors => "max neighbors must be at least 1"
  | negativeHops hops => s!"max hops must not be negative: {hops.toInt}"
  | badListenAddress text => s!"Invalid listen address '{text}': invalid IP address syntax"
  | notMulticast group => s!"{group.text} is not a multicast address"
  | other text => text

end SettingsError

namespace CodecError

/-- The innermost description of a codec failure, if it has one below its own text. -/
def cause? : CodecError → Option String
  | wire (.unexpectedEnd missing) => some s!"UnexpectedEnd \x7b additional: {missing} \x7d"
  | wire (.unknownTag tag) =>
    some <| "UnexpectedVariant \x7b type_name: \"Message\", " ++
      "allowed: Range \x7b min: 0, max: 4 \x7d" ++
      s!", found: {tag.toNat} \x7d"
  | wire (.trailing _ _) => none
  | encoding text => some s!"OtherString({Text.quoted text})"
  | decoding text => some s!"OtherString({Text.quoted text})"

/-- The wording of a codec failure. -/
def message (e : CodecError) : String :=
  match e with
  | wire (.trailing expected actual) =>
    s!"trailing bytes: message is {expected} bytes, datagram is {actual}"
  | encoding _ => "encode: " ++ e.cause?.getD ""
  | _ => "decode: " ++ e.cause?.getD ""

end CodecError

namespace Error

/-- The wording of an error. -/
def message : Error → String
  | settings e => s!"Configuration error: {e.message}"
  | transport text => s!"Transport error: {text}"
  | system text => s!"I/O error: {text}"
  | codec e => s!"Codec error: {e.message}"
  | refusal r => s!"Protocol error: {r.message}"
  | concurrency text => s!"Concurrency error: {text}"

/-- The texts of the causes below an error, the nearest first. -/
def causes : Error → List String
  | settings _ => []
  | transport _ => []
  | system text => [text]
  | codec e => e.message :: e.cause?.toList
  | refusal r => [r.message]
  | concurrency _ => []

/-- The text of an error and those of all causes below it. -/
def chain (e : Error) : List String := e.message :: e.causes

/-- The text of the nearest cause. -/
def source? (e : Error) : Option String := e.causes.head?

/-- The error of a datagram that holds no message. -/
def ofWire (e : WireError) : Error := .codec (.wire e)

end Error

end TokenMesh
