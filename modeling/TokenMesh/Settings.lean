import TokenMesh.Error
import TokenMesh.Time

namespace TokenMesh

/-!
# Settings of a node

What the protocol needs to know before a node starts.  Only the role may change later.
-/

/-- The settings of a node.  Spans are in nanoseconds. -/
structure ProtocolSettings where
  role : Role := .relay
  announcePeriod : Nat := Time.ofSecs 15
  /-- From a cold start to the first announcement. -/
  initialAnnounceDelay : Nat := Time.ofSecs 1
  beaconPeriod : Nat := Time.ofSecs 10
  neighborTimeout : Nat := Time.ofSecs 30
  maxNeighbors : Nat := 16
  /-- The most hops of a walk; without it walks go on for ever. -/
  maxHops : Option Int32 := none
  /-- The seed of all random choices; without it they are left to the system. -/
  seed : Option UInt64 := none
deriving DecidableEq, Repr

namespace ProtocolSettings

/-- The first setting that no node can run with, if any. -/
def fault? (s : ProtocolSettings) : Option SettingsError :=
  if s.announcePeriod = 0 then some .zeroAnnouncePeriod
  else if s.beaconPeriod = 0 then some .zeroBeaconPeriod
  else if s.neighborTimeout = 0 then some .zeroNeighborTimeout
  else if s.maxNeighbors = 0 then some .noNeighbors
  else match s.maxHops with
    | some hops => if hops < 0 then some (.negativeHops hops) else none
    | none => none

/-- How far ahead the first announcement and the first beacon lie when a node is switched on. -/
def bootSpans (s : ProtocolSettings) : List Nat := [s.initialAnnounceDelay, s.beaconPeriod]

/-- Settings that a node can run with. -/
def Valid (s : ProtocolSettings) : Prop := s.fault? = none

instance (s : ProtocolSettings) : Decidable s.Valid := by unfold Valid; infer_instance

end ProtocolSettings

end TokenMesh
