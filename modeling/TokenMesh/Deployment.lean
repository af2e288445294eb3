import TokenMesh.Address.Reader
import TokenMesh.CommandLine
import TokenMesh.Settings

namespace TokenMesh

/-!
# Deployments

What a node on a real network is started with: the settings of its protocol, the socket it listens
on, whom it reaches, and what it is to do on its own.

* `Deployment`: these settings, with their defaults;
* `Deployment.ofWords`: the deployment that a command line and variables describe;
* `Deployment.fault?`: the first setting that such a node cannot run with.
-/

/-- What a node on a real network is started with. -/
structure Deployment where
  listenAddress : String := "0.0.0.0"
  listenPort : UInt16 := 30001
  role : Role := .relay
  announcePeriodMs : Nat := 15000
  initialAnnounceDelayMs : Nat := 1000
  beaconPeriodMs : Nat := 10000
  neighborTimeoutMs : Nat := 30000
  maxNeighbors : Nat := 16
  maxHops : Option Int32 := none
  multicastGroup : Option Ip := none
  peers : List Address := []
  seed : Option UInt64 := none
  /-- When to originate a token, if at all. -/
  startAfterMs : Option Nat := none
  startValue : Option Int32 := none
  /-- When to simulate a power failure, if at all. -/
  restartAfterMs : Option Nat := none
  restartDelayMs : Nat := 5000
deriving DecidableEq, Repr

/-- The socket of a node and whom it reaches: a multicast group, or a list of peers. -/
structure TransportSettings where
  listen : Address
  multicastGroup : Option Ip
  peers : List Address
deriving DecidableEq, Repr

open Text

namespace Deployment

/-- The settings of the protocol. -/
def protocol (d : Deployment) : ProtocolSettings where
  role := d.role
  announcePeriod := Time.ofMillis d.announcePeriodMs
  initialAnnounceDelay := Time.ofMillis d.initialAnnounceDelayMs
  beaconPeriod := Time.ofMillis d.beaconPeriodMs
  neighborTimeout := Time.ofMillis d.neighborTimeoutMs
  maxNeighbors := d.maxNeighbors
  maxHops := d.maxHops
  seed := d.seed

/-- The address to listen on. -/
def listen (d : Deployment) : Except SettingsError Address :=
  match Ip.ofText? d.listenAddress with
  | some ip => .ok (.ofIp ip d.listenPort)
  | none => .error (.badListenAddress d.listenAddress)

/-- The socket of the node and whom it reaches. -/
def transport (d : Deployment) : Except SettingsError TransportSettings :=
  d.listen.map fun a => ⟨a, d.multicastGroup, d.peers⟩

/-- The complaint about a group that is not a multicast address. -/
def groupFault? (d : Deployment) : Option SettingsError :=
  match d.multicastGroup with
  | some g => if g.isMulticast then none else some (.notMulticast g)
  | none => none

/-- The first setting that a node cannot run with: of its protocol, its address or its group. -/
def fault? (d : Deployment) : Option SettingsError :=
  match d.protocol.fault?, d.listen with
  | some e, _ => some e
  | none, .error e => some e
  | none, .ok _ => d.groupFault?

/-! ### The command line -/

/-- The options that describe a deployment. -/
def choices : List (Choice Deployment) :=
  [ Choice.single "listen-address" some (fun s d => { d with listenAddress := s })
      |>.orVariable "RMHB_LISTEN_ADDRESS" |>.orElse "0.0.0.0"
      |>.saying "IP Address to listen on",
    Choice.single "listen-port" (integerBetween? 0 65535)
      (fun n d => { d with listenPort := n.toNat.toUInt16 })
      |>.orVariable "RMHB_LISTEN_PORT" |>.orElse "30001"
      |>.saying "UDP port to bind the protocol socket to",
    Choice.single "role" Role.ofText? (fun r d => { d with role := r })
      |>.orVariable "RMHB_ROLE" |>.orElse "relay"
      |>.saying "node role: 'source', 'relay', or 'sink'",
    Choice.single "announce-period-ms" (naturalOf? 64) (fun n d => { d with announcePeriodMs := n })
      |>.orVariable "RMHB_ANNOUNCE_PERIOD_MS" |>.orElse "15000"
      |>.saying "Milliseconds between neighbor discovery announcements",
    Choice.single "initial-announce-delay-ms" (naturalOf? 64)
      (fun n d => { d with initialAnnounceDelayMs := n })
      |>.orVariable "RMHB_INITIAL_ANNOUNCE_DELAY_MS" |>.orElse "1000"
      |>.saying "Milliseconds before the first announcement after a (re)start",
    Choice.single "beacon-period-ms" (naturalOf? 64) (fun n d => { d with beaconPeriodMs := n })
      |>.orVariable "RMHB_BEACON_PERIOD_MS" |>.orElse "10000"
      |>.saying "Milliseconds between version beacons",
    Choice.single "neighbor-timeout-ms" (naturalOf? 64)
      (fun n d => { d with neighborTimeoutMs := n })
      |>.orVariable "RMHB_NEIGHBOR_TIMEOUT_MS" |>.orElse "30000"
      |>.saying "Milliseconds a neighbor stays known without a fresh announcement",
    Choice.single "max-neighbors" (naturalOf? 64) (fun n d => { d with maxNeighbors := n })
      |>.orVariable "RMHB_MAX_NEIGHBORS" |>.orElse "16"
      |>.saying "Neighbor table capacity",
    Choice.single "max-hops" int32? (fun n d => { d with maxHops := some n })
      |>.orVariable "RMHB_MAX_HOPS"
      |>.saying "Absorb data instead of relaying past this hop count (default: unlimited)",
    Choice.single "multicast-group" Ip.ofText? (fun g d => { d with multicastGroup := some g })
      |>.orVariable "RMHB_MULTICAST_GROUP"
      |>.saying "IP multicast group for announcements and beacons (e.g., 239.255.30.1)",
    { name := "peers"
      effect := .values fun s d =>
        (Address.ofText? s).map fun a => { d with peers := d.peers ++ [a] }
      variableName := some "RMHB_PEERS"
      about := "Peer UDP addresses used for multicast fan-out when no group is set " ++
        "(e.g., 127.0.0.1:30002,127.0.0.1:30003)" },
    Choice.single "rng-seed" (naturalOf? 64) (fun n d => { d with seed := some n.toUInt64 })
      |>.orVariable "RMHB_RNG_SEED"
      |>.saying "Seed for random neighbor selection",
    Choice.single "start-after-ms" (naturalOf? 64) (fun n d => { d with startAfterMs := some n })
      |>.orVariable "RMHB_START_AFTER_MS"
      |>.saying "Begin dissemination once, this many milliseconds after start (source only)",
    Choice.single "start-value" int32? (fun n d => { d with startValue := some n })
      |>.orVariable "RMHB_START_VALUE"
      |>.saying "Token value to disseminate (default: current value + 1)",
    Choice.single "restart-after-ms" (naturalOf? 64)
      (fun n d => { d with restartAfterMs := some n })
      |>.orVariable "RMHB_RESTART_AFTER_MS"
      |>.saying "Simulate a power failure this many milliseconds after start",
    Choice.single "restart-delay-ms" (naturalOf? 64) (fun n d => { d with restartDelayMs := n })
      |>.orVariable "RMHB_RESTART_DELAY_MS" |>.orElse "5000"
      |>.saying "Milliseconds a simulated power failure lasts" ]

/-- The deployment that the words of a command line and variables describe. -/
def ofWords (env : String → Option String) (words : List String) :
    Except Stop Deployment :=
  CommandLine.parse choices {} env words

/-- The name of the program. -/
def program : String := "rmhb"

/-- The name and version of the program. -/
def title : String := program ++ " 0.1.0"

/-- The outcome of a start that does not get as far as opening a socket; none where it does. -/
def outcome? (env : String → Option String) (words : List String) : Option Outcome :=
  match ofWords env words with
  | .error s => some (.ofStop title (CommandLine.help program choices env) s)
  | .ok d => d.fault?.map fun e => .failure (Error.settings e).message

end Deployment

end TokenMesh
