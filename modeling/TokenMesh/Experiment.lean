import TokenMesh.CommandLine
import TokenMesh.Network.Run
import TokenMesh.Saved.Network
import TokenMesh.Text.Real

namespace TokenMesh

/-!
# Experiments

One simulated run from beginning to end: a network of a given shape with one source and one sink,
in which the source originates one token, and what is said about the network when time is up.

* `Experiment`: what an experiment is made of, with its defaults;
* `Experiment.ofWords`: the experiment that a command line describes;
* `Experiment.fault?`: why an experiment cannot be run;
* `Experiment.run`: the run;
* `Experiment.outcome`: what the program that runs experiments leaves behind.
-/

open Text

/-- What an experiment is made of. -/
structure Experiment where
  nodes : Nat := 16
  shape : Shape := .grid
  lossRate : Binary64 := .zero
  linkDelayMs : Nat := 5
  seed : UInt64 := 1
  durationSecs : Nat := 600
  source : Nat := 0
  /-- The sink, which is the last node unless another one is named. -/
  sink : Option Nat := none
  /-- When the source originates its token. -/
  startAtSecs : Nat := 30
  announcePeriodMs : Nat := 15000
  beaconPeriodMs : Nat := 10000
  neighborTimeoutMs : Nat := 30000
  maxHops : Option Int32 := none
  /-- A relay crashes once in so many failure ticks; zero stands for no failures. -/
  failureProbability : Nat := 0
  failureMode : FailureMode := .random
  failureTickSecs : Nat := 10
  /-- The most nodes that are without power at once. -/
  maxFailures : Nat := 1
  recoveryDelaySecs : Nat := 30
  /-- Whether the result is spread over several lines. -/
  pretty : Bool := false
deriving DecidableEq, Repr

/-- Why an experiment cannot be run. -/
inductive ExperimentFault
  | tooFewNodes
  | noSuchEnd (nodes : Nat)
  | oneEnd
  | noFailureTick
  | settings (e : SettingsError)
deriving DecidableEq, Repr

namespace ExperimentFault

/-- The wording of a complaint about an experiment. -/
def message : ExperimentFault → String
  | tooFewNodes => "a simulation needs at least 2 nodes"
  | noSuchEnd nodes => s!"source and sink must be below --nodes ({nodes})"
  | oneEnd => "source and sink must be different nodes"
  | noFailureTick => "--failure-tick-secs must be non-zero when failures are enabled"
  | settings e => (Error.settings e).message

end ExperimentFault

namespace Experiment

/-- The index of the sink. -/
def sinkIndex (x : Experiment) : Nat := x.sink.getD (x.nodes - 1)

/-- The settings of all nodes. -/
def protocol (x : Experiment) : ProtocolSettings where
  announcePeriod := Time.ofMillis x.announcePeriodMs
  beaconPeriod := Time.ofMillis x.beaconPeriodMs
  neighborTimeout := Time.ofMillis x.neighborTimeoutMs
  maxHops := x.maxHops

/-- The first reason why an experiment cannot be run. -/
def fault? (x : Experiment) : Option ExperimentFault :=
  if x.nodes < 2 then some .tooFewNodes
  else if x.nodes ≤ x.source ∨ x.nodes ≤ x.sinkIndex then some (.noSuchEnd x.nodes)
  else if x.source = x.sinkIndex then some .oneEnd
  else if 0 < x.failureProbability ∧ x.failureTickSecs = 0 then some .noFailureTick
  else x.protocol.fault?.map .settings

/-- The links between the nodes. -/
def topology (x : Experiment) : Topology :=
  ((Topology.build x.shape x.nodes).setLossRate x.lossRate).withDelay (Time.ofMillis x.linkDelayMs)

/-- How failures are injected, if they are. -/
def failures? (x : Experiment) : Option FailureConfig :=
  if x.failureProbability = 0 then none
  else some
    { mode := x.failureMode
      tick := Time.ofSecs x.failureTickSecs
      probability := x.failureProbability
      maxConcurrent := x.maxFailures
      recoveryDelay := Time.ofSecs x.recoveryDelaySecs }

/-- The network before its first event. -/
def network (x : Experiment) : Network :=
  let net := Network.build x.topology x.protocol x.seed
  let net := (net.setRole x.source .source).setRole x.sinkIndex .sink
  let net := match x.failures? with
    | some f => net.withFailures f
    | none => net
  net.plan (Time.ofSecs x.startAtSecs) (.originate x.source none)

/-- The network when time is up. -/
def run (x : Experiment) : Except Breakdown Network :=
  x.network.runUntil (Time.ofSecs x.durationSecs) Network.ampleBudget

/-! ### The command line -/

/-- The options that describe an experiment. -/
def choices : List (Choice Experiment) :=
  [ Choice.single "nodes" (naturalOf? 64) (fun n x => { x with nodes := n })
      |>.orElse "16" |>.saying "Number of simulated nodes",
    Choice.single "topology" Shape.ofText? (fun k x => { x with shape := k })
      |>.orElse "grid" |>.saying "Topology: 'line', 'ring', 'grid' or 'full'",
    Choice.single "loss-rate" (fun s => real? s.toList) (fun r x => { x with lossRate := r })
      |>.orElse "0.0" |>.saying "Per-delivery loss probability",
    Choice.single "link-delay-ms" (naturalOf? 64) (fun n x => { x with linkDelayMs := n })
      |>.orElse "5" |>.saying "One-hop delivery delay in milliseconds",
    Choice.single "seed" (naturalOf? 64) (fun n x => { x with seed := n.toUInt64 })
      |>.orElse "1" |>.saying "Seed for the whole run",
    Choice.single "duration-secs" (naturalOf? 64) (fun n x => { x with durationSecs := n })
      |>.orElse "600" |>.saying "Simulated seconds to run",
    Choice.single "source" (naturalOf? 64) (fun n x => { x with source := n })
      |>.orElse "0" |>.saying "Index of the source node",
    Choice.single "sink" (naturalOf? 64) (fun n x => { x with sink := some n })
      |>.saying "Index of the sink node (default: last node)",
    Choice.single "start-at-secs" (naturalOf? 64) (fun n x => { x with startAtSecs := n })
      |>.orElse "30" |>.saying "Seconds until the source begins dissemination",
    Choice.single "announce-period-ms" (naturalOf? 64) (fun n x => { x with announcePeriodMs := n })
      |>.orElse "15000",
    Choice.single "beacon-period-ms" (naturalOf? 64) (fun n x => { x with beaconPeriodMs := n })
      |>.orElse "10000",
    Choice.single "neighbor-timeout-ms" (naturalOf? 64)
      (fun n x => { x with neighborTimeoutMs := n })
      |>.orElse "30000",
    Choice.single "max-hops" int32? (fun n x => { x with maxHops := some n })
      |>.saying "Relay hop ceiling (default: unlimited)",
    Choice.single "failure-probability" (integerBetween? 0 4294967295)
      (fun n x => { x with failureProbability := n.toNat })
      |>.orElse "0"
      |>.saying "Crash a relay on a failure tick with probability 1/N (0 disables failures)",
    Choice.single "failure-mode" FailureMode.ofText? (fun m x => { x with failureMode := m })
      |>.orElse "random"
      |>.saying "Which relay fails: 'random', or 'location' (next to a failed node)",
    Choice.single "failure-tick-secs" (naturalOf? 64) (fun n x => { x with failureTickSecs := n })
      |>.orElse "10" |>.saying "Seconds between failure ticks",
    Choice.single "max-failures" (naturalOf? 64) (fun n x => { x with maxFailures := n })
      |>.orElse "1" |>.saying "Most relays down at once",
    Choice.single "recovery-delay-secs" (naturalOf? 64)
      (fun n x => { x with recoveryDelaySecs := n })
      |>.orElse "30" |>.saying "Seconds a crashed relay stays down",
    { name := "pretty"
      effect := .flag fun x => { x with pretty := true }
      about := "Pretty-print the JSON result" } ]

/-- The experiment that the words of a command line describe. -/
def ofWords (words : List String) : Except Stop Experiment :=
  CommandLine.parse choices {} (fun _ => none) words

/-- The name of the program. -/
def program : String := "rmhb-sim"

/-- The name and version of the program. -/
def title : String := program ++ " 0.1.0"

/-- The result of a run as it is printed. -/
def report (x : Experiment) (s : Summary) : String :=
  (if x.pretty then Saved.block s else Saved.text s) ++ "\n"

/-- The outcome of the program that runs experiments. -/
def outcome (words : List String) : Outcome :=
  match ofWords words with
  | .error s => .ofStop title (CommandLine.help program choices fun _ => none) s
  | .ok x =>
    match x.fault? with
    | some e => .failure e.message
    | none =>
      match x.run with
      | .ok net => { code := 0, output := x.report net.summary }
      | .error _ => { code := 101 }

end Experiment

end TokenMesh
