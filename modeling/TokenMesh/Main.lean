import TokenMesh.Deployment
import TokenMesh.Experiment

/-!
# The program

`simulate` runs an experiment and prints what is said about it, `check` takes the command line of a
node on a real network and says whether it could be started.
-/

namespace TokenMesh.Main

/-- What the program does if its first word is neither of the two. -/
def usage : Outcome where
  code := 2
  complaint := some "usage: simulate [options], or check [options]"

/-- The outcome of the program. -/
def outcome (env : String → Option String) : List String → Outcome
  | "simulate" :: words => Experiment.outcome words
  | "check" :: words => (Deployment.outcome? env words).getD { code := 0 }
  | _ => usage

/-- The variables that a deployment looks at, with their values. -/
def environment : IO (String → Option String) := do
  let names := Deployment.choices.filterMap fun c => c.variableName
  let found ← names.mapM fun name => return (name, ← IO.getEnv name)
  return fun name => (found.lookup name).join

end TokenMesh.Main

open TokenMesh in
/-- The program: output, complaint and exit code are those of the outcome. -/
def main (words : List String) : IO UInt32 := do
  let result := Main.outcome (← Main.environment) words
  IO.print result.output
  if let some line := result.complaint then IO.eprintln line
  return result.code.toUInt32
