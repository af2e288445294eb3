namespace TokenMesh

/-!
# Command lines

Options on a command line, and variables that stand in for those that are not given.

* `Choice`: one option of a program that collects its settings in a value of type `σ`;
* `CommandLine.parse`: the settings that words and variables choose;
* `CommandLine.help`: what a program says about its options;
* `Stop`, `Misuse`: why there are no settings;
* `Outcome`: what a program leaves behind.

An option is written `--name value` or `--name=value`.  A value that follows as a word of its own
may not start with a dash, unless it is nothing but a dash, and is not looked at before the next
option or the end.  A word `--` ends the options, and no other words are known.
-/

/-- What is wrong with a command line. -/
inductive Misuse
  | unknownArgument
  /-- An option without its value. -/
  | missingValue
  /-- A value that an option does not accept. -/
  | badValue
  /-- An option that is given twice. -/
  | conflict
  /-- A value for an option that takes none. -/
  | surplusValue
deriving DecidableEq, Repr

/-- Why a command line leads to no settings. -/
inductive Stop
  | help
  | version
  | misuse (m : Misuse)
deriving DecidableEq, Repr

namespace Stop

/-- The exit code of a program that stops at its command line. -/
def code : Stop → Nat
  | misuse _ => 2
  | _ => 0

end Stop

/-- What a program leaves behind. -/
structure Outcome where
  /-- The exit code. -/
  code : Nat
  output : String := ""
  /-- What stands on the error output, less the end of its last line. -/
  complaint : Option String := none
deriving DecidableEq, Repr

namespace Outcome

/-- The outcome of a program that refuses to go on. -/
def failure (text : String) : Outcome where
  code := 1
  complaint := some s!"Error: {text}"

/-- The outcome of a program that stops at its command line; `title` is its name and version, and
    `help` what it says about its options. -/
def ofStop (title help : String) (s : Stop) : Outcome where
  code := s.code
  output := match s with
    | .help => help
    | .version => title ++ "\n"
    | .misuse _ => ""

/-- The first line of a text; a carriage return before the end of a line belongs to that end. -/
def firstLine (text : String) : String :=
  let line := text.toList.takeWhile (· != '\n')
  String.ofList (if line.getLast? = some '\r' then line.dropLast else line)

/-- The first line on the error output. -/
def complaintLine (o : Outcome) : Option String := o.complaint.map firstLine

end Outcome

/-- What an option does to the settings. -/
inductive Effect (σ : Type)
  /-- It takes no value. -/
  | flag (set : σ → σ)
  /-- It takes one value, which it may refuse. -/
  | value (set : String → σ → Option σ)
  /-- It takes values between commas, and may be given again for more of them. -/
  | values (add : String → σ → Option σ)

/-- An option of a program. -/
structure Choice (σ : Type) where
  name : String
  effect : Effect σ
  /-- The variable that stands in for the option where it is not given. -/
  variableName : Option String := none
  /-- What is said about the option; nothing if it speaks for itself. -/
  about : String := ""
  /-- The value that counts where neither the option nor its variable is given. -/
  default : Option String := none

namespace Choice

/-- An option with one value, which is read and put into the settings. -/
def single {σ α : Type} (name : String) (read : String → Option α) (put : α → σ → σ) :
    Choice σ :=
  { name := name, effect := .value fun text s => (read text).map fun a => put a s }

/-- The option with a variable that stands in for it. -/
def orVariable {σ : Type} (c : Choice σ) (name : String) : Choice σ :=
  { c with variableName := some name }

/-- The option with a value that counts where nothing is given. -/
def orElse {σ : Type} (c : Choice σ) (default : String) : Choice σ :=
  { c with default := some default }

/-- The option with something said about it. -/
def saying {σ : Type} (c : Choice σ) (about : String) : Choice σ := { c with about := about }

/-- How an option is written: its name, and then its value under the same name in capitals. -/
def usage {σ : Type} (c : Choice σ) : String :=
  match c.effect with
  | .flag _ => "--" ++ c.name
  | _ => "--" ++ c.name ++ " <" ++ (c.name.map fun d => if d = '-' then '_' else d.toUpper) ++ ">"

/-- All that is said about an option: its own text, its variable with the present value, and the
    value that counts where nothing is given. -/
def remarks {σ : Type} (env : String → Option String) (c : Choice σ) : List String :=
  (if c.about.isEmpty then [] else [c.about]) ++
    (match c.variableName with
      | some v => ["[env: " ++ v ++ "=" ++ (env v).getD "" ++ "]"]
      | none => []) ++
    (match c.default with
      | some d => ["[default: " ++ d ++ "]"]
      | none => [])

end Choice

/-- A word on a command line before `--`. -/
inductive Argument
  | endOfOptions
  | long (name : String) (attached : Option String)
  /-- A dash and more characters, each an option of its own; the first one counts. -/
  | short (c : Char)
  | plain (text : String)
deriving DecidableEq, Repr

namespace Argument

/-- A long option split at its first equals sign. -/
def ofLong (cs : List Char) : Argument :=
  let name := String.ofList (cs.takeWhile (· != '='))
  match cs.dropWhile (· != '=') with
  | [] => long name none
  | _ :: value => long name (some (String.ofList value))

/-- A word by its dashes. -/
def ofText (s : String) : Argument :=
  match s.toList with
  | ['-', '-'] => endOfOptions
  | '-' :: '-' :: cs => ofLong cs
  | '-' :: c :: _ => short c
  | _ => plain s

end Argument

/-- How far the words of a command line have been taken in. -/
structure CommandLine (σ : Type) where
  settings : σ
  /-- The names of the options that took effect. -/
  given : List String := []
  /-- An option that is not looked at yet, and the value that follows it if it came already. -/
  pending : Option (Choice σ × Option String) := none

namespace CommandLine

variable {σ : Type}

/-- An option takes effect.  A missing value comes before a repetition, and a repetition before a
    value that is not accepted. -/
def take (cl : CommandLine σ) (c : Choice σ) (value : Option String) :
    Except Stop (CommandLine σ) :=
  let again := cl.given.contains c.name
  let accept (result : Option σ) : Except Stop (CommandLine σ) :=
    match result with
    | some s => .ok { cl with settings := s, given := c.name :: cl.given }
    | none => .error (.misuse .badValue)
  match c.effect, value with
  | .flag set, _ => if again then .error (.misuse .conflict) else accept (some (set cl.settings))
  | .value _, none => .error (.misuse .missingValue)
  | .value set, some v =>
    if again then .error (.misuse .conflict) else accept (set v cl.settings)
  | .values _, none => .error (.misuse .missingValue)
  | .values add, some v => accept ((v.splitOn ",").foldlM (fun s part => add part s) cl.settings)

/-- The option that is not looked at yet takes effect. -/
def settle (cl : CommandLine σ) : Except Stop (CommandLine σ) :=
  match cl.pending with
  | some (c, value) => { cl with pending := none }.take c value
  | none => .ok cl

/-- A long option.  That it is unknown, or that it takes no value, comes before all that is wrong
    with the option before it. -/
def takeLong (choices : List (Choice σ)) (cl : CommandLine σ) (name : String)
    (attached : Option String) : Except Stop (CommandLine σ) :=
  -- help and version end the reading once the option before them is accepted
  let stop (s : Stop) : Except Stop (CommandLine σ) :=
    if attached.isSome then .error (.misuse .surplusValue)
    else cl.settle.bind fun _ => .error s
  if name = "help" then stop .help
  else if name = "version" then stop .version
  else match choices.find? fun c => c.name == name with
    | none => .error (.misuse .unknownArgument)
    | some c =>
      match c.effect, attached with
      | .flag _, some _ => .error (.misuse .surplusValue)
      | .flag _, none => cl.settle.bind fun cl => cl.take c none
      | _, some v => cl.settle.bind fun cl => cl.take c (some v)
      | _, none => cl.settle.map fun cl => { cl with pending := some (c, none) }

/-- A short option: `-h` and `-V` are all there are. -/
def takeShort (cl : CommandLine σ) (c : Char) : Except Stop (CommandLine σ) :=
  if c = 'h' then cl.settle.bind fun _ => .error .help
  else if c = 'V' then cl.settle.bind fun _ => .error .version
  else .error (.misuse .unknownArgument)

/-- A word without dashes: the value of the option before it. -/
def takePlain (cl : CommandLine σ) (text : String) : Except Stop (CommandLine σ) :=
  match cl.pending with
  | some (c, none) => .ok { cl with pending := some (c, some text) }
  | _ => .error (.misuse .unknownArgument)

/-- All words of a command line. -/
def takeWords (choices : List (Choice σ)) (cl : CommandLine σ) :
    List String → Except Stop (CommandLine σ)
  | [] => cl.settle
  | word :: words =>
    match Argument.ofText word with
    | .endOfOptions => if words.isEmpty then cl.settle else .error (.misuse .unknownArgument)
    | .long name attached => (cl.takeLong choices name attached).bind (takeWords choices · words)
    | .short c => (cl.takeShort c).bind (takeWords choices · words)
    | .plain text => (cl.takePlain text).bind (takeWords choices · words)

/-- A variable stands in for an option that was not given. -/
def takeVariable (env : String → Option String) (cl : CommandLine σ) (c : Choice σ) :
    Except Stop (CommandLine σ) :=
  if cl.given.contains c.name then .ok cl
  else match c.variableName.bind env with
    | some v => cl.take c (some v)
    | none => .ok cl

/-- An option and what is said about it, on a line each. -/
def helpEntry (usage : String) (remarks : List String) : String :=
  "  " ++ usage ++ "\n          " ++ " ".intercalate remarks ++ "\n"

/-- What a program says about its options. -/
def help (program : String) (choices : List (Choice σ)) (env : String → Option String) : String :=
  "Usage: " ++ program ++ " [OPTIONS]\n\nOptions:\n" ++
    String.join (choices.map fun c => helpEntry ("    " ++ c.usage) (c.remarks env)) ++
    helpEntry "-h, --help" ["Print help"] ++ helpEntry "-V, --version" ["Print version"]

/-- The settings that words and variables choose, starting from the default ones. -/
def parse (choices : List (Choice σ)) (default : σ) (env : String → Option String)
    (words : List String) : Except Stop σ := do
  let cl ← takeWords choices { settings := default } words
  let cl ← choices.foldlM (takeVariable env) cl
  return cl.settings

end CommandLine

end TokenMesh
