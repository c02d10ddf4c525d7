import DtoGen.Command.Arguments
import DtoGen.Generate
import DtoGen.Options.Read
import DtoGen.Service.Load

namespace DtoGen

inductive Command where
  | check (file : String)
  | generate (file : String) (config role : Option Arguments.Setting) (output : Arguments.Setting)
deriving DecidableEq, Repr

/-- What was asked for; without a command there is only help to give. -/
structure Invocation where
  verbose : Bool
  command : Option Command
deriving Repr

namespace Command

open Arguments

def helpSwitch : Switch := ⟨["-h", "--help"], .help⟩

def textOf (lines : List String) : String := String.join (lines.map (· ++ "\n"))

def mainUsage : List String := ["usage: wiremap [-h] [-v] COMMAND ..."]

def mainHelp : List String :=
  mainUsage ++
    ["",
     "wiremap: TypeScript DTO, mapper and Express handler generator",
     "",
     "positional arguments:",
     "  COMMAND",
     "    check        Validate a service IR document",
     "    generate     Generate TypeScript code from a service IR document",
     "",
     "options:",
     "  -h, --help     show this help message and exit",
     "  -v, --verbose  Log generation progress to stderr"]

def checkUsage : List String := ["usage: wiremap check [-h] IR_FILE"]

def checkHelp : List String :=
  checkUsage ++
    ["",
     "Report warnings and errors found in a service IR document.",
     "",
     "positional arguments:",
     "  IR_FILE     Service IR document (.json, .yaml or .yml)",
     "",
     "options:",
     "  -h, --help  show this help message and exit"]

def generateUsage : List String :=
  ["usage: wiremap generate [-h] [--config CONFIG] [--role \x7bclient,server\x7d]",
   "                        [--output OUTPUT]",
   "                        IR_FILE"]

def generateHelp : List String :=
  generateUsage ++
    ["",
     "Validate a service IR document and write the generated TypeScript artifacts.",
     "",
     "positional arguments:",
     "  IR_FILE               Service IR document (.json, .yaml or .yml)",
     "",
     "options:",
     "  -h, --help            show this help message and exit",
     "  --config CONFIG       Generator options file (YAML)",
     "  --role \x7bclient,server\x7d",
     "                        Generate code for the client or the server (overrides",
     "                        the options file)",
     "  --output OUTPUT       Output directory (default: ./generated)"]

def mainGrammar : Grammar where
  program := "wiremap"
  usage := textOf mainUsage
  help := textOf mainHelp
  options := [helpSwitch, ⟨["-v", "--verbose"], .flag⟩]
  positional := .command "COMMAND" ["check", "generate"]

def checkGrammar : Grammar where
  program := "wiremap check"
  usage := textOf checkUsage
  help := textOf checkHelp
  options := [helpSwitch]
  positional := .single "IR_FILE"

def generateGrammar : Grammar where
  program := "wiremap generate"
  usage := textOf generateUsage
  help := textOf generateHelp
  options :=
    [helpSwitch, ⟨["--config"], .value []⟩,
     ⟨["--role"], .value (Perspective.all.map Perspective.name)⟩, ⟨["--output"], .value []⟩]
  positional := .single "IR_FILE"

def defaultOutput : String := "./generated"

def fileOf (r : Result) : String := (r.positional.bind List.head?).getD ""

def checkOf (r : Result) : Command := .check (fileOf r)

def generateOf (r : Result) : Command :=
  .generate (fileOf r) (r.values.lookup "--config") (r.values.lookup "--role")
    ((r.values.lookup "--output").getD (.text defaultOutput))

def subcommand (name : String) (args : List String) : Except Stop (Command × List String) := do
  if name = "check" then
    let r ← checkGrammar.parse args
    return (checkOf r, r.extras)
  else
    let r ← generateGrammar.parse args
    return (generateOf r, r.extras)

/-- Reads a command line. Arguments that nothing takes are reported last. -/
def parse (args : List String) : Except Stop Invocation := do
  let r ← mainGrammar.parse args
  let (command, extras) ← match r.positional with
    | some (name :: rest) => do
      let (c, extras) ← subcommand name rest
      pure (some c, r.extras ++ extras)
    | _ => pure (none, r.extras)
  if extras.isEmpty then return ⟨r.flags.contains "--verbose", command⟩
  else mainGrammar.misuse ("unrecognized arguments: " ++ " ".intercalate extras)

end Command

/-- What a run leaves: its exit code and what it printed. -/
structure Outcome where
  exit : Nat
  stdout : String := ""
  stderr : String := ""
deriving DecidableEq, Repr

namespace Outcome

def after (stdout stderr : String) (o : Outcome) : Outcome :=
  { o with stdout := stdout ++ o.stdout, stderr := stderr ++ o.stderr }

def failure (message : String) : Outcome := { exit := 1, stderr := "Error: " ++ message ++ "\n" }

def success (message : String) : Outcome := { exit := 0, stdout := message ++ "\n" }

end Outcome

namespace Command

open Arguments (Setting)

variable {m : Type → Type} [Monad m]

def warningLines (r : CheckReport) : String :=
  String.join (r.concerns.map fun c => "Warning: " ++ c.message ++ "\n")

/-- The lines for notices: all of them in full if asked for, else the bare text of warnings. -/
def noticeLines (verbose : Bool) (ns : List Notice) : String :=
  String.join (if verbose then ns.map fun n => n.line ++ "\n"
    else (ns.filter Notice.isWarning).map fun n => n.message ++ "\n")

def checkOutcome (s : Service) : Outcome :=
  let r := s.check
  let defects := String.join (r.defects.map fun d => "Error: " ++ d.message ++ "\n")
  (if r.isSound then Outcome.success "No issues found." else { exit := 1 }).after (warningLines r) defects

abbrev Run := Except Abort Outcome

def loadFailure : LoadError → Run
  | .aborted a => .error a
  | e => .ok (.failure e.message)

def optionsFailure : OptionsError → Run
  | .aborted a => .error a
  | e => .ok (.failure e.message)

def runCheck (fs : FileSystem m) (file : String) : m (Run) := do
  match ← Service.load fs (Path.ofText file) with
  | .error e => return loadFailure e
  | .ok s => return if s.check.isWritable then .ok (checkOutcome s) else .error .longNumeral

def loadOptions (fs : FileSystem m) : Option Setting → m (Except OptionsError Options)
  | none | some .nothing | some (.text "") => return .ok {}
  | some (.text config) => Options.load fs (Path.ofText config)

def withRole (role : Option Setting) (o : Options) : Except Abort Options :=
  match role with
  | some (.text t) => .ok ((Perspective.ofName? t).elim o fun p => { o with role := p })
  | some .nothing => .error .emptyPerspective
  | none => .ok o

def writeArtifacts (fs : FileSystem m) (output : Path) (as : List Artifact) :
    m (Except FileError (List Path)) :=
  fs.writeAll (as.map fun a => (output.join a.path, a.contents))

/-- Writes the artifacts below a directory and reports how many there are. -/
def reportIn (fs : FileSystem m) (output : Path) (as : List Artifact) : m Run := do
  match ← writeArtifacts fs output as with
  | .error ⟨.aborted a, _⟩ => return .error a
  | .error e => return .ok (.failure ("cannot write output: " ++ e.message))
  | .ok written =>
    return .ok (.success
      ("Generated " ++ toString written.length ++ " file(s) in '" ++ output.text ++ "'."))

/-- Writes the artifacts where they are wanted; nothing but a text names a directory. -/
def report (fs : FileSystem m) (output : Setting) (as : List Artifact) : m Run :=
  match output with
  | .text t => reportIn fs (Path.ofText t) as
  | .nothing => return .error .emptyPath

/-- All artifacts are rendered before the first is written. -/
def generateInto (fs : FileSystem m) (verbose : Bool) (output : Setting) (s : Service) (o : Options) :
    m Run := do
  let made := s.generate o
  let outcome ← match made.result with
    | .error (.aborted a) => pure (.error a)
    | .error e => pure (.ok (Outcome.failure e.message))
    | .ok as => report fs output as
  return outcome.map (Outcome.after (warningLines s.check) (noticeLines verbose made.notices))

def runGenerate (fs : FileSystem m) (verbose : Bool) (file : String)
    (config role : Option Setting) (output : Setting) : m Run := do
  match ← Service.load fs (Path.ofText file) with
  | .error e => return loadFailure e
  | .ok s =>
    match ← loadOptions fs config with
    | .error e => return optionsFailure e
    | .ok o =>
      match withRole role o with
      | .error a => return .error a
      | .ok o => generateInto fs verbose output s o

def run (fs : FileSystem m) (args : List String) : m Run := do
  match parse args with
  | .error (.help text) => return .ok { exit := 0, stdout := text }
  | .error (.misuse usage program problem) =>
    return .ok { exit := 2, stderr := usage ++ program ++ ": error: " ++ problem ++ "\n" }
  | .ok ⟨_, none⟩ => return .ok { exit := 0, stdout := textOf mainHelp }
  | .ok ⟨_, some (.check file)⟩ => runCheck fs file
  | .ok ⟨verbose, some (.generate file config role output)⟩ =>
    runGenerate fs verbose file config role output

end Command

end DtoGen
