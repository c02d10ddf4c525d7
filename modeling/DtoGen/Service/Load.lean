import DtoGen.Document.Json
import DtoGen.Document.Yaml.Document
import DtoGen.Files.Basic
import DtoGen.Service.Decode

namespace DtoGen

inductive LoadError where
  | unsupported (suffix : String)
  | notFound (path : Path)
  | unreadable (cause : FileError)
  | json (label fault : String)
  | yaml (label : String) (cause : Yaml.Malformed)
  | aborted (cause : Abort)
  | notMapping (label : String)
  | invalid (label : String) (issues : List Issue)
deriving Repr

def LoadError.message : LoadError → String
  | .unsupported s => "Unsupported IR file type '" ++ s ++ "': expected .json, .yaml or .yml"
  | .notFound p => "IR file not found: " ++ p.text
  | .unreadable e => "Cannot read IR file: " ++ e.message
  | .json l f => "Invalid JSON in " ++ l ++ ": " ++ f
  | .yaml l m => "Invalid YAML in " ++ l ++ ": " ++ m.message
  | .aborted a => a.message
  | .notMapping l => "IR document " ++ l ++ " must be a mapping at the top level"
  | .invalid l is => "Invalid IR document " ++ l ++ ":\n" ++ "\n".intercalate (is.map Issue.text)

namespace Service

def ofDocument (label : String) : Document → Except LoadError Service
  | .mapping entries =>
    match Read.service.entries entries with
    | .ok s => .ok s
    | .bad issues => .error (.invalid label issues)
  | _ => .error (.notMapping label)

def parseJson (label text : String) : Except LoadError Service :=
  match Json.parse text with
  | .ok d => ofDocument label d
  | .error (.fault f) => .error (.json label (f.message text.toList))
  | .error (.abort a) => .error (.aborted a)

def parseYaml (label text : String) : Except LoadError Service :=
  match Yaml.parse text with
  | .ok d => ofDocument label d
  | .error (.malformed m) => .error (.yaml label m)
  | .error (.aborted a) => .error (.aborted a)

/-- The reader for files with a suffix, whatever the case of its letters. -/
def parser? (suffix : String) : Option (String → String → Except LoadError Service) :=
  let s := Read.lowerAscii suffix
  if s = ".json" then some parseJson
  else if s = ".yaml" || s = ".yml" then some parseYaml
  else none

def load {m : Type → Type} [Monad m] (fs : FileSystem m) (p : Path) : m (Except LoadError Service) := do
  match parser? p.suffix with
  | none => return .error (.unsupported p.suffix)
  | some parse =>
    match ← fs.readText p with
    | .ok text => return parse p.text text
    | .error ⟨.notFound, _⟩ => return .error (.notFound p)
    | .error ⟨.aborted a, _⟩ => return .error (.aborted a)
    | .error e => return .error (.unreadable e)

end Service

end DtoGen
