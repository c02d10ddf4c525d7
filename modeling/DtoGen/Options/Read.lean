import DtoGen.Document.Yaml.Document
import DtoGen.Files.Basic
import DtoGen.Options.Basic

namespace DtoGen

inductive OptionsError where
  | notFound (path : Path)
  | unreadable (cause : FileError)
  | malformed (label : String) (cause : Yaml.Malformed)
  | aborted (cause : Abort)
  | notMapping (label : String)
  | unknownKeys (label : String) (keys : List String)
  | badRole (label : String)
  | notString (label key : String)
  | notBool (label key : String)
deriving Repr

def OptionsError.message : OptionsError → String
  | .notFound p => "Generator options file not found: " ++ p.text
  | .unreadable e => "Cannot read generator options file: " ++ e.message
  | .malformed l m => "Invalid YAML in " ++ l ++ ": " ++ m.message
  | .aborted a => a.message
  | .notMapping l => l ++ ": generator options must be a YAML mapping"
  | .unknownKeys l ks => l ++ ": unknown option(s): " ++ ", ".intercalate ks
  | .badRole l =>
    l ++ ": 'role' must be one of " ++ ", ".intercalate (Perspective.all.map Perspective.name)
  | .notString l k => l ++ ": '" ++ k ++ "' must be a string"
  | .notBool l k => l ++ ": '" ++ k ++ "' must be a boolean"

namespace Options

abbrev Setting := (label : String) → Document → Options → Except OptionsError Options

def text (key : String) (put : String → Options → Options) : Setting := fun label d o =>
  match d with
  | .scalar (.literal (.string s)) => .ok (put s o)
  | _ => .error (.notString label key)

def flag (key : String) (put : Bool → Options → Options) : Setting := fun label d o =>
  match d with
  | .scalar (.literal (.bool b)) => .ok (put b o)
  | _ => .error (.notBool label key)

def roleSetting : Setting := fun label d o =>
  match d with
  | .scalar (.literal (.string s)) =>
    match Perspective.ofName? s with
    | some p => .ok { o with role := p }
    | none => .error (.badRole label)
  | _ => .error (.badRole label)

def setText (key : String) (put : String → Options → Options) : String × Setting := (key, text key put)

/-- All keys, in the order in which their values are looked at. -/
def settings : List (String × Setting) :=
  [("role", roleSetting),
   setText "types-import-path" fun s o => { o with typesPath := s },
   setText "validators-import-path" fun s o => { o with validatorsPath := s },
   setText "dtos-import-path" fun s o => { o with dtosPath := s },
   setText "mappers-import-path" fun s o => { o with mappersPath := s },
   setText "schemas-import-path" fun s o => { o with schemasPath := s },
   setText "interface-nomenclature" fun s o => { o with nomenclature := s },
   setText "validation" fun s o => { o with validation := s },
   ("include-version", flag "include-version" fun b o => { o with includeVersion := b })]

def unknownKeys (entries : Document.Entries) : List String :=
  (entries.filterMap fun (k, _) =>
    if settings.any fun (n, _) => k = .ofString n then none else some k.text).mergeSort Text.le

def ofEntries (label : String) (entries : Document.Entries) : Except OptionsError Options :=
  match unknownKeys entries with
  | [] =>
    settings.foldlM (fun o (key, set) =>
      match Document.get? key entries with
      | some d => set label d o
      | none => .ok o) {}
  | ks => .error (.unknownKeys label ks)

/-- Reads options; an empty document gives the default ones. -/
def parse (label text : String) : Except OptionsError Options :=
  match Yaml.parse text with
  | .error (.malformed m) => .error (.malformed label m)
  | .error (.aborted a) => .error (.aborted a)
  | .ok (.scalar (.literal .null)) => .ok {}
  | .ok (.mapping entries) => ofEntries label entries
  | .ok _ => .error (.notMapping label)

def load {m : Type → Type} [Monad m] (fs : FileSystem m) (p : Path) : m (Except OptionsError Options) := do
  match ← fs.readText p with
  | .ok text => return parse p.text text
  | .error ⟨.notFound, _⟩ => return .error (.notFound p)
  | .error ⟨.aborted a, _⟩ => return .error (.aborted a)
  | .error e => return .error (.unreadable e)

end Options

end DtoGen
