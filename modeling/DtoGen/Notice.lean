namespace DtoGen

inductive Severity where
  | debug
  | warning
deriving DecidableEq, Repr

inductive Notice where
  | greedySearch (type : String) (count : Nat)
  | validationWarning (message : String)
  | artifactStarted (artifact : String)
  | fileRendered (path : String)
  | typeMapper (role type : String)
  | unionMapper (role union : String)
deriving DecidableEq, Repr

namespace Notice

def severity : Notice → Severity
  | .greedySearch _ _ => .warning
  | _ => .debug

def origin : Notice → String
  | .greedySearch _ _ => "wiremap.rendering.discrimination"
  | .validationWarning _ | .artifactStarted _ | .fileRendered _ => "wiremap.generator.build"
  | .typeMapper _ _ | .unionMapper _ _ => "wiremap.emitters.mapper_emitter"

def message : Notice → String
  | .greedySearch t n =>
    "Type '" ++ t ++ "' has " ++ toString n ++
      " required properties; using a greedy search that may not find the smallest distinguishing set"
  | .validationWarning m => "Validation warning: " ++ m
  | .artifactStarted a => "Running " ++ a
  | .fileRendered p => "Rendered " ++ p
  | .typeMapper r t => "Building " ++ r ++ " mapper for type '" ++ t ++ "'"
  | .unionMapper r u => "Building " ++ r ++ " mapper for union '" ++ u ++ "'"

def line (n : Notice) : String :=
  (match n.severity with
    | .debug => "DEBUG "
    | .warning => "WARNING ") ++ n.origin ++ ": " ++ n.message

def isWarning (n : Notice) : Bool := n.severity = .warning

end Notice

end DtoGen
