import DtoGen.Abort
import DtoGen.Service.Index

namespace DtoGen

inductive DeclKind where
  | type
  | enum
  | union
deriving DecidableEq, Repr

inductive Defect where
  | duplicateName (name : String) (first second : DeclKind)
  | maximumBelowCount (type : String) (maximum : Int) (count : Nat)
  | maximumBelowMinimum (type : String) (minimum maximum : Int)
  | keyCollision (key type : String)
  | memberNoType (member union : String)
deriving DecidableEq, Repr

inductive Place where
  | property (type property : String)
  | mapKey (type : String)
  | mapValue (type : String)
  | member (union : String)
  | parameter (method parameter : String)
  | result (method : String)
deriving DecidableEq, Repr

inductive Concern where
  | unresolved (name : String) (place : Place)
  | memberWithoutConstant (member union discriminator : String)
  | unknownMethod (pattern method : String)
  | unknownParameter (method parameter : String)
deriving DecidableEq, Repr

structure CheckReport where
  concerns : List Concern
  defects : List Defect
deriving Repr

def DeclKind.name : DeclKind → String
  | .type => "type"
  | .enum => "enum"
  | .union => "union"

def Place.text : Place → String
  | .property t p => "property '" ++ t ++ "." ++ p ++ "'"
  | .mapKey t => "map key of '" ++ t ++ "'"
  | .mapValue t => "map value of '" ++ t ++ "'"
  | .member u => "member of union '" ++ u ++ "'"
  | .parameter m p => "parameter '" ++ m ++ "." ++ p ++ "'"
  | .result m => "return value of '" ++ m ++ "'"

def Defect.message : Defect → String
  | .duplicateName n a b =>
    "Duplicate name '" ++ n ++ "': declared as " ++ a.name ++ " and " ++ b.name
  | .maximumBelowCount t n c =>
    "Type '" ++ t ++ "' allows at most " ++ toString n ++ " properties but defines " ++ toString c
  | .maximumBelowMinimum t m n =>
    "Type '" ++ t ++ "' requires at least " ++ toString m ++ " properties but allows at most " ++
      toString n
  | .keyCollision k t => "Required key '" ++ k ++ "' of type '" ++ t ++ "' collides with a defined property"
  | .memberNoType m u => "Member '" ++ m ++ "' of discriminated union '" ++ u ++ "' is not a type"

def Defect.integers : Defect → List Int
  | .maximumBelowCount _ n _ => [n]
  | .maximumBelowMinimum _ m n => [m, n]
  | _ => []

def Concern.message : Concern → String
  | .unresolved n p => "Unresolved reference '" ++ n ++ "' in " ++ p.text ++ "; rendered as unknown"
  | .memberWithoutConstant m u d =>
    "Member '" ++ m ++ "' of discriminated union '" ++ u ++
      "' has no constant value for discriminator '" ++ d ++ "'"
  | .unknownMethod p m => "HTTP binding '" ++ p ++ "' references unknown method '" ++ m ++ "'"
  | .unknownParameter m p =>
    "HTTP binding of method '" ++ m ++ "' references unknown parameter '" ++ p ++ "'"

namespace CheckReport

def isSound (r : CheckReport) : Bool := r.defects.isEmpty

def isWritable (r : CheckReport) : Bool := (r.defects.flatMap Defect.integers).all Abort.isShort

end CheckReport

namespace Check

/-- Names declared more than once; each repetition is compared with the first declaration. -/
def duplicates (seen : List (String × DeclKind)) : List (String × DeclKind) → List Defect
  | [] => []
  | (n, k) :: rest =>
    match seen.lookup n with
    | some first => .duplicateName n first k :: duplicates seen rest
    | none => duplicates ((n, k) :: seen) rest

def declarations (s : Service) : List (String × DeclKind) :=
  s.types.map (fun t => (t.name, .type)) ++ s.enums.map (fun e => (e.name, .enum)) ++
    s.unions.map (fun u => (u.name, .union))

def typePlaces (t : TypeDecl) : List (Place × Value) :=
  t.properties.map (fun p => (.property t.name p.name, p.value)) ++
    match t.mapClause with
    | some m => [(.mapKey t.name, m.key), (.mapValue t.name, m.value)]
    | none => []

def unionPlaces (u : UnionDecl) : List (Place × Value) := u.members.map fun v => (.member u.name, v)

def methodPlaces (m : Method) : List (Place × Value) :=
  m.parameters.map (fun p => (.parameter m.name p.name, p.value)) ++
    (m.returns.map fun v => (Place.result m.name, v)).toList

def places (s : Service) : List (Place × Value) :=
  s.types.flatMap typePlaces ++ s.unions.flatMap unionPlaces ++ s.methods.flatMap methodPlaces

def unresolved (s : Service) : List Concern :=
  (places s).filterMap fun (p, v) =>
    match v.base with
    | .primitive _ _ => none
    | .named n =>
      match s.resolveName n with
      | .unresolved => some (.unresolved n p)
      | _ => none

def limits (t : TypeDecl) : List Defect :=
  match t.maxProperties with
  | none => []
  | some n =>
    (if n < t.definedCount then [.maximumBelowCount t.name n t.definedCount] else []) ++
      match t.minProperties with
      | some m => if n < m then [.maximumBelowMinimum t.name m n] else []
      | none => []

def collisions (t : TypeDecl) : List Defect :=
  (t.requiredKeys.filter fun k => t.properties.any (·.name == k)).map (.keyCollision · t.name)

def memberDefects (s : Service) (u : UnionDecl) : List Defect :=
  match u.body with
  | .simple _ => []
  | .discriminated _ ms =>
    ms.filterMap fun m =>
      match s.resolveName m.name with
      | .enum _ | .union _ => some (.memberNoType m.name u.name)
      | _ => none

def memberConcerns (s : Service) (u : UnionDecl) : List Concern :=
  match u.body with
  | .simple _ => []
  | .discriminated d ms =>
    ms.filterMap fun m =>
      match s.resolveName m.name with
      | .type t =>
        if ((t.property? d).bind (·.value.constant?)).isNone then
          some (.memberWithoutConstant m.name u.name d)
        else none
      | _ => none

def parameterConcerns (m : Method) (h : HttpMethod) : List Concern :=
  (h.parameters.filter fun p => !m.parameters.any (·.name == p.name)).map fun p =>
    .unknownParameter m.name p.name

def bindingConcerns (i : Interface) : List Concern :=
  i.http.flatMap fun r => r.methods.flatMap fun h =>
    match lastNamed Method.name h.name i.methods with
    | some m => parameterConcerns m h
    | none => [.unknownMethod r.pattern h.name]

end Check

/-- The report on a service: all findings, in the order of the checks and of the declarations. -/
def Service.check (s : Service) : CheckReport where
  concerns :=
    Check.unresolved s ++ s.unions.flatMap (Check.memberConcerns s) ++
      s.interfaces.flatMap Check.bindingConcerns
  defects :=
    Check.duplicates [] (Check.declarations s) ++
      s.types.flatMap (fun t => Check.limits t ++ Check.collisions t) ++
      s.unions.flatMap (Check.memberDefects s)

end DtoGen
