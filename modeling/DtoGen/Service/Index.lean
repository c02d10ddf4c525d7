import DtoGen.Service.Basic

namespace DtoGen

inductive Resolution where
  | primitive
  | type (t : TypeDecl)
  | enum (e : EnumDecl)
  | union (u : UnionDecl)
  | unresolved
deriving Repr

def lastNamed {α : Type} (nameOf : α → String) (name : String) (as : List α) : Option α :=
  as.reverse.find? (nameOf · == name)

namespace Service

def type? (s : Service) (name : String) : Option TypeDecl := lastNamed TypeDecl.name name s.types

def enum? (s : Service) (name : String) : Option EnumDecl := lastNamed EnumDecl.name name s.enums

def union? (s : Service) (name : String) : Option UnionDecl := lastNamed UnionDecl.name name s.unions

def resolveName (s : Service) (name : String) : Resolution :=
  match s.type? name with
  | some t => .type t
  | none =>
    match s.enum? name with
    | some e => .enum e
    | none =>
      match s.union? name with
      | some u => .union u
      | none => .unresolved

def resolve (s : Service) (v : Value) : Resolution :=
  match v.base with
  | .primitive _ _ => .primitive
  | .named n => s.resolveName n

end Service

namespace Resolution

def kindName : Resolution → String
  | .primitive => "primitive"
  | .type _ => "type"
  | .enum _ => "enum"
  | .union _ => "union"
  | .unresolved => "unresolved"

def target? : Resolution → Option String
  | .type t => some t.name
  | .enum e => some e.name
  | .union u => some u.name
  | _ => none

def isMapped : Resolution → Bool
  | .type _ | .union _ => true
  | _ => false

end Resolution

/-- The shapes of values that are rendered differently. -/
inductive Shape where
  | primitive
  | primitiveArray
  | enumRef
  | complexRef
  | complexArray
  | mapValue
  | unresolved
deriving DecidableEq, Repr

namespace Shape

def name : Shape → String
  | .primitive => "primitive"
  | .primitiveArray => "primitive-array"
  | .enumRef => "enum-ref"
  | .complexRef => "complex-ref"
  | .complexArray => "complex-array"
  | .mapValue => "map-value"
  | .unresolved => "unresolved"

end Shape

/-- The shape of a value. Enums look the same alone and in arrays; a record that is only a map is a
shape of its own. -/
def Service.shape (s : Service) (v : Value) : Shape :=
  match s.resolve v with
  | .primitive => if v.isArray then .primitiveArray else .primitive
  | .unresolved => .unresolved
  | .enum _ => .enumRef
  | .union _ => if v.isArray then .complexArray else .complexRef
  | .type t =>
    if v.isArray then .complexArray
    else if t.mapClause.isSome && t.properties.isEmpty then .mapValue
    else .complexRef

end DtoGen
