import DtoGen.Mention
import DtoGen.Service.Index

namespace DtoGen

/-- The type of one element: a literal, a type of the language, or a declaration. -/
inductive ElementType where
  | literal (l : Literal)
  | builtin (name : String)
  | declared (facet : Facet) (spelling : String)
deriving DecidableEq, Repr

structure ValueType where
  element : ElementType
  isArray : Bool
  isNullable : Bool
deriving DecidableEq, Repr

namespace ElementType

def text (scope : Scope) : ElementType → String
  | .literal l => l.text
  | .builtin n => n
  | .declared f n => scope.declared f n

def mentions : ElementType → List Mention
  | .literal l => l.mentions
  | .builtin _ => []
  | .declared f n => [.declared f n]

end ElementType

namespace ValueType

/-- The alternatives of a type: the element or an array of it, then null. -/
def parts (scope : Scope) (t : ValueType) : List String :=
  let base := t.element.text scope ++ (if t.isArray then "[]" else "")
  if t.isNullable then [base, "null"] else [base]

def text (scope : Scope) (t : ValueType) : String := " | ".intercalate (t.parts scope)

def mentions (t : ValueType) : List Mention := t.element.mentions

end ValueType

def Primitive.typeText (facet : Facet) : Primitive → String
  | .string => "string"
  | .number | .integer | .long | .float | .double => "number"
  | .boolean => "boolean"
  | .date | .dateTime =>
    match facet with
    | .internal => "Date"
    | .wire => "string"
  | .null => "null"
  | .untyped => "any"
  | .binary => "unknown"

namespace Service

/-- The element type of a value. Enums have one declaration for both facets. -/
def elementType (s : Service) (facet : Facet) (v : Value) : ElementType :=
  match v.base with
  | .primitive _ (some l) => .literal l
  | .primitive k none => .builtin (k.typeText facet)
  | .named n =>
    match s.resolveName n with
    | .enum _ => .declared .internal (Naming.typeName n)
    | .type _ | .union _ => .declared facet (facet.spell n)
    | _ => .builtin "unknown"

def valueType (s : Service) (facet : Facet) (v : Value) : ValueType :=
  ⟨s.elementType facet v, v.isArray, v.isNullable⟩

end Service

def Facet.memberName : Facet → String → String
  | .internal, name => Naming.propertyName name
  | .wire, name => name

def Facet.memberKey (f : Facet) (name : String) : String := Naming.memberKey (f.memberName name)

structure MemberType where
  comment : List String := []
  key : String
  isOptional : Bool
  type : ValueType
deriving Repr

namespace MemberType

def text (scope : Scope) (m : MemberType) : String :=
  m.key ++ (if m.isOptional then "?" else "") ++ ": " ++ m.type.text scope ++ ";"

def lines (scope : Scope) (m : MemberType) : List String := m.comment ++ [m.text scope]

end MemberType

namespace Service

def propertyType (s : Service) (facet : Facet) (p : Property) : MemberType where
  key := facet.memberKey p.name
  isOptional := p.value.isOptional
  type := s.valueType facet p.value

def parameterType (s : Service) (facet : Facet) (p : Parameter) : MemberType where
  key := Facet.internal.memberKey p.name
  isOptional := p.value.isOptional
  type := s.valueType facet p.value

def unionTypes (s : Service) (facet : Facet) (u : UnionDecl) : List ValueType :=
  u.members.map (s.valueType facet)

end Service

def alternation (texts : List String) : String :=
  if texts.isEmpty then "never" else " | ".intercalate texts

def EnumDecl.typeText (e : EnumDecl) : String :=
  alternation (e.members.map fun m => Text.quote m.content)

end DtoGen
