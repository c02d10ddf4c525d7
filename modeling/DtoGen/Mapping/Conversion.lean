import DtoGen.Journal
import DtoGen.Types.Value

namespace DtoGen

inductive Change where
  | identity
  | parseDate
  | formatDate (dateOnly : Bool)
  | mapper (spelling : String)
deriving DecidableEq, Repr

/-- A change, made to a value or to each item of an array. The identity counts as made once. -/
structure Conversion where
  change : Change
  each : Bool
deriving DecidableEq, Repr

def mapperName (name : String) (role : Role) : String :=
  (match role.direction with
    | .wireToInternal => "mapFrom"
    | .internalToWire => "mapTo") ++ Naming.dtoName name

def dateChange (direction : Direction) (dateOnly : Bool) : Change :=
  match direction with
  | .wireToInternal => .parseDate
  | .internalToWire => .formatDate dateOnly

namespace Service

def change (s : Service) (role : Role) (v : Value) : Change :=
  match v.base with
  | .primitive k _ => if k.isDate then dateChange role.direction (k = .date) else .identity
  | .named n => if (s.resolveName n).isMapped then .mapper (mapperName n role) else .identity

def conversion (s : Service) (role : Role) (v : Value) : Conversion :=
  let c := s.change role v
  ⟨c, v.isArray && c ≠ .identity⟩

end Service

namespace Conversion

def isIdentity (c : Conversion) : Bool := c.change = .identity

def dateSuffix (dateOnly : Bool) : String := if dateOnly then ".split('T')[0]" else ""

/-- The expression that converts an operand; a cast applies to the argument of a mapper. -/
def apply (scope : Scope) (c : Conversion) (operand : String) (cast : Option String) : String :=
  match c.change with
  | .identity => operand
  | .parseDate =>
    if c.each then operand ++ ".map((item) => new Date(item))" else "new Date(" ++ operand ++ ")"
  | .formatDate d =>
    if c.each then operand ++ ".map((item) => item.toISOString()" ++ dateSuffix d ++ ")"
    else operand ++ ".toISOString()" ++ dateSuffix d
  | .mapper m =>
    let f := scope.mapperText m
    if c.each then operand ++ ".map(" ++ f ++ ")"
    else
      match cast with
      | some t => f ++ "(" ++ operand ++ " as " ++ t ++ ")"
      | none => f ++ "(" ++ operand ++ ")"

def mentions (c : Conversion) : List Mention :=
  match c.change with
  | .mapper m => [.mapper m]
  | _ => []

end Conversion

/-- What a conversion reads: any expression, or a member of one. -/
inductive Operand where
  | raw (text : String)
  | member (object name : String)
deriving DecidableEq, Repr

def Operand.text : Operand → String
  | .raw t => t
  | .member o n => o ++ Naming.accessor n

/-- A converted operand. A value that may be absent or null is converted only if it is there. -/
structure Expression where
  operand : Operand
  conversion : Conversion
  guardsAbsent : Bool
  guardsNull : Bool
  cast : Option ElementType := none
deriving DecidableEq, Repr

namespace Expression

def guards (e : Expression) : List String :=
  let x := e.operand.text
  (if e.guardsAbsent then ["typeof " ++ x ++ " === 'undefined'"] else []) ++
    (if e.guardsNull then [x ++ " === null"] else [])

def castText (scope : Scope) (e : Expression) : Option String :=
  (e.cast.map (·.text scope)).filter fun t => !t.isEmpty

def text (scope : Scope) (e : Expression) : String :=
  let x := e.operand.text
  let inner := e.conversion.apply scope x (e.castText scope)
  if e.guards.isEmpty then inner
  else " || ".intercalate e.guards ++ " ? " ++ x ++ " : " ++ inner

def mentions (e : Expression) : List Mention :=
  (e.cast.map ElementType.mentions).getD [] ++ e.conversion.mentions

end Expression

namespace Service

/-- The conversion of the value that an operand reads. What stays as it is needs no guard. -/
def expression (s : Service) (role : Role) (v : Value) (operand : Operand)
    (cast : Option ElementType) : Expression :=
  let c := s.conversion role v
  { operand
    conversion := c
    guardsAbsent := !c.isIdentity && v.isOptional
    guardsNull := !c.isIdentity && v.isNullable
    cast }

end Service

/-- A member of an object under construction. -/
structure Field where
  name : String
  expression : Expression
deriving DecidableEq, Repr

namespace Field

/-- A key that reads like its expression is written once. -/
def text (scope : Scope) (f : Field) : String :=
  let key := Naming.memberKey f.name
  let value := f.expression.text scope
  if key = value then key ++ "," else key ++ ": " ++ value ++ ","

def mentions (f : Field) : List Mention := f.expression.mentions

end Field

namespace Service

/-- A property read from an object and written in the other facet. -/
def propertyField (s : Service) (role : Role) (p : Property) (object : String) : Field :=
  ⟨role.target.memberName p.name,
    s.expression role p.value (.member object (role.source.memberName p.name)) none⟩

end Service

structure Signature where
  name : String
  role : Role
deriving DecidableEq, Repr

namespace Signature

def sourceSpelling (g : Signature) : String := g.role.source.spell g.name

def targetSpelling (g : Signature) : String := g.role.target.spell g.name

def text (scope : Scope) (g : Signature) : String :=
  "export function " ++ mapperName g.name g.role ++ "(" ++ g.role.parameter ++ ": " ++
    scope.declared g.role.source g.sourceSpelling ++ "): " ++
    scope.declared g.role.target g.targetSpelling

def mentions (g : Signature) : List Mention :=
  [.declared g.role.source g.sourceSpelling, .declared g.role.target g.targetSpelling]

end Signature

end DtoGen
