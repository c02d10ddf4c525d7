import DtoGen.Mapping.Locals

namespace DtoGen

/-- A member taken out of the parameter into a variable. -/
structure Capture where
  name : String
  variableName : String
deriving DecidableEq, Repr

def Capture.text (c : Capture) : String :=
  let key := Naming.memberKey c.name
  if key = c.variableName then key ++ "," else key ++ ": " ++ c.variableName ++ ","

/-- The pass over the members that are not named. -/
structure Fold where
  converted : Expression
  facet : Facet
  spelling : String
deriving DecidableEq, Repr

/-- The body of a record mapper: nothing to convert, an object of converted properties, named
members taken out first with perhaps a pass over the rest, or that pass alone. -/
inductive RecordBody where
  | empty
  | literal (fields : List Field)
  | destructured (captures : List Capture) (fields : List Field) (rest : Option Fold)
  | folded (fold : Fold)
deriving Repr

structure RecordMapper where
  signature : Signature
  body : RecordBody
deriving Repr

namespace Fold

def lines (scope : Scope) (f : Fold) (source initial : String) : List String :=
  ["return Object.keys(" ++ source ++ ").reduce((acc, key) => \x7b",
   "const value = " ++ f.converted.text scope ++ ";",
   "return value === undefined ? acc : \x7b ...acc, [key]: value \x7d;",
   "\x7d, " ++ initial ++ " as " ++ scope.declared f.facet f.spelling ++ ");"]

def mentions (f : Fold) : List Mention := f.converted.mentions ++ [.declared f.facet f.spelling]

end Fold

namespace RecordBody

def fieldLines (scope : Scope) (opening : String) (fields : List Field) : List String :=
  (opening ++ scope.written Helper.compact.name ++ "(\x7b") :: fields.map (·.text scope) ++ ["\x7d);"]

def lines (scope : Scope) (parameter : String) : RecordBody → List String
  | .empty => ["return \x7b\x7d;"]
  | .literal fields => fieldLines scope "return " fields
  | .destructured captures fields none =>
    "const \x7b" :: captures.map Capture.text ++ ["\x7d = " ++ parameter ++ ";", ""] ++
      fieldLines scope "return " fields
  | .destructured captures fields (some fold) =>
    "const \x7b" :: captures.map Capture.text ++
      ["...__rest__,", "\x7d = " ++ parameter ++ ";", ""] ++
      fieldLines scope "const __defined__ = " fields ++
      "" :: fold.lines scope "__rest__" "__defined__"
  | .folded fold => fold.lines scope parameter "\x7b\x7d"

def mentions : RecordBody → List Mention
  | .empty => []
  | .literal fields => .helper .compact :: fields.flatMap Field.mentions
  | .destructured _ fields rest =>
    .helper .compact :: fields.flatMap Field.mentions ++ (rest.map Fold.mentions).getD []
  | .folded fold => fold.mentions

end RecordBody

namespace RecordMapper

def lines (scope : Scope) (m : RecordMapper) : List String :=
  (m.signature.text scope ++ " \x7b") :: m.body.lines scope m.signature.role.parameter ++ ["\x7d"]

def mentions (m : RecordMapper) : List Mention := m.signature.mentions ++ m.body.mentions

end RecordMapper

namespace Service

/-- The pass over further members, unless the limit is exactly the number of named ones. -/
def fold? (s : Service) (role : Role) (t : TypeDecl) (m : MapClause) : Option Fold :=
  if t.maxProperties = some (t.definedCount : Int) then none
  else
    let cast := match s.resolve m.value, m.value.name? with
      | .type _, some n | .union _, some n =>
        some (ElementType.declared role.source (role.source.spell n))
      | _, _ => none
    some
      { converted := s.expression role m.value (.raw (role.parameter ++ "[key]")) cast
        facet := role.target
        spelling := role.target.spell t.name }

def openBody (s : Service) (role : Role) (t : TypeDecl) (m : MapClause) : RecordBody :=
  if t.definedCount = 0 then
    match s.fold? role t m with
    | some f => .folded f
    | none => .empty
  else
    let names := t.properties.map (·.name) ++ m.requiredKeys
    let table := Locals.table s names
    let field name v : Field :=
      ⟨role.target.memberName name, s.expression role v (.raw (Locals.variableOf table name)) none⟩
    .destructured
      (names.map fun n => ⟨role.source.memberName n, Locals.variableOf table n⟩)
      (t.properties.map (fun p => field p.name p.value) ++
        m.requiredKeys.map fun k => field k m.value.asRequired)
      (s.fold? role t m)

def recordMapper (s : Service) (role : Role) (t : TypeDecl) : RecordMapper where
  signature := ⟨t.name, role⟩
  body :=
    match t.mapClause with
    | some m => s.openBody role t m
    | none =>
      if t.properties.isEmpty then .empty
      else .literal (t.properties.map fun p => s.propertyField role p role.parameter)

end Service

end DtoGen
