import DtoGen.Comment
import DtoGen.Journal
import DtoGen.Service.Usage
import DtoGen.Types.Value

namespace DtoGen

/-- The named members. Required keys share one type, which is settled for every record with a map
clause that names members. -/
structure ObjectType where
  members : List MemberType
  requiredKeys : List String
  requiredType : Option ValueType
deriving Repr

/-- The term for further members. Its values have to admit those of the named members too. -/
structure OpenType where
  key : ValueType
  values : List ValueType
  mayBeAbsent : Bool
  isPartial : Bool
deriving Repr

inductive RecordType where
  | unconstrained
  | shaped (object : Option ObjectType) (rest : Option OpenType)
deriving Repr

namespace ObjectType

def lines (scope : Scope) (o : ObjectType) : List String :=
  let required := match o.requiredType with
    | some t => o.requiredKeys.map fun k => k ++ ": " ++ t.text scope ++ ";"
    | none => []
  "\x7b" :: o.members.flatMap (·.lines scope) ++ required ++ ["\x7d"]

def mentions (o : ObjectType) : List Mention :=
  o.members.flatMap (·.type.mentions) ++ (o.requiredType.map ValueType.mentions).getD []

end ObjectType

namespace OpenType

def alternatives (scope : Scope) (o : OpenType) : List String :=
  let texts := o.values.flatMap (·.parts scope) ++ (if o.mayBeAbsent then ["undefined"] else [])
  texts.eraseDups.mergeSort Text.le

def text (scope : Scope) (o : OpenType) : String :=
  let record :=
    "Record<" ++ o.key.text scope ++ ", " ++ " | ".intercalate (o.alternatives scope) ++ ">"
  if o.isPartial then "Partial<" ++ record ++ ">" else record

def mentions (o : OpenType) : List Mention := o.values.flatMap (·.mentions) ++ o.key.mentions

end OpenType

namespace RecordType

def text (scope : Scope) : RecordType → String
  | .unconstrained => "Record<string, unknown>"
  | .shaped none none => "Record<string, never>"
  | .shaped object rest =>
    " & ".intercalate
      ((object.map fun o => "\n".intercalate (o.lines scope)).toList ++
        (rest.map (·.text scope)).toList)

def mentions : RecordType → List Mention
  | .unconstrained => []
  | .shaped object rest =>
    (object.map ObjectType.mentions).getD [] ++ (rest.map OpenType.mentions).getD []

end RecordType

namespace Service

/-- Internal members keep their order; those on the wire are sorted by name. -/
def orderedProperties (facet : Facet) (t : TypeDecl) : List Property :=
  match facet with
  | .internal => t.properties
  | .wire => sortByName Property.name t.properties

theorem mem_orderedProperties {facet : Facet} {t : TypeDecl} {p : Property} :
    p ∈ orderedProperties facet t ↔ p ∈ t.properties := by
  cases facet <;> simp [orderedProperties]

/-- A property as a member, with its comment where the type is read by people. -/
def documentedType (s : Service) (facet : Facet) (p : Property) : MemberType :=
  match facet with
  | .internal => { s.propertyType facet p with comment := Comment.doc p.description p.deprecated }
  | .wire => s.propertyType facet p

def objectType? (s : Service) (facet : Facet) (t : TypeDecl) : Option ObjectType :=
  if t.definedCount = 0 then none
  else some
    { members := (orderedProperties facet t).map (s.documentedType facet)
      requiredKeys := t.requiredKeys.map facet.memberKey
      requiredType := t.mapClause.map fun m => s.valueType facet m.value.asRequired }

/-- Whether a limit leaves room for members beyond the named ones. -/
def hasRoom (t : TypeDecl) : Bool :=
  match t.maxProperties with
  | none => true
  | some n => decide ((t.definedCount : Int) < n)

/-- The open term of a record with a map clause, if the limit leaves room for it. -/
def openType? (s : Service) (facet : Facet) (t : TypeDecl) : Option OpenType :=
  match t.mapClause with
  | none => none
  | some m =>
    if hasRoom t then some
      { key := s.valueType facet m.key.asRequired
        values := ((orderedProperties facet t).map fun p => s.valueType facet p.value) ++
          [s.valueType facet m.value]
        mayBeAbsent := t.properties.any (·.value.isOptional) || m.value.isOptional
        isPartial :=
          match s.resolve m.key with
          | .enum _ => true
          | _ => false }
    else none

/-- The type of a record; none exists if the limit is below the number of named members. -/
def recordType (s : Service) (facet : Facet) (t : TypeDecl) : Except RenderError RecordType :=
  if t.properties.isEmpty && t.mapClause.isNone then .ok .unconstrained
  else
    match t.maxProperties with
    | some n =>
      if n < t.definedCount then .error (.tooManyMembers t.name n t.definedCount)
      else .ok (.shaped (s.objectType? facet t) (s.openType? facet t))
    | none => .ok (.shaped (s.objectType? facet t) (s.openType? facet t))

end Service

end DtoGen
