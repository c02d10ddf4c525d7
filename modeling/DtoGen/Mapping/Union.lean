import DtoGen.Discrimination
import DtoGen.Mapping.Branch
import DtoGen.Service.Usage

namespace DtoGen

/-- A case of a switch: the constant and the mapper for it. -/
structure Case where
  constant : Literal
  mapper : String
deriving DecidableEq, Repr

inductive UnionBody where
  | switch (discriminator : String) (cases : List Case)
  | chain (branches : List Branching)

structure UnionMapper where
  signature : Signature
  body : UnionBody

namespace UnionBody

def lines (scope : Scope) (parameter : String) : UnionBody → List String
  | .switch d cases =>
    ("switch (" ++ parameter ++ Naming.accessor d ++ ") \x7b") ::
      cases.map (fun c => "case " ++ c.constant.text ++ ": return " ++ scope.mapperText c.mapper ++
        "(" ++ parameter ++ ");") ++
      ["default: throw new Error('Invalid discriminator');", "\x7d"]
  | .chain bs => Branching.lines scope parameter bs

end UnionBody

def UnionMapper.lines (scope : Scope) (m : UnionMapper) : List String :=
  (m.signature.text scope ++ " \x7b") :: m.body.lines scope m.signature.role.parameter ++ ["\x7d"]

structure MemberKinds where
  dates : List Primitive
  primitives : List Primitive
  records : List String
  hasUnknown : Bool
deriving Repr

/-- The test that comes before any look at the members of an object. -/
def isObject (x : Subject) : Condition Test :=
  .join .all [.test (.hasKind x .object), .test (.isNotNull x)]

/-- The condition for a mark, with names as the source spells them. -/
def Mark.condition (source : Facet) (x : Subject) : Mark → Condition Test
  | .property n => .test (.hasMember x (source.memberName n))
  | .constant n l =>
    .join .all [.test (.hasMember x (source.memberName n)),
      .test (.memberIs x (source.memberName n) l)]
  | .properties ns _ => .join .all (ns.map fun n => .test (.hasMember x (source.memberName n)))

def Mark.mentions : Mark → List Mention
  | .constant _ l => l.mentions
  | _ => []

namespace MemberKinds

def primitiveTests (k : MemberKinds) (x : Subject) : List Test :=
  (if k.primitives.contains .boolean then [.hasKind x .boolean] else []) ++
    (if k.primitives.contains .string then [.hasKind x .string] else []) ++
    (if k.primitives.any Primitive.isNumeric then [.hasKind x .number] else []) ++
    (if k.primitives.contains .null then [.isNull x] else [])

def dateFormats (k : MemberKinds) : List DateFormat :=
  (if k.dates.contains .date then [.date] else []) ++
    (if k.dates.contains .dateTime then [.dateTime] else [])

/-- Text is checked against the formats only if it may also be something else. -/
def checksFormats (k : MemberKinds) (d : Direction) : Bool :=
  d = .wireToInternal && !k.dates.isEmpty && k.primitives.contains .string

def dateCondition (k : MemberKinds) (d : Direction) (x : Subject) : Condition Test :=
  match d with
  | .internalToWire => .test (.isDateObject x)
  | .wireToInternal =>
    if k.checksFormats d then
      .join .all [.test (.hasKind x .string),
        .join .any (k.dateFormats.map fun f => .test (.isDateText x f))]
    else .test (.hasKind x .string)

/-- Dates without a time are cut short only if no member has one. -/
def dateBranches (k : MemberKinds) (d : Direction) (x : Subject) (each : Bool) : List Branching :=
  if k.dates.isEmpty then []
  else
    [.leaf (k.dateCondition d x) [.convert ⟨dateChange d (!k.dates.contains .dateTime), each⟩]]

def primitiveBranches (k : MemberKinds) (x : Subject) : List Branching :=
  match k.primitiveTests x with
  | [] => []
  | ts => [.leaf (.join .any (ts.map .test)) [.same]]

def passes (k : MemberKinds) : Bool :=
  k.hasUnknown || k.primitives.contains .binary || k.primitives.contains .untyped

def helpers (k : MemberKinds) (d : Direction) : List Mention :=
  if k.checksFormats d then k.dateFormats.map fun f => .helper f.helper else []

end MemberKinds

namespace Service

/-- What the members of a union come down to; an enum counts as text. -/
def memberKinds (s : Service) (members : List Value) : MemberKinds where
  dates := members.filterMap fun v =>
    match v.base with
    | .primitive k _ => if k.isDate then some k else none
    | .named _ => none
  primitives := members.filterMap fun v =>
    match v.base with
    | .primitive k _ => if k.isDate then none else some k
    | .named n =>
      match s.resolveName n with
      | .enum _ => some .string
      | _ => none
  records := members.filterMap fun v =>
    match v.base with
    | .primitive _ _ => none
    | .named n => if (s.resolveName n).isMapped then some n else none
  hasUnknown := members.any fun v =>
    match s.resolve v with
    | .unresolved => true
    | _ => false

def nestedMembers (s : Service) (name : String) : List String :=
  match s.type? name, s.union? name with
  | none, some u => u.members.filterMap Value.name?
  | _, _ => []

/-- The records that names lead to, also through unions inside unions. -/
def collectRecords (s : Service) (names : List String) : List TypeDecl :=
  (closure s.nestedMembers s.declaredNames names).filterMap s.type?

/-- A member of a union with its first mark among the others, if it has any. -/
def firstMark (s : Service) (others : List String) (member : String) : Option Mark :=
  (Discrimination.marks s member ((s.collectRecords others).map (·.name))).head?

def delegate (role : Role) (each : Bool) (member : String) : Journal RenderError Action :=
  .record (.convert ⟨.mapper (mapperName member role), each⟩) [.mapper (mapperName member role)]

/-- Members that lack a mark, and branches for those that have one. -/
structure Marked where
  branches : List Branching
  unmarked : List String

/-- Looks for marks from left to right; `before` holds the members already done. -/
def markMembers (s : Service) (role : Role) (x : Subject) (each : Bool) (before : List String) :
    List String → Journal RenderError Marked
  | [] => .record ⟨[], []⟩ []
  | m :: rest => do
    .note ((Discrimination.notices s m).map .notice)
    match s.firstMark (before ++ rest) m with
    | none =>
      let r ← s.markMembers role x each (before ++ [m]) rest
      .record ⟨r.branches, m :: r.unmarked⟩ []
    | some mark =>
      .note mark.mentions
      let a ← delegate role each m
      let r ← s.markMembers role x each (before ++ [m]) rest
      .record ⟨.leaf (mark.condition role.source x) [a] :: r.branches, r.unmarked⟩ []

/-- One field for each property name. Properties of one name have to convert alike. -/
def mergeFields (s : Service) (role : Role) (conflict : RenderError) (fields : List (String × Field)) :
    List Property → Journal RenderError (List Field)
  | [] => .record (fields.map Prod.snd) []
  | p :: ps => do
    let f := s.propertyField role { p with value := p.value.asOptional } Action.mergedObject
    .note f.mentions
    match fields.lookup p.name with
    | none => s.mergeFields role conflict (fields ++ [(p.name, f)]) ps
    | some g => if f = g then s.mergeFields role conflict fields ps else .fail conflict

/-- One conversion for members that cannot be told apart. Only one of them is there at run time, so
each of their properties may be absent. -/
def mergeMembers (s : Service) (union : String) (role : Role) (each : Bool) (members : List String) :
    Journal RenderError Action := do
  let conflict := RenderError.indistinct union members
  let records := s.collectRecords members
  if each || records.any (·.mapClause.isSome) then .fail conflict
  else
    let fields ← s.mergeFields role conflict [] (records.flatMap (·.properties))
    .record (.merge fields) [.helper .compact]

def recordBranches (s : Service) (union : String) (role : Role) (x : Subject) (each : Bool) :
    List String → Journal RenderError (List Branching)
  | [] => .record [] []
  | [m] => do
    let a ← delegate role each m
    .record [.leaf (isObject x) [a]] []
  | ms => do
    let r ← s.markMembers role x each [] ms
    match r.unmarked with
    | [] => .record r.branches []
    | [m] =>
      let a ← delegate role each m
      .record (r.branches ++ [.leaf (isObject x) [a]]) []
    | us =>
      let a ← s.mergeMembers union role each us
      .record (r.branches ++ [.leaf (isObject x) [a]]) []

def memberBranches (s : Service) (union : String) (role : Role) (each : Bool) (members : List Value) :
    Journal RenderError (List Branching) := do
  let x := if each then Subject.first else .whole
  let kinds := s.memberKinds members
  .note (kinds.helpers role.direction)
  let records ← s.recordBranches union role x each kinds.records
  .record
    ((if each && 1 < members.length then [.leaf (.test .isEmpty) [.empty]] else []) ++
      kinds.dateBranches role.direction x each ++ kinds.primitiveBranches x ++ records ++
      (if kinds.passes then [.leaf (.test .always) [.same]] else [])) []

/-- A branch that holds the branches of some members, if there are any. -/
def formBranches (s : Service) (union : String) (role : Role) (each : Bool) (members : List Value) :
    Journal RenderError (List Branching) :=
  if members.isEmpty then .record [] []
  else do
    let bs ← s.memberBranches union role each members
    .record [.nested (.test (if each then .isArray else .isNoArray)) bs] []

/-- The tests of a simple union. Without members there is nothing to test. -/
def simpleBody (s : Service) (union : String) (role : Role) (members : List Value) :
    Journal RenderError UnionBody := do
  let arrays ← s.formBranches union role true (members.filter (·.isArray))
  let others ← s.formBranches union role false (members.filter fun v => !v.isArray)
  if members.isEmpty then .record (.chain [.leaf (.test .always) [.unchecked]]) []
  else .record (.chain (arrays ++ others)) []

/-- The constant that a record holds under a name, if its first property of that name has one. -/
def discriminatorValue? (s : Service) (discriminator member : String) : Option Literal :=
  (s.type? member).bind fun t => (t.property? discriminator).bind (·.value.constant?)

def switchCases (s : Service) (union : String) (role : Role) (discriminator : String)
    (members : List Reference) : Journal RenderError (List Case) :=
  Journal.traverse (fun m =>
    match s.discriminatorValue? discriminator m.name with
    | none => .fail (.missingConstant union m.name discriminator)
    | some l =>
      .record ⟨l, mapperName m.name role⟩ (.mapper (mapperName m.name role) :: l.mentions)) members

def unionMapper (s : Service) (role : Role) (u : UnionDecl) : Journal RenderError UnionMapper := do
  let signature : Signature := ⟨u.name, role⟩
  .note signature.mentions
  match u.body with
  | .simple ms =>
    let body ← s.simpleBody u.name role ms
    .record ⟨signature, body⟩ []
  | .discriminated d ms =>
    let cases ← s.switchCases u.name role d ms
    .record ⟨signature, .switch (role.source.memberName d) cases⟩ []

end Service

end DtoGen
