import DtoGen.Artifact.Basic
import DtoGen.Assoc
import DtoGen.Types.Record

namespace DtoGen.Artifact.Types

def scope : Scope := {}

/-- The parameter of a method; it may be left out if none of its members is required. -/
def paramsArgument (m : Method) : String :=
  if m.parameters.isEmpty then ""
  else
    "params" ++ (if m.parameters.any (·.value.isRequired) then "" else "?") ++ ": " ++
      Naming.paramsTypeName m.name

def returnType (s : Service) (m : Method) (scope : Scope := scope) : String :=
  match m.returns with
  | none => "Promise<void>"
  | some v => "Promise<" ++ (s.valueType .internal v).text scope ++ ">"

def methodLines (s : Service) (m : Method) (scope : Scope := scope) : List String :=
  Comment.doc m.description m.deprecated ++
    [Naming.methodName m.name ++ "(" ++ paramsArgument m ++ "): " ++ returnType s m scope ++ ";"]

def interfaceDescription (o : Options) (i : Interface) : String :=
  match i.description with
  | none | some "" =>
    "Interface for the " ++ Naming.title i.name ++ " " ++ Naming.title o.nomenclature
  | some d => d

def methodMentions (s : Service) (m : Method) : List Mention :=
  (if m.parameters.isEmpty then [] else [.declared .internal (Naming.paramsTypeName m.name)]) ++
    (m.returns.map fun v => (s.valueType .internal v).mentions).getD []

def interfaceBody (s : Service) (o : Options) (i : Interface) (scope : Scope := scope) : Body :=
  let methods := sortByName Method.name i.methods
  .record
    ("" :: Comment.doc (some (interfaceDescription o i)) i.deprecated ++
      ("export interface " ++ Naming.interfaceName i.name o.nomenclature ++ " \x7b") ::
      methods.flatMap (methodLines s · scope) ++ ["\x7d"])
    (methods.flatMap (methodMentions s))

def paramsBody (s : Service) (m : Method) (scope : Scope := scope) : Body :=
  if m.parameters.isEmpty then .record [] []
  else
    let ps := m.parameters.filter (·.value.isRequired) ++ m.parameters.filter (·.value.isOptional)
    .record
      ("" :: ("export type " ++ Naming.paramsTypeName m.name ++ " = \x7b") ::
        ps.flatMap (fun p => Comment.doc p.description p.deprecated ++
          [(s.parameterType .internal p).text scope]) ++ ["\x7d;"])
      (ps.flatMap fun p => (s.parameterType .internal p).type.mentions)

def declaration (description : Option String) (deprecated : Bool) (name type : String) : List String :=
  "" :: Comment.doc description deprecated ++
    ["export type " ++ Naming.typeName name ++ " = " ++ type ++ ";"]

def enumBody (e : EnumDecl) : Body :=
  .record (declaration e.description e.deprecated e.name e.typeText) []

def recordBody (s : Service) (t : TypeDecl) (scope : Scope := scope) : Body := do
  let r ← .ofExcept (s.recordType .internal t)
  .record (declaration t.description t.deprecated t.name (r.text scope)) r.mentions

def unionBody (s : Service) (u : UnionDecl) (scope : Scope := scope) : Body :=
  let ts := s.unionTypes .internal u
  .record (declaration u.description u.deprecated u.name (alternation (ts.map (·.text scope))))
    (ts.flatMap ValueType.mentions)

structure Discriminated where
  name : String
  discriminator : String
  members : List String

def discriminated? (u : UnionDecl) : Option Discriminated :=
  match u.body with
  | .simple _ => none
  | .discriminated d ms => some ⟨u.name, d, ms.map (·.name)⟩

/-- For each member its unions, once for every time it is listed. -/
def unionsOf (us : List Discriminated) (member : String) : List Discriminated :=
  us.flatMap fun u => (u.members.filter (· == member)).map fun _ => u

def guardConstants (t : TypeDecl) (us : List Discriminated) : List Literal :=
  us.flatMap fun u => t.properties.filterMap fun p =>
    if p.name = u.discriminator then p.value.constant? else none

/-- The comparisons that hold of one member, each member access once. -/
def guardChecks (t : TypeDecl) (us : List Discriminated) : List String :=
  let checks := us.flatMap fun u => t.properties.filterMap fun p =>
    if p.name = u.discriminator then
      p.value.constant?.map fun l =>
        let access := "obj" ++ Naming.accessor (Naming.propertyName p.name)
        (access, access ++ " === " ++ l.text)
    else none
  (Assoc.ofList checks).map Prod.snd

/-- A guard that narrows unions to one member, by the comparisons that hold of it. -/
structure Guard where
  member : String
  unions : List String
  constants : List Literal
  checks : List String

namespace Guard

def lines (g : Guard) : List String :=
  ["",
   "export function " ++ Naming.typeGuardName g.member ++ "(obj: " ++
     " | ".intercalate (g.unions.map Naming.typeName) ++ "): obj is " ++
     Naming.typeName g.member ++ " \x7b",
   "return " ++ " && ".intercalate g.checks ++ ";",
   "\x7d"]

def mentions (g : Guard) : List Mention :=
  g.constants.flatMap Literal.mentions ++
    (g.unions ++ [g.member]).map fun n => .declared .internal (Naming.typeName n)

end Guard

/-- The guard for a member, unless it is no record or holds no constant to compare with. -/
def guard? (s : Service) (us : List Discriminated) (member : String) : Option Guard :=
  match s.type? member with
  | none => none
  | some t =>
    let mine := unionsOf us member
    match guardChecks t mine with
    | [] => none
    | checks => some ⟨member, mine.map (·.name), guardConstants t mine, checks⟩

def guards (s : Service) : List Guard :=
  let us := s.sortedUnions.filterMap discriminated?
  ((us.flatMap (·.members)).eraseDups.mergeSort Text.le).filterMap (guard? s us)

def guardBody (s : Service) : Body :=
  .record ((guards s).flatMap Guard.lines) ((guards s).flatMap Guard.mentions)

def body (s : Service) (o : Options) (scope : Scope := scope) : Body :=
  Journal.concat (interfaceBody s o · scope) (sortByName Interface.name s.interfaces) ++
    Journal.concat (paramsBody s · scope) (sortByName Method.name s.methods) ++
    Journal.concat enumBody (sortByName EnumDecl.name s.enums) ++
    Journal.concat (recordBody s · scope) s.sortedTypes ++
    Journal.concat (unionBody s · scope) s.sortedUnions ++
    guardBody s

def frame (s : Service) (o : Options) : Frame := { service := s, options := o, scope }

def render (s : Service) (o : Options) : Journal RenderError Artifact :=
  (frame s o).assemble ["types.ts"] (body s o)

end DtoGen.Artifact.Types
