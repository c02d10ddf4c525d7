import DtoGen.Artifact.Basic
import DtoGen.Artifact.Route
import DtoGen.Types.Value

namespace DtoGen.Artifact.HandlerTypes

def scope : Scope := { internal := some "types", wire := some "dtos" }

def parameter? (m : Method) (name : String) : Option Parameter := lastNamed Parameter.name name m.parameters

def routeMembers (b : Binding) : List String :=
  (b.http.parameters.filter (·.location = .path)).map fun h => Naming.memberKey h.name ++ ": string;"

/-- A query parameter; one that the method does not have may be absent. -/
def queryMember (m : Method) (h : HttpParameter) : String :=
  let p := parameter? m h.name
  let marker := if (p.map (·.value.isOptional)).getD true then "?" else ""
  let isMulti := (p.map (·.value.isArray)).getD false && h.arrayFormat = some .multi
  Naming.memberKey h.name ++ marker ++ ": " ++ (if isMulti then "string[]" else "string") ++ ";"

def queryMembers (b : Binding) : List String :=
  (b.http.parameters.filter (·.location = .query)).map (queryMember b.method)

def bodyTypes (s : Service) (b : Binding) : List ValueType :=
  (b.http.parameters.filter (·.location = .body)).filterMap fun h =>
    (parameter? b.method h.name).map fun p => s.valueType .wire p.value

def objectText (members : List String) : String :=
  if members.isEmpty then "\x7b\x7d" else "\x7b " ++ " ".intercalate members ++ " \x7d"

/-- The type of a handler. Of several parameters in the body the last one counts. -/
def handlerBody (s : Service) (b : Binding) (scope : Scope := scope) : Body :=
  let bodies := bodyTypes s b
  let returned := b.method.returns.map (s.valueType .wire)
  let arguments :=
    [objectText (routeMembers b), (returned.map (·.text scope)).getD "void",
     (bodies.getLast?.map (·.text scope)).getD "never", objectText (queryMembers b)]
  .record
    ("" :: (if b.method.deprecated then ["/** @deprecated */"] else []) ++
      ["export type " ++ Naming.requestHandlerTypeName b.method.name ++ " = " ++
        (scope.written "RequestHandler" ++ "<" ++ ", ".intercalate arguments ++ ">;")])
    (.imported "express" "RequestHandler" true :: bodies.flatMap ValueType.mentions ++
      (returned.map ValueType.mentions).getD [])

def frame (s : Service) (o : Options) : Frame where
  service := s
  options := o
  scope := scope
  modules := [("types", ⟨o.typesPath, true⟩), ("dtos", ⟨o.dtosPath, true⟩)]

def body (s : Service) (scope : Scope := scope) : Body :=
  Journal.concat (handlerBody s · scope) s.bindings

def render (s : Service) (o : Options) : Journal RenderError Artifact :=
  (frame s o).assemble ["express", "types.ts"] (body s)

end DtoGen.Artifact.HandlerTypes
