import DtoGen.Artifact.Basic
import DtoGen.Types.Record

namespace DtoGen.Artifact.Dtos

def scope : Scope := { internal := some "types" }

/-- The comment on a declaration links to the internal one. -/
def summary (name : String) (scope : Scope := scope) : Body :=
  let internal := Naming.typeName name
  .record
    ["",
     "/** The over-the-wire representation of the \x7b@link " ++ scope.declared .internal internal ++
       "|" ++ internal ++ "\x7d type. */"]
    [.declared .internal internal]

def declaration (name type : String) : List String :=
  ["export type " ++ Naming.dtoName name ++ " = " ++ type ++ ";"]

def recordBody (s : Service) (t : TypeDecl) (scope : Scope := scope) : Body :=
  summary t.name scope ++ do
    let r ← .ofExcept (s.recordType .wire t)
    .record (declaration t.name (r.text scope)) r.mentions

def unionBody (s : Service) (u : UnionDecl) (scope : Scope := scope) : Body :=
  let ts := s.unionTypes .wire u
  summary u.name scope ++
    .record (declaration u.name (alternation (ts.map (·.text scope)))) (ts.flatMap ValueType.mentions)

def body (s : Service) (scope : Scope := scope) : Body :=
  Journal.concat (recordBody s · scope) s.sortedTypes ++
    Journal.concat (unionBody s · scope) s.sortedUnions

def frame (s : Service) (o : Options) : Frame where
  service := s
  options := o
  scope := scope
  modules := [("types", ⟨o.typesPath, true⟩)]

def render (s : Service) (o : Options) : Journal RenderError Artifact :=
  (frame s o).assemble ["dtos", "types.ts"] (body s)

end DtoGen.Artifact.Dtos
