import DtoGen.Artifact.Basic
import DtoGen.Mapping.Record
import DtoGen.Mapping.Union

namespace DtoGen.Artifact.Mappers

def scope : Scope := { internal := some "types", wire := some "dtos" }

structure Group where
  role : Role
  types : List TypeDecl
  unions : List UnionDecl

def inputs (s : Service) (p : Perspective) : Group :=
  ⟨p.inputs, s.reachedTypes s.inputs, s.reachedUnions s.inputs⟩

def outputs (s : Service) (p : Perspective) : Group :=
  ⟨p.outputs, s.reachedTypes s.outputs, s.reachedUnions s.outputs⟩

/-- The groups of mappers; those that read the wire come first. -/
def groups (s : Service) (p : Perspective) : List Group :=
  match p with
  | .server => [inputs s p, outputs s p]
  | .client => [outputs s p, inputs s p]

def recordBody (s : Service) (role : Role) (t : TypeDecl) (scope : Scope := scope) : Body :=
  let m := s.recordMapper role t
  .record ("" :: m.lines scope) (.notice (.typeMapper role.name t.name) :: m.mentions)

def unionBody (s : Service) (role : Role) (u : UnionDecl) (scope : Scope := scope) : Body := do
  .note [.notice (.unionMapper role.name u.name)]
  let m ← s.unionMapper role u
  .record ("" :: m.lines scope) []

def groupBody (s : Service) (g : Group) (scope : Scope := scope) : Body :=
  Journal.concat (recordBody s g.role · scope) g.types ++
    Journal.concat (unionBody s g.role · scope) g.unions

def helperLines (ms : List Mention) : List String :=
  (Helper.all.filter fun h => ms.contains (.helper h)).flatMap fun h => "" :: h.source

def body (s : Service) (o : Options) (scope : Scope := scope) : Body :=
  let mappers := Journal.concat (groupBody s · scope) (groups s o.role)
  mappers.bind fun lines => .record (helperLines mappers.mentions ++ lines) []

def frame (s : Service) (o : Options) : Frame where
  service := s
  options := o
  scope := scope
  modules := [("types", ⟨o.typesPath, true⟩), ("dtos", ⟨"./types", true⟩)]

def render (s : Service) (o : Options) : Journal RenderError Artifact :=
  (frame s o).assemble ["dtos", "mappers.ts"] (body s o)

end DtoGen.Artifact.Mappers
