import DtoGen.Artifact.Dtos
import DtoGen.Artifact.Express
import DtoGen.Artifact.HandlerTypes
import DtoGen.Artifact.Handlers
import DtoGen.Artifact.Mappers
import DtoGen.Artifact.Readme
import DtoGen.Artifact.Types
import DtoGen.Service.Check

namespace DtoGen

inductive ArtifactKind where
  | types
  | dtos
  | mappers
  | readme
  | handlers
  | handlerTypes
  | errors
  | index
deriving DecidableEq, Repr

namespace ArtifactKind

def label : ArtifactKind → String
  | .types => "TypesEmitter"
  | .dtos => "DtoEmitter"
  | .mappers => "MapperEmitter"
  | .readme => "ReadmeEmitter"
  | .handlers => "HandlerEmitter"
  | .handlerTypes => "HandlerTypesEmitter"
  | .errors => "ErrorsEmitter"
  | .index => "IndexEmitter"

/-- The artifacts for a side; only a server has request handlers. -/
def all : Perspective → List ArtifactKind
  | .client => [.types, .dtos, .mappers, .readme]
  | .server => [.types, .dtos, .mappers, .readme, .handlers, .handlerTypes, .errors, .index]

def frame (k : ArtifactKind) (s : Service) (o : Options) : Frame :=
  match k with
  | .types => Artifact.Types.frame s o
  | .dtos => Artifact.Dtos.frame s o
  | .mappers => Artifact.Mappers.frame s o
  | .readme => Artifact.Readme.frame s o
  | .handlers => Artifact.Handlers.frame s o
  | .handlerTypes => Artifact.HandlerTypes.frame s o
  | .errors => Artifact.Errors.frame s o
  | .index => Artifact.Index.frame s o

def render (k : ArtifactKind) (s : Service) (o : Options) : Journal RenderError Artifact :=
  match k with
  | .types => Artifact.Types.render s o
  | .dtos => Artifact.Dtos.render s o
  | .mappers => Artifact.Mappers.render s o
  | .readme => Artifact.Readme.render s o
  | .handlers => Artifact.Handlers.render s o
  | .handlerTypes => Artifact.HandlerTypes.render s o
  | .errors => Artifact.Errors.render s o
  | .index => Artifact.Index.render s o

end ArtifactKind

inductive GenerationError where
  | invalid (title : String) (defects : List Defect)
  | unrenderable (cause : RenderError)
  | aborted (cause : Abort)
deriving Repr

namespace GenerationError

def message : GenerationError → String
  | .invalid t ds =>
    "Service '" ++ t ++ "' is invalid:\n" ++ "\n".intercalate (ds.map fun d => "  " ++ d.message)
  | .unrenderable e => e.message
  | .aborted a => a.message

/-- An error whose message cannot be put into words gives the work up. -/
def ofRender (e : RenderError) : GenerationError :=
  if e.integers.all Abort.isShort then .unrenderable e else .aborted .longNumeral

end GenerationError

def Mention.isLong : Mention → Bool
  | .numeral n => !Abort.isShort n
  | _ => false

/-- Renders an artifact, up to the first integer that is too long. -/
def ArtifactKind.emit (k : ArtifactKind) (s : Service) (o : Options) :
    Journal GenerationError Artifact :=
  ((k.render s o).mapError .ofRender).stopAt Mention.isLong (.aborted .longNumeral)

namespace Service

def announced (s : Service) (o : Options) (k : ArtifactKind) :
    Journal GenerationError Artifact := do
  .note [.notice (.artifactStarted k.label)]
  let a ← k.emit s o
  .record a [.notice (.fileRendered a.relativePath)]

def generate (s : Service) (o : Options) : Journal GenerationError (List Artifact) := do
  let report := s.check
  if report.isWritable then
    .note (report.concerns.map fun c => .notice (.validationWarning c.message))
    if report.isSound then Journal.traverse (s.announced o) (ArtifactKind.all o.role)
    else .fail (.invalid s.title report.defects)
  else .fail (.aborted .longNumeral)

end Service

end DtoGen
