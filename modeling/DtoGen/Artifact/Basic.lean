import DtoGen.Journal
import DtoGen.Layout
import DtoGen.Options.Basic
import DtoGen.Service.Basic
import DtoGen.Text.Blank

namespace DtoGen

structure Artifact where
  path : List String
  contents : String
deriving DecidableEq, Repr

def Artifact.relativePath (a : Artifact) : String := "/".intercalate a.path

/-- A module that is imported as a whole. -/
structure ModuleImport where
  path : String
  typeOnly : Bool := true
deriving Repr

abbrev Body := Journal RenderError (List String)

/-- What an artifact is made in: its names, and the modules it may import under them. -/
structure Frame where
  service : Service
  options : Options
  scope : Scope := {}
  modules : List (String × ModuleImport) := []

namespace Frame

def banner (f : Frame) : List String :=
  ["/**",
   " * This code was generated by wiremap. Changes to this file may cause",
   " * incorrect behavior and will be lost if the code is regenerated.",
   " *",
   " * Service: " ++ f.service.title ++ " v" ++ toString f.service.majorVersion,
   " */",
   ""]

def importWord (typeOnly : Bool) : String := if typeOnly then "import type" else "import"

def sortTexts (ts : List String) : List String := ts.eraseDups.mergeSort Text.le

/-- The packages from which names are taken; imports of types follow others of the same package. -/
def packages (ms : List Mention) : List (String × Bool) :=
  let found : List (String × Bool) := ms.filterMap fun
    | .imported p _ t => some (p, t)
    | _ => none
  found.eraseDups.mergeSort fun a b =>
    if a.1 = b.1 then !a.2 || b.2 else Text.le a.1 b.1

def namesFrom (package : String × Bool) (ms : List Mention) : List String :=
  sortTexts (ms.filterMap fun
    | .imported p n t => if (p, t) = package then some n else none
    | _ => none)

def packageLine (package : String × Bool) (ms : List Mention) : String :=
  importWord package.2 ++ " \x7b " ++ ", ".intercalate (namesFrom package ms) ++ " \x7d from '" ++
    package.1 ++ "';"

def moduleLine (name : String) (m : ModuleImport) : String :=
  importWord m.typeOnly ++ " * as " ++ name ++ " from '" ++ m.path ++ "';"

/-- The imports for what was mentioned: names of packages, then whole modules. -/
def importLines (f : Frame) (ms : List Mention) : List String :=
  (packages ms).map (packageLine · ms) ++
    (f.scope.moduleNames ms).filterMap fun a => (f.modules.lookup a).map (moduleLine a)

/-- The path of a file, below a directory for the major version if that is wanted. -/
def path (f : Frame) (segments : List String) : List String :=
  if f.options.includeVersion then ("v" ++ toString f.service.majorVersion) :: segments else segments

def assemble (f : Frame) (segments : List String) (body : Body) : Journal RenderError Artifact :=
  body.bind fun lines =>
    .record ⟨f.path segments, Layout.reindent (f.banner ++ f.importLines body.mentions ++ lines)⟩
      [.numeral f.service.majorVersion]

end Frame

namespace Journal

def concat {ε α : Type} (f : α → Journal ε (List String)) (as : List α) : Journal ε (List String) :=
  (traverse f as).bind fun ls => Journal.pure ls.flatten

def append {ε : Type} (x y : Journal ε (List String)) : Journal ε (List String) :=
  x.bind fun a => y.bind fun b => Journal.pure (a ++ b)

instance {ε : Type} : Append (Journal ε (List String)) := ⟨append⟩

end Journal

end DtoGen
