import DtoGen.Artifact.Basic

namespace DtoGen.Artifact.Readme

def side : Perspective → String
  | .client => "client"
  | .server => "API"

def counterpart : Perspective → String
  | .client => "API"
  | .server => "client"

def audience : Perspective → String
  | .client => "Forms and other UI code interacting with the API belong in this category."
  | .server => "Service implementations containing the business logic belong in this category."

def usage : Perspective → List String
  | .client =>
    ["Use the mappers directly when hand-writing network calls:",
     "",
     "- convert request values into DTOs before sending them,",
     "- convert response DTOs into internal types after receiving them."]
  | .server =>
    ["The generated Express handlers already apply the mappers. Use them directly",
     "when hand-writing handlers:",
     "",
     "- convert request DTOs into internal types before calling the service,",
     "- convert service results into DTOs before sending the response."]

def lines (s : Service) (o : Options) : List String :=
  let internal := "[**internal types**](" ++ o.typesPath ++ ".ts)"
  let dtos := "[**DTO types**](./types.ts)"
  let mappers := "[mappers](./mappers.ts)"
  ["<!--",
   "This file was generated by wiremap. Changes to this file may cause",
   "incorrect behavior and will be lost if the code is regenerated.",
   "",
   "Service: " ++ s.title ++ " v" ++ toString s.majorVersion,
   "-->",
   "",
   "# " ++ s.title,
   "",
   "## Data Transfer Objects (DTOs)",
   "",
   "The generated " ++ side o.role ++ " code contains two sets of types: " ++ internal ++ " and " ++
     dtos ++ ".",
   "",
   "- " ++ internal ++ " follow TypeScript conventions: camelCase properties,",
   "  `Date` objects for dates and no `null` where a value may simply be absent.",
   "- " ++ dtos ++ " describe the over-the-wire format exactly as the API contract",
   "  defines it, including its original property names.",
   "",
   "Hand-written code should use " ++ internal ++ ". " ++ audience o.role,
   "Use " ++ dtos ++ " only at the boundary where data is exchanged with the " ++
     counterpart o.role ++ ".",
   "",
   "## Mappers",
   "",
   "The " ++ mappers ++ " module converts between " ++ internal ++ " and " ++ dtos ++ ".",
   "Every mapper is generated from the API contract, so regenerating the code keeps",
   "the conversions in sync as the contract evolves.",
   ""] ++ usage o.role

def frame (s : Service) (o : Options) : Frame := { service := s, options := o }

def render (s : Service) (o : Options) : Journal RenderError Artifact :=
  .record ⟨(frame s o).path ["dtos", "README.md"], "\n".intercalate (lines s o) ++ "\n"⟩
    [.numeral s.majorVersion]

end DtoGen.Artifact.Readme
