import DtoGen.Role

namespace DtoGen

/-- For which side code is made, where its parts are imported from, and how it validates. -/
structure Options where
  role : Perspective := .server
  typesPath : String := "../types"
  validatorsPath : String := "../validators"
  dtosPath : String := "../dtos/types"
  mappersPath : String := "../dtos/mappers"
  schemasPath : String := "../schemas"
  nomenclature : String := "service"
  validation : String := "zod"
  includeVersion : Bool := true
deriving DecidableEq, Repr, Inhabited

/-- Whether parameters are parsed by schemas; otherwise validators check them. -/
def Options.usesSchemas (o : Options) : Bool := o.validation = "zod"

end DtoGen
