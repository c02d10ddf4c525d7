import DtoGen.Artifact.Basic
import DtoGen.Artifact.Route
import DtoGen.Mapping.Conversion
import DtoGen.Text.Upper

namespace DtoGen.Artifact.Handlers

def scope : Scope := { internal := some "types", wire := some "dtos", mapper := some "mappers" }

def modules (o : Options) : List (String × ModuleImport) :=
  [("types", ⟨o.typesPath, true⟩), ("dtos", ⟨o.dtosPath, true⟩), ("mappers", ⟨o.mappersPath, false⟩),
   ("schemas", ⟨o.schemasPath, false⟩), ("validators", ⟨o.validatorsPath, false⟩),
   ("errors", ⟨"./errors", false⟩), ("expressTypes", ⟨"./types", true⟩)]

def text (t : String) (ms : List Mention) : Journal RenderError String := .record t ms

def internal (spelling : String) (scope : Scope := scope) : Journal RenderError String :=
  text (scope.declared .internal spelling) [.declared .internal spelling]

def member (module name : String) (scope : Scope := scope) : Journal RenderError String :=
  text (scope.member module name) [.member module name]

def imported (package name : String) (typeOnly : Bool) (scope : Scope := scope) :
    Journal RenderError String :=
  text (scope.written name) [.imported package name typeOnly]

def converted (s : Service) (role : Role) (v : Value) (source : String) (scope : Scope := scope) :
    Journal RenderError String :=
  let e := s.expression role v (.raw source) none
  text (e.text scope) e.mentions

def requestText (location : ParameterLocation) (name : String) : String :=
  match location with
  | .path => "req.params" ++ Naming.accessor name
  | .query => "req.query" ++ Naming.accessor name
  | _ => "req.header(" ++ Text.quote name ++ ")"

/-- Splits text that holds all items of an array; values are separated by commas by default. -/
def splitItems (p : Parameter) (h : HttpParameter) (source : String) : String :=
  match p.value.isArray, (h.arrayFormat.getD .csv).separator? with
  | true, some sep => source ++ "?.split(" ++ Text.quote sep ++ ")"
  | _, _ => source

def parameterSource (s : Service) (p : Parameter) (h : HttpParameter) (scope : Scope := scope) :
    Journal RenderError String :=
  match h.location with
  | .body | .formData => converted s .serverInbound p.value "req.body" scope
  | l => text (splitItems p h (requestText l p.name)) []

/-- The members of the parameter object that the request provides. -/
def fields (s : Service) (b : Binding) (scope : Scope := scope) : Body :=
  Journal.concat (fun p =>
    match b.http.parameters.find? (·.name == p.name) with
    | none => .record [] []
    | some h => do
      let source ← parameterSource s p h scope
      .record [Facet.internal.memberKey p.name ++ ": " ++ source ++ ","] []) b.method.parameters

def parsedLines (m : Method) (paramsType : String) (fields : List String) (scope : Scope := scope) :
    Body := do
  let schema ← member "schemas" (Naming.paramsTypeName m.name ++ "Schema") scope
  let opening :=
    if m.parameters.any (·.value.isRequired) then
      "const params: " ++ paramsType ++ " = " ++ schema ++ ".parse(\x7b"
    else
      "const params: " ++ paramsType ++ " | undefined = " ++ schema ++ ".optional().parse(\x7b"
  .record ("// Parse parameters from request" :: opening :: fields ++ ["\x7d);"]) []

def validatedLines (m : Method) (paramsType : String) (fields : List String) (scope : Scope := scope) :
    Body := do
  let validator ← member "validators" ("validate" ++ Naming.paramsTypeName m.name) scope
  let failure ← member "errors" "validationErrors" scope
  .record
    ("// Parse parameters from request" :: ("const params: " ++ paramsType ++ " = \x7b") :: fields ++
      ["\x7d;",
       "const validationErrors = " ++ validator ++ "(params);",
       "if (validationErrors.length) \x7b",
       "return next(" ++ failure ++ "(400, validationErrors));",
       "\x7d"]) []

def parameterLines (s : Service) (o : Options) (b : Binding) (scope : Scope := scope) : Body :=
  if b.method.parameters.isEmpty then .record [] []
  else do
    let paramsType ← internal (Naming.paramsTypeName b.method.name) scope
    let fs ← fields s b scope
    let lines ←
      if o.usesSchemas then parsedLines b.method paramsType fs scope
      else validatedLines b.method paramsType fs scope
    .record (lines ++ [""]) []

def callLines (b : Binding) : List String :=
  let m := b.method
  let call := "service." ++ Naming.methodName m.name ++ "(" ++
    (if m.parameters.isEmpty then "" else "params") ++ ")"
  ["// Execute service method",
   "const service = getService(req, res);",
   if m.returns.isSome then "const result = await " ++ call ++ ";" else "await " ++ call ++ ";",
   "const status = " ++ toString b.http.successCode ++ ";",
   "",
   "// Respond"]

def responseLines (s : Service) (m : Method) (scope : Scope := scope) : Body :=
  match m.returns with
  | none => .record ["res.sendStatus(status);"] []
  | some v => do
    let dto ← converted s .serverOutbound v "result" scope
    .record ["const responseDto = " ++ dto ++ ";", "res.status(status).json(responseDto);"] []

def failureLines (o : Options) (scope : Scope := scope) : Body := do
  let unhandled ← member "errors" "unhandledException" scope
  if o.usesSchemas then
    let zodError ← imported "zod" "ZodError" false scope
    let invalid ← member "errors" "validationErrors" scope
    .record
      ["\x7d catch (err) \x7b",
       "if (err instanceof " ++ zodError ++ ") \x7b",
       "const statusCode = res.headersSent ? 500 : 400;",
       "return next(" ++ invalid ++ "(statusCode, err.errors));",
       "\x7d else \x7b",
       "next(" ++ unhandled ++ "(err));",
       "\x7d"] []
  else .record ["\x7d catch (err) \x7b", "next(" ++ unhandled ++ "(err));"] []

def headLines (o : Options) (b : Binding) (scope : Scope := scope) : Body := do
  let request ← imported "express" "Request" true scope
  let response ← imported "express" "Response" true scope
  let service ← internal (Naming.interfaceName b.interface.name o.nomenclature) scope
  let handler ← member "expressTypes" (Naming.requestHandlerTypeName b.method.name) scope
  .record
    ["",
     "/** " ++ Text.upper b.http.verb ++ " " ++ Route.express b.pattern ++
       (if b.method.deprecated then " @deprecated" else "") ++ " */",
     "export const " ++ Naming.handlerName b.method.name ++ " =",
     "(getService: (req: " ++ request ++ ", res: " ++ response ++ ") => " ++ service ++ "): " ++
       handler ++ " =>",
     "async (req, res, next) => \x7b",
     "try \x7b"] []

def handlerBody (s : Service) (o : Options) (b : Binding) (scope : Scope := scope) : Body :=
  headLines o b scope ++ parameterLines s o b scope ++
    .record (callLines b) [.numeral b.http.successCode] ++
    responseLines s b.method scope ++ failureLines o scope ++ .record ["\x7d", "\x7d;"] []

def frame (s : Service) (o : Options) : Frame :=
  { service := s, options := o, scope, modules := modules o }

def body (s : Service) (o : Options) (scope : Scope := scope) : Body :=
  Journal.concat (handlerBody s o · scope) s.bindings

def render (s : Service) (o : Options) : Journal RenderError Artifact :=
  (frame s o).assemble ["express", "handlers.ts"] (body s o)

end DtoGen.Artifact.Handlers
