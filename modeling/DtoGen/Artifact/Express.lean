import DtoGen.Artifact.Basic

namespace DtoGen.Artifact

namespace Errors

def scope : Scope := {}

/-- The type of one validation error, which depends on how parameters are validated. -/
def issueType (o : Options) (scope : Scope := scope) : Journal RenderError String :=
  if o.usesSchemas then .record (scope.written "ZodIssue") [.imported "zod" "ZodIssue" true]
  else .record (scope.member "validators" "ValidationError") [.member "validators" "ValidationError"]

def body (o : Options) (scope : Scope := scope) : Body := do
  let issue ← issueType o scope
  .record
    ["",
     "export function methodNotAllowed(): MethodNotAllowedError \x7b",
     "return \x7b code: 'METHOD_NOT_ALLOWED', status: 405, title: 'Method Not Allowed' \x7d;",
     "\x7d",
     "export function isMethodNotAllowed(error: any): error is MethodNotAllowedError \x7b",
     "return error.code === 'METHOD_NOT_ALLOWED';",
     "\x7d",
     "export type MethodNotAllowedError = \x7b code: 'METHOD_NOT_ALLOWED'; status: number; title: string \x7d;",
     "",
     "export function validationErrors(status: 400 | 500, errors: " ++ issue ++
       "[]): ValidationErrorsError \x7b",
     "return \x7b code: 'VALIDATION_ERRORS', status, errors \x7d;",
     "\x7d",
     "export function isValidationErrors(error: any): error is ValidationErrorsError \x7b",
     "return error.code === 'VALIDATION_ERRORS';",
     "\x7d",
     "export type ValidationErrorsError = \x7b code: 'VALIDATION_ERRORS'; status: number; errors: " ++
       issue ++ "[] \x7d;",
     "",
     "export function unhandledException(exception: any): UnhandledExceptionError \x7b",
     "return \x7b code: 'UNHANDLED_EXCEPTION', status: 500, exception \x7d;",
     "\x7d",
     "export function isUnhandledException(error: any): error is UnhandledExceptionError \x7b",
     "return error.code === 'UNHANDLED_EXCEPTION';",
     "\x7d",
     "export type UnhandledExceptionError = \x7b code: 'UNHANDLED_EXCEPTION'; status: number; exception: any \x7d;"]
    []

def frame (s : Service) (o : Options) : Frame where
  service := s
  options := o
  scope := scope
  modules := [("validators", ⟨o.validatorsPath, true⟩)]

def render (s : Service) (o : Options) : Journal RenderError Artifact :=
  (frame s o).assemble ["express", "errors.ts"] (body o)

end Errors

namespace Index

def lines (o : Options) : List String :=
  ["",
   "export * as dtos from '" ++ o.dtosPath ++ "';",
   "export * as mappers from '" ++ o.mappersPath ++ "';",
   "export * from './errors';",
   "export * from './handlers';",
   "export * from './types';"]

def frame (s : Service) (o : Options) : Frame := { service := s, options := o }

def render (s : Service) (o : Options) : Journal RenderError Artifact :=
  (frame s o).assemble ["express", "index.ts"] (.record (lines o) [])

end Index

end DtoGen.Artifact
