import DtoGen.Literal

namespace DtoGen

inductive Primitive where
  | string
  | number
  | integer
  | long
  | float
  | double
  | boolean
  | date
  | dateTime
  | binary
  | null
  | untyped
deriving DecidableEq, Repr, Inhabited

namespace Primitive

def name : Primitive → String
  | .string => "string"
  | .number => "number"
  | .integer => "integer"
  | .long => "long"
  | .float => "float"
  | .double => "double"
  | .boolean => "boolean"
  | .date => "date"
  | .dateTime => "date-time"
  | .binary => "binary"
  | .null => "null"
  | .untyped => "untyped"

def all : List Primitive :=
  [.string, .number, .integer, .long, .float, .double, .boolean, .date, .dateTime, .binary, .null,
   .untyped]

def ofName? (s : String) : Option Primitive := all.find? (·.name == s)

def isNumeric : Primitive → Bool
  | .number | .integer | .long | .float | .double => true
  | _ => false

def isDate : Primitive → Bool
  | .date | .dateTime => true
  | _ => false

end Primitive

inductive Base where
  | primitive (kind : Primitive) (constant : Option Literal)
  | named (name : String)
deriving DecidableEq, Repr

structure Value where
  base : Base
  isArray : Bool := false
  isOptional : Bool := false
  isNullable : Bool := false
deriving DecidableEq, Repr

structure Reference where
  name : String
  isArray : Bool := false
  isOptional : Bool := false
  isNullable : Bool := false
deriving DecidableEq, Repr

def Reference.toValue (r : Reference) : Value :=
  ⟨.named r.name, r.isArray, r.isOptional, r.isNullable⟩

namespace Value

def isRequired (v : Value) : Bool := !v.isOptional

def asRequired (v : Value) : Value := { v with isOptional := false }

def asOptional (v : Value) : Value := { v with isOptional := true }

def isDate (v : Value) : Bool :=
  match v.base with
  | .primitive k _ => k.isDate
  | .named _ => false

def constant? (v : Value) : Option Literal :=
  match v.base with
  | .primitive _ c => c
  | .named _ => none

def name? (v : Value) : Option String :=
  match v.base with
  | .primitive _ _ => none
  | .named n => some n

end Value

end DtoGen
