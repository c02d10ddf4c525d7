import DtoGen.Condition.Chain
import DtoGen.Mapping.Conversion

namespace DtoGen

/-- What a test looks at: the parameter, or the first item of it. -/
inductive Subject where
  | whole
  | first
deriving DecidableEq, Repr

/-- Kinds of values that the language itself tells apart. -/
inductive ValueKind where
  | boolean
  | string
  | number
  | object
deriving DecidableEq, Repr

inductive DateFormat where
  | date
  | dateTime
deriving DecidableEq, Repr

inductive Test where
  | isArray
  | isNoArray
  | isEmpty
  | hasKind (x : Subject) (k : ValueKind)
  | isNull (x : Subject)
  | isNotNull (x : Subject)
  | isDateObject (x : Subject)
  | isDateText (x : Subject) (f : DateFormat)
  | hasMember (x : Subject) (name : String)
  | memberIs (x : Subject) (name : String) (value : Literal)
  | always
deriving DecidableEq, Repr

/-- The statements of a branch: give back the parameter, an empty array, the parameter without a
check, a conversion of it, or an object of converted members. -/
inductive Action where
  | same
  | empty
  | unchecked
  | convert (c : Conversion)
  | merge (fields : List Field)
deriving DecidableEq, Repr

def Subject.text (parameter : String) : Subject → String
  | .whole => parameter
  | .first => parameter ++ "[0]"

def ValueKind.name : ValueKind → String
  | .boolean => "boolean"
  | .string => "string"
  | .number => "number"
  | .object => "object"

def DateFormat.helper : DateFormat → Helper
  | .date => .isIsoDate
  | .dateTime => .isIsoDateTime

namespace Test

def text (scope : Scope) (parameter : String) : Test → String
  | .isArray => "Array.isArray(" ++ parameter ++ ")"
  | .isNoArray => "!Array.isArray(" ++ parameter ++ ")"
  | .isEmpty => parameter ++ ".length === 0"
  | .hasKind x k => "typeof " ++ x.text parameter ++ " === '" ++ k.name ++ "'"
  | .isNull x => x.text parameter ++ " === null"
  | .isNotNull x => x.text parameter ++ " !== null"
  | .isDateObject x => x.text parameter ++ " instanceof Date"
  | .isDateText x f => scope.written f.helper.name ++ "(" ++ x.text parameter ++ ")"
  | .hasMember x n => Text.quote n ++ " in " ++ x.text parameter
  | .memberIs x n l => x.text parameter ++ Naming.accessor n ++ " === " ++ l.text
  | .always => "true"

end Test

namespace Action

def mergedObject : String := "union"

def lines (scope : Scope) (parameter : String) : Action → List String
  | .same => ["return " ++ parameter ++ ";"]
  | .empty => ["return [];"]
  | .unchecked => ["return " ++ parameter ++ " as any;"]
  | .convert c => ["return " ++ c.apply scope parameter none ++ ";"]
  | .merge fields =>
    ("const " ++ mergedObject ++ " = " ++ parameter ++ " as any;") ::
      ("return " ++ scope.written Helper.compact.name ++ "(\x7b") :: fields.map (·.text scope) ++ ["\x7d) as any;"]

end Action

abbrev Branching := Block Test Action

def Branching.lines (scope : Scope) (parameter : String) (bs : List Branching) : List String :=
  Block.lines (Block.mapAll (Test.text scope parameter) (Action.lines scope parameter) bs)

end DtoGen
