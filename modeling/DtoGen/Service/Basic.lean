import DtoGen.Service.Value

namespace DtoGen

structure Property where
  name : String
  value : Value
  description : Option String := none
  deprecated : Bool := false
deriving DecidableEq, Repr

/-- A record with a map clause has further members under any key; required ones are listed. -/
structure MapClause where
  key : Value
  value : Value
  requiredKeys : List String := []
deriving DecidableEq, Repr

inductive SizeRule where
  | atMost (count : Int)
  | atLeast (count : Int)
deriving DecidableEq, Repr

structure TypeDecl where
  name : String
  properties : List Property := []
  mapClause : Option MapClause := none
  rules : List SizeRule := []
  description : Option String := none
  deprecated : Bool := false
deriving DecidableEq, Repr

structure EnumMember where
  content : String
  description : Option String := none
deriving DecidableEq, Repr

structure EnumDecl where
  name : String
  members : List EnumMember := []
  description : Option String := none
  deprecated : Bool := false
deriving DecidableEq, Repr

/-- The members of a union: any values, or records told apart by the constant in one property. -/
inductive UnionMembers where
  | simple (members : List Value)
  | discriminated (discriminator : String) (members : List Reference)
deriving DecidableEq, Repr

structure UnionDecl where
  name : String
  body : UnionMembers
  description : Option String := none
  deprecated : Bool := false
deriving DecidableEq, Repr

structure Parameter where
  name : String
  value : Value
  description : Option String := none
  deprecated : Bool := false
deriving DecidableEq, Repr

structure Method where
  name : String
  parameters : List Parameter := []
  returns : Option Value := none
  description : Option String := none
  deprecated : Bool := false
deriving DecidableEq, Repr

inductive ParameterLocation where
  | path
  | query
  | header
  | body
  | formData
deriving DecidableEq, Repr

/-- How the items of an array stand in one piece of text, or in several. -/
inductive ArrayFormat where
  | csv
  | ssv
  | tsv
  | pipes
  | multi
deriving DecidableEq, Repr

structure HttpParameter where
  name : String
  location : ParameterLocation
  arrayFormat : Option ArrayFormat := none
deriving DecidableEq, Repr

structure HttpMethod where
  name : String
  verb : String
  successCode : Int := 200
  parameters : List HttpParameter := []
deriving DecidableEq, Repr

structure HttpRoute where
  pattern : String
  methods : List HttpMethod := []
deriving DecidableEq, Repr

structure Interface where
  name : String
  methods : List Method := []
  http : List HttpRoute := []
  description : Option String := none
  deprecated : Bool := false
deriving DecidableEq, Repr

structure Service where
  title : String
  majorVersion : Int := 1
  interfaces : List Interface := []
  types : List TypeDecl := []
  enums : List EnumDecl := []
  unions : List UnionDecl := []
deriving DecidableEq, Repr

namespace TypeDecl

def maxProperties (t : TypeDecl) : Option Int :=
  t.rules.findSome? fun
    | .atMost n => some n
    | .atLeast _ => none

def minProperties (t : TypeDecl) : Option Int :=
  t.rules.findSome? fun
    | .atMost _ => none
    | .atLeast n => some n

def requiredKeys (t : TypeDecl) : List String :=
  match t.mapClause with
  | some m => m.requiredKeys
  | none => []

/-- How many members are named, as properties or as required keys. -/
def definedCount (t : TypeDecl) : Nat := t.properties.length + t.requiredKeys.length

def property? (t : TypeDecl) (name : String) : Option Property :=
  t.properties.find? (·.name == name)

end TypeDecl

namespace UnionDecl

def members (u : UnionDecl) : List Value :=
  match u.body with
  | .simple vs => vs
  | .discriminated _ rs => rs.map Reference.toValue

end UnionDecl

namespace ParameterLocation

def name : ParameterLocation → String
  | .path => "path"
  | .query => "query"
  | .header => "header"
  | .body => "body"
  | .formData => "formData"

def all : List ParameterLocation := [.path, .query, .header, .body, .formData]

end ParameterLocation

namespace ArrayFormat

def name : ArrayFormat → String
  | .csv => "csv"
  | .ssv => "ssv"
  | .tsv => "tsv"
  | .pipes => "pipes"
  | .multi => "multi"

def all : List ArrayFormat := [.csv, .ssv, .tsv, .pipes, .multi]

def separator? : ArrayFormat → Option String
  | .csv => some ","
  | .ssv => some " "
  | .tsv => some "\t"
  | .pipes => some "|"
  | .multi => none

end ArrayFormat

namespace Service

def methods (s : Service) : List Method := s.interfaces.flatMap (·.methods)

end Service

end DtoGen
