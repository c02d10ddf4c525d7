import DtoGen.Document.Basic
import DtoGen.Service.Basic

namespace DtoGen.Dump

def string (s : String) : Document := .scalar (.ofString s)

def bool (b : Bool) : Document := .scalar (.literal (.bool b))

def int (n : Int) : Document := .scalar (.literal (.int n))

def optional {α : Type} (dump : α → Document) : Option α → Document
  | none => .null
  | some a => dump a

def list {α : Type} (dump : α → Document) (as : List α) : Document := .list (as.map dump)

def object (fields : List (String × Document)) : Document :=
  .mapping (fields.map fun (k, d) => (.ofString k, d))

def constant (l : Literal) : Document := object [("value", .scalar (.literal l))]

def reference (r : Reference) : Document :=
  object [("kind", string "ComplexValue"), ("typeName", string r.name), ("isArray", bool r.isArray),
    ("isOptional", bool r.isOptional), ("isNullable", bool r.isNullable)]

def value (v : Value) : Document :=
  match v.base with
  | .primitive k c =>
    object [("kind", string "PrimitiveValue"), ("typeName", string k.name), ("isArray", bool v.isArray),
      ("isOptional", bool v.isOptional), ("isNullable", bool v.isNullable),
      ("constant", optional constant c)]
  | .named n => reference ⟨n, v.isArray, v.isOptional, v.isNullable⟩

def property (p : Property) : Document :=
  object [("name", string p.name), ("value", value p.value),
    ("description", optional string p.description), ("deprecated", bool p.deprecated)]

def mapClause (m : MapClause) : Document :=
  object [("key", value m.key), ("value", value m.value),
    ("requiredKeys", list string m.requiredKeys)]

def sizeRule : SizeRule → Document
  | .atMost n => object [("id", string "ObjectMaxProperties"), ("max", int n)]
  | .atLeast n => object [("id", string "ObjectMinProperties"), ("min", int n)]

def typeDecl (t : TypeDecl) : Document :=
  object [("name", string t.name), ("properties", list property t.properties),
    ("mapProperties", optional mapClause t.mapClause), ("rules", list sizeRule t.rules),
    ("description", optional string t.description), ("deprecated", bool t.deprecated)]

def enumMember (m : EnumMember) : Document :=
  object [("content", string m.content), ("description", optional string m.description)]

def enumDecl (e : EnumDecl) : Document :=
  object [("name", string e.name), ("members", list enumMember e.members),
    ("description", optional string e.description), ("deprecated", bool e.deprecated)]

def unionDecl (u : UnionDecl) : Document :=
  match u.body with
  | .simple ms =>
    object [("kind", string "SimpleUnion"), ("name", string u.name), ("members", list value ms),
      ("description", optional string u.description), ("deprecated", bool u.deprecated)]
  | .discriminated d ms =>
    object [("kind", string "DiscriminatedUnion"), ("name", string u.name),
      ("discriminator", string d), ("members", list reference ms),
      ("description", optional string u.description), ("deprecated", bool u.deprecated)]

def parameter (p : Parameter) : Document :=
  object [("name", string p.name), ("value", value p.value),
    ("description", optional string p.description), ("deprecated", bool p.deprecated)]

def method (m : Method) : Document :=
  object [("name", string m.name), ("parameters", list parameter m.parameters),
    ("returns", optional value m.returns), ("description", optional string m.description),
    ("deprecated", bool m.deprecated)]

def httpParameter (p : HttpParameter) : Document :=
  object [("name", string p.name), ("location", string p.location.name),
    ("arrayFormat", optional (fun f => string f.name) p.arrayFormat)]

def httpMethod (m : HttpMethod) : Document :=
  object [("name", string m.name), ("verb", string m.verb), ("successCode", int m.successCode),
    ("parameters", list httpParameter m.parameters)]

def httpRoute (r : HttpRoute) : Document :=
  object [("pattern", string r.pattern), ("methods", list httpMethod r.methods)]

def interface (i : Interface) : Document :=
  object [("name", string i.name), ("methods", list method i.methods),
    ("http", list httpRoute i.http), ("description", optional string i.description),
    ("deprecated", bool i.deprecated)]

def service (s : Service) : Document :=
  object [("title", string s.title), ("majorVersion", int s.majorVersion),
    ("interfaces", list interface s.interfaces), ("types", list typeDecl s.types),
    ("enums", list enumDecl s.enums), ("unions", list unionDecl s.unions)]

end DtoGen.Dump
