import DtoGen.Literal
import DtoGen.Naming
import DtoGen.Notice
import DtoGen.Role

namespace DtoGen

/-- Functions that mappers need at run time. -/
inductive Helper where
  | isIsoDate
  | isIsoDateTime
  | compact
deriving DecidableEq, Repr

namespace Helper

def name : Helper → String
  | .isIsoDate => "isIsoDate"
  | .isIsoDateTime => "isIsoDateTime"
  | .compact => "compact"

/-- All helpers, in the order of their definitions in the output. -/
def all : List Helper := [.isIsoDate, .isIsoDateTime, .compact]

def source : Helper → List String
  | .isIsoDate =>
    ["const isoDateRegex = /^\\d\x7b4\x7d-\\d\x7b2\x7d-\\d\x7b2\x7d$/;",
     "function isIsoDate(s: string): boolean \x7b",
     "if (!isoDateRegex.test(s)) return false;",
     "const d = new Date(s + 'T00:00:00Z');",
     "return !Number.isNaN(d.valueOf()) && d.toISOString().slice(0, 10) === s;",
     "\x7d"]
  | .isIsoDateTime =>
    ["const isoDateTimeRegex = /^\\d\x7b4\x7d-\\d\x7b2\x7d-\\d\x7b2\x7dT\\d\x7b2\x7d:\\d\x7b2\x7d:\\d\x7b2\x7d(?:\\.\\d\x7b1,9\x7d)?(?:Z|[+-]\\d\x7b2\x7d:\\d\x7b2\x7d)$/;",
     "function isIsoDateTime(s: string): boolean \x7b",
     "if (!isoDateTimeRegex.test(s)) return false;",
     "return !Number.isNaN(new Date(s).valueOf());",
     "\x7d"]
  | .compact =>
    ["function compact<T extends object>(obj: T): T \x7b",
     "return Object.keys(obj).reduce((acc, key) => \x7b",
     "const value = obj[key as keyof T];",
     "if (value !== undefined) \x7b",
     "acc[key as keyof T] = value;",
     "\x7d",
     "return acc;",
     "\x7d, \x7b\x7d as T);",
     "\x7d"]

end Helper

/-- A declaration of one facet, a mapper, a name of a package, a module or a name of it, a helper, an
integer that is written out, or something to be said. -/
inductive Mention where
  | declared (facet : Facet) (spelling : String)
  | mapper (spelling : String)
  | imported (package name : String) (typeOnly : Bool)
  | module (name : String)
  | member (module name : String)
  | helper (h : Helper)
  | numeral (n : Int)
  | notice (n : Notice)
deriving DecidableEq, Repr

def Literal.mentions (l : Literal) : List Mention := l.integers.map .numeral

def Facet.spell : Facet → String → String
  | .internal, name => Naming.typeName name
  | .wire, name => Naming.dtoName name

/-- The modules under which declarations and mappers are imported; those without one are local. The
names of modules, imports, helpers and mappers are written as they are. -/
structure Scope where
  internal : Option String := none
  wire : Option String := none
  mapper : Option String := none
  written : String → String := id

namespace Scope

def moduleOf (s : Scope) : Facet → Option String
  | .internal => s.internal
  | .wire => s.wire

def member (s : Scope) (module name : String) : String := s.written module ++ "." ++ name

def qualify (s : Scope) (m : Option String) (spelling : String) : String :=
  match m with
  | some m => s.member m spelling
  | none => spelling

def declared (s : Scope) (f : Facet) (spelling : String) : String :=
  s.qualify (s.moduleOf f) spelling

def mapperText (s : Scope) (spelling : String) : String := s.qualify s.mapper (s.written spelling)

def moduleName? (s : Scope) : Mention → Option String
  | .declared f _ => s.moduleOf f
  | .mapper _ => s.mapper
  | .module a => some a
  | .member a _ => some a
  | _ => none

def moduleNames (s : Scope) (ms : List Mention) : List String :=
  (ms.filterMap s.moduleName?).eraseDups.mergeSort Text.le

end Scope

namespace Mention

def helper? : Mention → Option Helper
  | .helper h => some h
  | _ => none

def notice? : Mention → Option Notice
  | .notice n => some n
  | _ => none

end Mention

end DtoGen
