import DtoGen.Document.Time
import DtoGen.Literal

namespace DtoGen

inductive Scalar where
  | literal (l : Literal)
  | date (d : Date)
  | timestamp (t : Timestamp)
  | bytes (bs : List UInt8)
deriving DecidableEq, Repr

/-- A mapping keeps its entries in the order in which their keys first appeared. -/
inductive Document where
  | scalar (s : Scalar)
  | list (items : List Document)
  | mapping (entries : List (Scalar × Document))
deriving Repr

namespace Scalar

def ofString (s : String) : Scalar := .literal (.string s)

def text : Scalar → String
  | .literal .null => "None"
  | .literal (.bool b) => if b then "True" else "False"
  | .literal (.int n) => toString n
  | .literal (.float x) => x.toText
  | .literal (.string s) => s
  | .date d => d.text
  | .timestamp t => t.text
  | .bytes bs => Text.shownBytes bs

def expression : Scalar → String
  | .date d => d.expression
  | .timestamp t => t.expression
  | s => s.text

def keyNumber : Literal → Literal
  | .bool b => .int (if b then 1 else 0)
  | l => l

/-- Whether two scalars are one key: numbers by value, truth values as numbers. -/
def sameKey : Scalar → Scalar → Bool
  | .literal (.float .nan), .literal (.float .nan) => true
  | .literal a, .literal b => (keyNumber a).strictEq (keyNumber b)
  | .date a, .date b => a = b
  | .bytes a, .bytes b => a = b
  | .timestamp a, .timestamp b =>
    a.offset.isSome = b.offset.isSome && a.instant = b.instant
  | _, _ => false

end Scalar

namespace Document

abbrev Entries := List (Scalar × Document)

/-- Sets the value of a key: in place if the key is there, at the end if not. -/
def put {α : Type} (key : Scalar) (value : α) : List (Scalar × α) → List (Scalar × α)
  | [] => [(key, value)]
  | (k, v) :: rest => if k.sameKey key then (k, value) :: rest else (k, v) :: put key value rest

def get? (key : String) (entries : Entries) : Option Document :=
  (entries.find? fun e => e.1 = .ofString key).map Prod.snd

def null : Document := .scalar (.literal .null)

end Document

end DtoGen
