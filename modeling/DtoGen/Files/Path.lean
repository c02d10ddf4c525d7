import DtoGen.Abort
import DtoGen.Text.Blank

namespace DtoGen

/-- A path; its root is empty unless it is absolute. -/
structure Path where
  root : String := ""
  parts : List String := []
deriving DecidableEq, Repr

namespace Path

/-- Two slashes at the start, and no more, are a root of their own. -/
def rootOf (s : List Char) : String :=
  match (s.takeWhile (· = '/')).length with
  | 0 => ""
  | 2 => "//"
  | _ => "/"

def ofText (text : String) : Path where
  root := rootOf text.toList
  parts := ((Text.splitAt '/' text.toList).map String.ofList).filter fun p => p ≠ "" && p ≠ "."

def text (p : Path) : String :=
  let t := p.root ++ "/".intercalate p.parts
  if t = "" then "." else t

def parent (p : Path) : Path := { p with parts := p.parts.dropLast }

def join (p : Path) (segments : List String) : Path :=
  { p with parts := p.parts ++ segments.flatMap fun s => (ofText s).parts }

/-- Why no file can have this path: it has no bytes, or a null byte among them. -/
def abort? (p : Path) : Option Abort :=
  let cs := p.text.toList
  match Text.unencodable? Text.namesByte 0 cs with
  | some u => some (.unencodable u)
  | none => if cs.contains '\x00' then some .nullByte else none

def byteCount (s : String) : Nat :=
  s.toList.foldl (fun n c => n + if Text.isLone c then 1 else c.utf8Size) 0

def name (p : Path) : String := p.parts.getLast?.getD ""

/-- The last dot of the name and what follows it, unless the dot comes first or last. -/
def suffix (p : Path) : String :=
  let n := p.name.toList
  let after := (n.reverse.takeWhile (· ≠ '.')).length
  if n.contains '.' && 0 < after && after + 1 < n.length then String.ofList (n.drop (n.length - after - 1))
  else ""

end Path

end DtoGen
