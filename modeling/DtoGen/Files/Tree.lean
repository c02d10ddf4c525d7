import DtoGen.Files.Basic

namespace DtoGen

inductive FileEntry where
  | file (text : String)
  | directory
deriving DecidableEq, Repr

/-- Entries by the names that lead to them from the top; the top itself is a directory. -/
structure FileTree where
  entries : List (List String × FileEntry) := []
  current : List String := []
deriving Repr

namespace FileTree

def entry? (t : FileTree) (place : List String) : Option FileEntry :=
  if place.isEmpty then some .directory else t.entries.lookup place

def put (place : List String) (e : FileEntry) (t : FileTree) : FileTree :=
  { t with entries := (place, e) :: t.entries.filter (·.1 ≠ place) }

def maxName : Nat := 255

def pathLimit : Nat := 4096

/-- Follows names from a place. Each step leaves a directory. -/
def follow (t : FileTree) (place : List String) : List String → Except FileCause (List String)
  | [] => .ok place
  | n :: ns =>
    match t.entry? place with
    | some .directory =>
      if maxName < Path.byteCount n then .error .nameTooLong
      else t.follow (if n = ".." then place.dropLast else place ++ [n]) ns
    | some (.file _) => .error .notDirectory
    | none => .error .notFound

def locate (t : FileTree) (p : Path) : Except FileCause (List String) :=
  if pathLimit ≤ Path.byteCount p.text then .error .nameTooLong
  else t.follow (if p.root = "" then t.current else []) p.parts

def read (t : FileTree) (p : Path) : Except FileCause String := do
  match t.entry? (← t.locate p) with
  | some (.file text) => .ok text
  | some .directory => .error .isDirectory
  | none => .error .notFound

def write (t : FileTree) (p : Path) (text : String) : Except FileCause FileTree := do
  let place ← t.locate p
  match t.entry? place with
  | some .directory => .error .isDirectory
  | _ => .ok (t.put place (.file text))

def makeDirectory (t : FileTree) (p : Path) : Except FileCause FileTree := do
  let place ← t.locate p
  match t.entry? place with
  | some _ => .error .exists
  | none => .ok (t.put place .directory)

def isDirectory (t : FileTree) (p : Path) : Bool :=
  match t.locate p with
  | .ok place => t.entry? place = some .directory
  | .error _ => false

/-- The files below a place, by the names that lead to them from there. -/
def filesBelow (t : FileTree) (place : List String) : List (List String × String) :=
  t.entries.filterMap fun (q, e) =>
    match e with
    | .file text => if place.isPrefixOf q then some (q.drop place.length, text) else none
    | .directory => none

def attempt (change : FileTree → Except FileCause FileTree) : StateM FileTree (Except FileCause Unit) :=
  fun t =>
    match change t with
    | .ok t' => (.ok (), t')
    | .error c => (.error c, t)

def fileSystem : FileSystem (StateM FileTree) where
  read p := fun t => (t.read p, t)
  write p text := attempt (·.write p text)
  makeDirectory p := attempt (·.makeDirectory p)
  isDirectory p := fun t => (t.isDirectory p, t)

end FileTree

end DtoGen
