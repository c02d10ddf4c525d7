import DtoGen.Files.Path
import DtoGen.Text.Quoted

namespace DtoGen

inductive FileCause where
  | notFound
  | exists
  | notDirectory
  | isDirectory
  | nameTooLong
  | aborted (cause : Abort)
  | other (text : String)
deriving DecidableEq, Repr

structure FileError where
  cause : FileCause
  path : Path
deriving DecidableEq, Repr

def FileCause.text : FileCause → String
  | .notFound => "[Errno 2] No such file or directory"
  | .exists => "[Errno 17] File exists"
  | .notDirectory => "[Errno 20] Not a directory"
  | .isDirectory => "[Errno 21] Is a directory"
  | .nameTooLong => "[Errno 36] File name too long"
  | .aborted a => a.message
  | .other t => t

def FileError.message (e : FileError) : String := e.cause.text ++ ": " ++ Text.shown e.path.text

structure FileSystem (m : Type → Type) where
  read : Path → m (Except FileCause String)
  write : Path → String → m (Except FileCause Unit)
  /-- Makes one directory in an existing one. -/
  makeDirectory : Path → m (Except FileCause Unit)
  isDirectory : Path → m Bool

namespace FileSystem

variable {m : Type → Type} [Monad m]

def readText (fs : FileSystem m) (p : Path) : m (Except FileError String) := do
  match p.abort? with
  | some a => return .error ⟨.aborted a, p⟩
  | none =>
    match ← fs.read p with
    | .ok t => return .ok (String.ofList (Text.unifyBreaks t.toList))
    | .error c => return .error ⟨c, p⟩

def unlessDirectory (fs : FileSystem m) (p : Path) (c : FileCause) : m (Except FileError Unit) := do
  if ← fs.isDirectory p then return .ok () else return .error ⟨c, p⟩

/-- Makes a directory and the missing ones above it, at most `depth` of them. -/
def makeDirectories (fs : FileSystem m) : (depth : Nat) → Path → m (Except FileError Unit)
  | depth, p => do
    match ← fs.makeDirectory p with
    | .ok () => return .ok ()
    | .error .notFound =>
      match depth with
      | 0 => return .error ⟨.notFound, p⟩
      | d + 1 =>
        match ← fs.makeDirectories d p.parent with
        | .error e => return .error e
        | .ok () =>
          match ← fs.makeDirectory p with
          | .ok () => return .ok ()
          | .error .notFound => return .error ⟨.notFound, p⟩
          | .error c => fs.unlessDirectory p c
    | .error c => fs.unlessDirectory p c

/-- Writes a text as bytes. A file for a text that has no bytes is made and left empty. -/
def writeText (fs : FileSystem m) (p : Path) (text : String) : m (Except FileError Unit) := do
  let broken := Text.unencodable? (fun _ => false) 0 text.toList
  match ← fs.write p (if broken.isSome then "" else text), broken with
  | .error c, _ => return .error ⟨c, p⟩
  | .ok (), some u => return .error ⟨.aborted (.unencodable u), p⟩
  | .ok (), none => return .ok ()

def writeFile (fs : FileSystem m) (p : Path) (text : String) : m (Except FileError Unit) := do
  match p.abort? with
  | some a => return .error ⟨.aborted a, p⟩
  | none =>
    match ← fs.makeDirectories p.parent.parts.length p.parent with
    | .error e => return .error e
    | .ok () => fs.writeText p text

/-- Writes files one after the other up to the first failure, and gives their paths. -/
def writeAll (fs : FileSystem m) : List (Path × String) → m (Except FileError (List Path))
  | [] => return .ok []
  | (p, text) :: rest => do
    match ← fs.writeFile p text with
    | .error e => return .error e
    | .ok () =>
      match ← fs.writeAll rest with
      | .error e => return .error e
      | .ok ps => return .ok (p :: ps)

end FileSystem

end DtoGen
