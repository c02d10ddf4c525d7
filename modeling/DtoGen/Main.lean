import DtoGen.Command.Basic

namespace DtoGen

/-- The cause of a failed file operation, by the number that the system gives it, which may come
negated. -/
def causeOf (e : IO.Error) : FileCause :=
  let byCode (number : UInt32) (text : String) : FileCause :=
    let code := if number < 0x80000000 then number else 0 - number
    if code = 2 then .notFound
    else if code = 17 then .exists
    else if code = 20 then .notDirectory
    else if code = 21 then .isDirectory
    else if code = 36 then .nameTooLong
    else .other ("[Errno " ++ toString code.toNat ++ "] " ++ text)
  match e with
  | .noFileOrDirectory _ code text => byCode code text
  | .alreadyExists _ code text => byCode code text
  | .inappropriateType _ code text => byCode code text
  | .permissionDenied _ code text => byCode code text
  | .resourceExhausted _ code text => byCode code text
  | .otherError code text => byCode code text
  | e => .other (toString e)

def tryFiles {α : Type} (x : IO α) : IO (Except FileCause α) := do
  try
    return .ok (← x)
  catch e => return .error (causeOf e)

def realFiles : FileSystem IO where
  read p := tryFiles (IO.FS.readFile p.text)
  write p text := tryFiles (IO.FS.writeFile p.text text)
  makeDirectory p := tryFiles (IO.FS.createDir p.text)
  isDirectory p := do
    -- a directory has an entry for itself, so making that one fails
    match ← tryFiles (IO.FS.createDir (p.text ++ "/.")) with
    | .error .exists => return true
    | _ => return false

end DtoGen

def main (args : List String) : IO UInt32 := do
  match ← DtoGen.Command.run DtoGen.realFiles args with
  | .ok o =>
    IO.print o.stdout
    IO.eprint o.stderr
    return o.exit.toUInt32
  | .error a =>
    IO.eprintln a.message
    return 1
