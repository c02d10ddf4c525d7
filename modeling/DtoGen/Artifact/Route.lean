import DtoGen.Service.Index
import DtoGen.Service.Usage

namespace DtoGen

namespace Route

/-- The named part after an opening brace, and what follows its closing brace. -/
def part? (s : List Char) : Option (List Char × List Char) :=
  let name := s.takeWhile (· ≠ '\x7d')
  match s.dropWhile (· ≠ '\x7d') with
  | '\x7d' :: rest => if name.isEmpty then none else some (name, rest)
  | _ => none

theorem part?_length {s name rest : List Char} (h : part? s = some (name, rest)) :
    rest.length < s.length := by
  simp only [part?] at h
  split at h
  · rename_i r hr
    split at h
    · cases h
    · have := congrArg List.length (List.takeWhile_append_dropWhile (p := (· ≠ '\x7d')) (l := s))
      cases h
      simp only [hr, List.length_append, List.length_cons] at this
      omega
  · cases h

/-- Writes each part in braces with a colon in front instead. -/
def colonForm (s : List Char) : List Char :=
  match s with
  | [] => []
  | c :: rest =>
    if c = '\x7b' then
      match h : part? rest with
      | some (name, after) =>
        have := part?_length h
        ':' :: name ++ colonForm after
      | none => c :: colonForm rest
    else c :: colonForm rest
termination_by s.length

def express (pattern : String) : String := String.ofList (colonForm pattern.toList)

end Route

structure Binding where
  interface : Interface
  method : Method
  pattern : String
  http : HttpMethod

/-- The bound methods; each refers to the first method of its interface with its name. Those of one
name stay in the order of their routes. -/
def Service.bindings (s : Service) : List Binding :=
  sortByName (·.method.name) (s.interfaces.flatMap fun i => i.http.flatMap fun r =>
    r.methods.filterMap fun h =>
      (i.methods.find? (·.name == h.name)).map fun m => ⟨i, m, r.pattern, h⟩)

end DtoGen
