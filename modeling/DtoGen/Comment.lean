import DtoGen.Text.Wrap

namespace DtoGen.Comment

open Text

/-- Parts the two characters that would end the comment. -/
def escapeEnd : List Char → List Char
  | [] => []
  | '*' :: '/' :: rest => '*' :: '\\' :: '/' :: escapeEnd rest
  | c :: rest => c :: escapeEnd rest

/-- The paragraphs to be shown, without blanks around them. -/
def contents (description : Option String) (deprecated : Bool) : List (List Char) :=
  let ps := ((paragraphs (description.getD "").toList).map trim).filter (!·.isEmpty)
  if deprecated then ps ++ ["@deprecated".toList] else ps

def paragraphLines (p : List Char) : List (List Char) :=
  (lines p).flatMap fun l =>
    match wrap (escapeEnd l) with
    | [] => [" * ".toList]
    | ws => ws.map (" * ".toList ++ ·)

def separated : List (List (List Char)) → List (List Char)
  | [] => []
  | [p] => p
  | p :: ps => p ++ " *".toList :: separated ps

def isShort (ps : List (List Char)) : Option (List Char) :=
  match ps with
  | [p] => if p.length < 100 && !p.contains '\n' then some p else none
  | _ => none

def docLines (description : Option String) (deprecated : Bool) : List (List Char) :=
  match contents description deprecated with
  | [] => []
  | ps =>
    match isShort ps with
    | some p => ["/** ".toList ++ escapeEnd p ++ " */".toList]
    | none => "/**".toList :: separated (ps.map paragraphLines) ++ [" */".toList]

/-- The comment for a description, or nothing when there is nothing to say. -/
def doc (description : Option String) (deprecated : Bool) : List String :=
  (docLines description deprecated).map String.ofList

end DtoGen.Comment
