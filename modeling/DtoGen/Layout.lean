import DtoGen.Text.Blank

namespace DtoGen.Layout

open Text

/-- What follows the quote that closes a literal opened by `q`, if one does. -/
def afterQuote (q : Char) : List Char → Option (List Char)
  | [] => none
  | [c] => if c = q then some [] else none
  | c :: d :: rest =>
    if c = q then some (d :: rest)
    else if c = '\\' then afterQuote q rest
    else afterQuote q (d :: rest)

theorem afterQuote_length {q : Char} {s r : List Char} (h : afterQuote q s = some r) :
    r.length < s.length := by
  fun_induction afterQuote q s <;> grind

def isQuote (c : Char) : Bool := c = '\'' || c = '"' || c = '\x60'

/-- A line with every quoted literal replaced by an empty one. -/
def blankLiterals (s : List Char) : List Char :=
  match s with
  | [] => []
  | c :: rest =>
    if isQuote c then
      match h : afterQuote c rest with
      | some after =>
        have := afterQuote_length h
        '\'' :: '\'' :: blankLiterals after
      | none => c :: blankLiterals rest
    else c :: blankLiterals rest
termination_by s.length

def isOpening (c : Char) : Bool := c = '\x7b' || c = '(' || c = '['

def isClosing (c : Char) : Bool := c = '\x7d' || c = ')' || c = ']'

def indent (depth : Nat) (line : List Char) : List Char := List.replicate (2 * depth) ' ' ++ line

/-- The placed form of a trimmed line at a depth, and the depth after it. -/
def place (depth : Nat) (line : List Char) : List Char × Nat :=
  let code := blankLiterals line
  if code.head? = some '*' then (indent depth (' ' :: line), depth)
  else if ['/', '/'].isPrefixOf code || ['/', '*'].isPrefixOf code then (indent depth line, depth)
  else
    let leading := (code.takeWhile isClosing).length
    (indent (depth - leading) line, depth + code.countP isOpening - code.countP isClosing)

/-- Places lines one after the other; blank ones between two others become one empty line. -/
def placeAll (depth : Nat) (gap : Bool) : List (List Char) → List (List Char)
  | [] => []
  | l :: ls =>
    let line := trim l
    if line.isEmpty then placeAll depth true ls
    else
      let (out, d) := place depth line
      let rest := out :: placeAll d false ls
      if gap then [] :: rest else rest

def joinLines (ls : List (List Char)) : List Char := ['\n'].intercalate ls

def reindentLines (ls : List (List Char)) : List (List Char) :=
  placeAll 0 false ((Text.lines (joinLines ls)).dropWhile fun l => (trim l).isEmpty)

/-- Joins lines, indenting each by the brackets open before it. -/
def reindent (ls : List String) : String :=
  String.ofList (joinLines (reindentLines (ls.map String.toList)) ++ ['\n'])

end DtoGen.Layout
