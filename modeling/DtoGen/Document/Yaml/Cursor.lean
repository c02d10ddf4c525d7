import DtoGen.Abort

namespace DtoGen.Yaml

inductive Malformed where
  | character (c : Char)
  | unprintable (c : Char)
  | missingColon
  | misplaced (what : String)
  | directive
  | anchorName
  | tagForm
  | blockHeader
  | escape
  | unclosedQuote
  | separatorInQuote
  | unclosedFlow
  | unexpected (what : String)
  | undefinedAlias (name : String)
  | duplicateAnchor (name : String)
  | undefinedHandle (handle : String)
  | unknownTag (tag : String)
  | wrongKind (tag : String)
  | unhashableKey
  | mergeSource
  | base64
  | secondDocument
deriving DecidableEq, Repr

def Malformed.message : Malformed → String
  | .character c => "found character U+" ++ String.ofList (Nat.toDigits 16 c.toNat) ++
      " that cannot start any token"
  | .unprintable c => "character U+" ++ String.ofList (Nat.toDigits 16 c.toNat) ++ " is not allowed"
  | .missingColon => "could not find expected ':'"
  | .misplaced what => what ++ " are not allowed here"
  | .directive => "found an invalid directive"
  | .anchorName => "found an invalid anchor or alias"
  | .tagForm => "found an invalid tag"
  | .blockHeader => "found an invalid block scalar header"
  | .escape => "found an unknown escape"
  | .unclosedQuote => "found unexpected end of stream in a quoted scalar"
  | .separatorInQuote => "found unexpected document separator in a quoted scalar"
  | .unclosedFlow => "found a bracket without its counterpart"
  | .unexpected what => "found unexpected " ++ what
  | .undefinedAlias n => "found undefined alias '" ++ n ++ "'"
  | .duplicateAnchor n => "found duplicate anchor '" ++ n ++ "'"
  | .undefinedHandle h => "found undefined tag handle '" ++ h ++ "'"
  | .unknownTag t => "could not determine a constructor for the tag '" ++ t ++ "'"
  | .wrongKind t => "found another kind of node under the tag '" ++ t ++ "'"
  | .unhashableKey => "found unhashable key"
  | .mergeSource => "expected a mapping or list of mappings for merging"
  | .base64 => "failed to decode base64 data"
  | .secondDocument => "expected a single document in the stream"

/-- Why a text gives no document: it is malformed, or reading it is given up. -/
inductive Fault where
  | malformed (cause : Malformed)
  | aborted (cause : Abort)
deriving DecidableEq, Repr

def Fault.message : Fault → String
  | .malformed m => m.message
  | .aborted a => a.message

def malformed {α : Type} (m : Malformed) : Except Fault α := .error (.malformed m)

def aborted {α : Type} (a : Abort) : Except Fault α := .error (.aborted a)

def isBreak (c : Char) : Bool :=
  c = '\r' || c = '\n' || c = '\x85' || c = '\u2028' || c = '\u2029'

def isBlank (c : Char) : Bool := c = ' ' || c = '\t'

def isAllowed (c : Char) : Bool :=
  let n := Text.codePoint c
  n = 0x09 || n = 0x0a || n = 0x0d || (0x20 ≤ n && n ≤ 0x7e) || n = 0x85 ||
    (0xa0 ≤ n && n ≤ 0xfffd && !Text.isSurrogate n) || 0x10000 ≤ n

def isWordChar (c : Char) : Bool := c.isAlphanum || c = '-' || c = '_'

/-- Whether a word ends here: at a blank, a line break or the end of the text. -/
def endsWord : List Char → Bool
  | [] => true
  | c :: _ => isBlank c || isBreak c

def endsField : List Char → Bool
  | [] => true
  | c :: _ => c = ' ' || isBreak c

def endsLine : List Char → Bool
  | [] => true
  | c :: _ => isBreak c

/-- What is left of a text, and where that stands. -/
structure Cursor where
  rest : List Char
  index : Nat := 0
  line : Nat := 0
  column : Nat := 0
deriving Repr

namespace Cursor

def head? (c : Cursor) : Option Char := c.rest.head?

def endsAt (x : Char) (rest : List Char) : Bool := isBreak x && (x ≠ '\r' || rest.head? ≠ some '\n')

/-- One character on; a byte order mark takes no column. -/
def step (c : Cursor) : Cursor :=
  match c.rest with
  | [] => c
  | x :: rest =>
    if endsAt x rest then ⟨rest, c.index + 1, c.line + 1, 0⟩
    else ⟨rest, c.index + 1, c.line, if x = '\ufeff' then c.column else c.column + 1⟩

def advance : Nat → Cursor → Cursor
  | 0, c => c
  | n + 1, c => advance n c.step

/-- The longest run of characters of a kind, and the place after it. -/
def span (p : Char → Bool) (c : Cursor) : List Char × Cursor :=
  let run := c.rest.takeWhile p
  (run, c.advance run.length)

def skip (p : Char → Bool) (c : Cursor) : Cursor := (c.span p).2

/-- Skips a line break and gives its text; most breaks count as line feeds. -/
def lineBreak (c : Cursor) : List Char × Cursor :=
  match c.rest with
  | '\r' :: '\n' :: _ => (['\n'], c.advance 2)
  | x :: _ =>
    if x = '\r' || x = '\n' || x = '\x85' then (['\n'], c.step)
    else if isBreak x then ([x], c.step)
    else ([], c)
  | [] => ([], c)

def skipComment (c : Cursor) : Cursor :=
  if c.head? = some '#' then c.skip (!isBreak ·) else c

/-- Whether a mark of three characters stands here on its own. -/
def hasMark (mark : Char) (c : Cursor) : Bool :=
  c.rest.take 3 = [mark, mark, mark] && endsWord (c.rest.drop 3)

def atSeparator (c : Cursor) : Bool := c.hasMark '-' || c.hasMark '.'

/-- What may stand at the end of a line that has been dealt with. -/
def finishLine (fault : Malformed) (c : Cursor) : Except Fault Cursor :=
  let c := (c.skip (· = ' ')).skipComment
  if endsLine c.rest then .ok c.lineBreak.2 else malformed fault

end Cursor

end DtoGen.Yaml
