import DtoGen.Binary64.Decimal
import DtoGen.Document.Yaml.Scalar

namespace DtoGen.Yaml

inductive Directive where
  | version (major : Nat)
  | tag (handle lead : String)
  | other
deriving DecidableEq, Repr

inductive Token where
  | directive (d : Directive)
  | documentStart
  | documentEnd
  | blockSequenceStart
  | blockMappingStart
  | blockEnd
  | flowSequenceStart
  | flowSequenceEnd
  | flowMappingStart
  | flowMappingEnd
  | blockEntry
  | flowEntry
  | key
  | value
  | link (name : String)
  | anchor (name : String)
  | tag (handle : Option String) (suffix : String)
  | scalar (text : String) (plain : Bool)
deriving DecidableEq, Repr

def Token.what : Token → String
  | .directive _ => "directive"
  | .documentStart => "document start"
  | .documentEnd => "document end"
  | .blockSequenceStart => "block sequence"
  | .blockMappingStart => "block mapping"
  | .blockEnd => "end of block"
  | .flowSequenceStart => "'['"
  | .flowSequenceEnd => "']'"
  | .flowMappingStart => "'\x7b'"
  | .flowMappingEnd => "'\x7d'"
  | .blockEntry => "'-'"
  | .flowEntry => "','"
  | .key => "key"
  | .value => "':'"
  | .link _ => "alias"
  | .anchor _ => "anchor"
  | .tag _ _ => "tag"
  | .scalar _ _ => "scalar"

namespace Marks

abbrev Scan := Except Fault (Token × Cursor)

def name (c : Cursor) : Except Fault (String × Cursor) :=
  let (n, c) := c.step.span isWordChar
  let follows := endsWord c.rest || (c.head?.map "?:,]\x7d%@`".toList.contains).getD true
  if n.isEmpty || !follows then malformed .anchorName else .ok (String.ofList n, c)

def isAddressChar (c : Char) : Bool :=
  c.isAlphanum || "-;/?:@&=+$,_.!~*'()[]%".toList.contains c

def percentDecode : (fuel : Nat) → List Char → Option (List UInt8)
  | 0, _ => none
  | _ + 1, [] => some []
  | fuel + 1, '%' :: a :: b :: rest => do
    let n ← Quoted.hexNumber? [a, b]
    let more ← percentDecode fuel rest
    some (n.toUInt8 :: more)
  | _ + 1, '%' :: _ => none
  | fuel + 1, c :: rest => (percentDecode fuel rest).map (c.toString.toUTF8.toList ++ ·)

def address (fault : Malformed) (c : Cursor) : Except Fault (String × Cursor) :=
  let (a, c) := c.span isAddressChar
  match a, percentDecode (a.length + 1) a with
  | _ :: _, some bytes =>
    match String.fromUTF8? bytes.toByteArray with
    | some s => .ok (s, c)
    | none => malformed fault
  | _, _ => malformed fault

/-- A handle: an exclamation mark, or a word between two of them. -/
def handle (fault : Malformed) (c : Cursor) : Except Fault (String × Cursor) :=
  if c.head? ≠ some '!' then malformed fault
  else if c.step.head? = some ' ' then .ok ("!", c.step)
  else
    let (w, d) := c.step.span isWordChar
    if d.head? = some '!' then .ok ("!" ++ String.ofList w ++ "!", d.step) else malformed fault

def tag (c : Cursor) : Scan := do
  let (t, c) ←
    match c.rest.drop 1 with
    | '<' :: _ => do
      let (a, c) ← address .tagForm (c.advance 2)
      if c.head? = some '>' then .ok (Token.tag none a, c.step) else malformed .tagForm
    | after =>
      if endsWord after then .ok (Token.tag none "!", c.step)
      else if (after.takeWhile fun x => !(x = ' ' || isBreak x)).contains '!' then do
        let (h, c) ← handle .tagForm c
        let (a, c) ← address .tagForm c
        .ok (Token.tag (some h) a, c)
      else do
        let (a, c) ← address .tagForm c.step
        .ok (Token.tag (some "!") a, c)
  if endsField c.rest then .ok (t, c) else malformed .tagForm

def number (c : Cursor) : Except Fault (Nat × Cursor) :=
  let (ds, c) := c.span Char.isDigit
  if ds.isEmpty then malformed .directive
  else if Abort.maxDigits < ds.length then aborted (.digitLimit ds.length)
  else .ok (Binary64.digitsValue ds, c)

def blanks (c : Cursor) : Cursor := c.skip (· = ' ')

def versionDirective (c : Cursor) : Except Fault (Directive × Cursor) := do
  let (major, c) ← number (blanks c)
  if c.head? ≠ some '.' then malformed .directive
  else
    let (_, c) ← number c.step
    if endsField c.rest then .ok (.version major, c) else malformed .directive

def tagDirective (c : Cursor) : Except Fault (Directive × Cursor) := do
  let (h, c) ← handle .directive (blanks c)
  if c.head? ≠ some ' ' then malformed .directive
  else
    let (a, c) ← address .directive (blanks c)
    if endsField c.rest then .ok (.tag h a, c) else malformed .directive

def directive (c : Cursor) : Scan := do
  let (n, c) := c.step.span isWordChar
  if n.isEmpty || !endsField c.rest then malformed .directive
  else
    let (d, c) ←
      if n = "YAML".toList then versionDirective c
      else if n = "TAG".toList then tagDirective c
      else .ok (Directive.other, c.skip (!isBreak ·))
    let c ← c.finishLine .directive
    .ok (.directive d, c)

end Marks

/-- A place where a key may have started. One at the indentation of its block has to be a key. -/
structure KeyPlace where
  tokens : Nat
  required : Bool
  index : Nat
  line : Nat
  column : Nat
deriving Repr

structure Scanner where
  cursor : Cursor
  /-- The tokens found, the last one first. -/
  tokens : List Token := []
  indent : Int := -1
  outer : List Int := []
  flow : Nat := 0
  keyAllowed : Bool := true
  /-- The open place for a key at each depth of brackets. -/
  places : List (Nat × KeyPlace) := []

namespace Scanner

abbrev Step := Except Fault Scanner

def inFlow (s : Scanner) : Bool := 0 < s.flow

def emit (t : Token) (s : Scanner) : Scanner := { s with tokens := t :: s.tokens }

def mark (t : Token) (s : Scanner) : Scanner := { s.emit t with cursor := s.cursor.step }

def insertAt (n : Nat) (t : Token) (s : Scanner) : Scanner :=
  { s with tokens := s.tokens.insertIdx (s.tokens.length - n) t }

/-- Closes the blocks that are indented further than a column. -/
def unwindTo (column : Int) : List Int → Scanner → Scanner
  | [], s => s
  | o :: os, s =>
    if column < s.indent then unwindTo column os { s.emit .blockEnd with indent := o, outer := os }
    else s

def unwind (column : Int) (s : Scanner) : Scanner :=
  if s.inFlow then s else unwindTo column s.outer s

/-- Opens a block at a column if it is indented further, with a token behind the first `n`. -/
def openBlock (column n : Nat) (t : Token) (s : Scanner) : Scanner :=
  if s.indent < column then
    { s.insertAt n t with indent := column, outer := s.indent :: s.outer }
  else s

/-- Gives up places for keys that a colon can no longer follow. -/
def dropStale (s : Scanner) : Step :=
  let isStale (k : KeyPlace) := k.line ≠ s.cursor.line || 1024 < s.cursor.index - k.index
  if s.places.any fun p => isStale p.2 && p.2.required then malformed .missingColon
  else .ok { s with places := s.places.filter fun p => !isStale p.2 }

def dropPlace (s : Scanner) : Step :=
  match s.places.lookup s.flow with
  | some k =>
    if k.required then malformed .missingColon
    else .ok { s with places := s.places.filter (·.1 ≠ s.flow) }
  | none => .ok s

def keepPlace (s : Scanner) : Step :=
  if s.keyAllowed then do
    let s ← s.dropPlace
    let c := s.cursor
    let k : KeyPlace :=
      ⟨s.tokens.length, !s.inFlow && s.indent = c.column, c.index, c.line, c.column⟩
    .ok { s with places := (s.flow, k) :: s.places }
  else .ok s

/-- Skips blanks, comments and line breaks; `fuel` bounds the lines. A new line allows a key. -/
def skipSpace : (fuel : Nat) → Scanner → Scanner
  | 0, s => s
  | fuel + 1, s =>
    let c := (s.cursor.skip (· = ' ')).skipComment
    let s := { s with cursor := c }
    if !c.rest.isEmpty && endsLine c.rest then
      skipSpace fuel { s with cursor := c.lineBreak.2, keyAllowed := s.keyAllowed || !s.inFlow }
    else s

def scanned (scan : Cursor → Marks.Scan) (s : Scanner) : Step := do
  let s ← s.keepPlace
  let (t, c) ← scan s.cursor
  .ok { s.emit t with cursor := c, keyAllowed := false }

def documentMark (t : Token) (s : Scanner) : Step := do
  let s ← (s.unwind (-1)).dropPlace
  .ok { s.emit t with cursor := s.cursor.advance 3, keyAllowed := false }

def directive (s : Scanner) : Step := do
  let s ← (s.unwind (-1)).dropPlace
  let (t, c) ← Marks.directive s.cursor
  .ok { s.emit t with cursor := c, keyAllowed := false }

def openFlow (t : Token) (s : Scanner) : Step := do
  let s ← s.keepPlace
  .ok { s.mark t with flow := s.flow + 1, keyAllowed := true }

def closeFlow (t : Token) (s : Scanner) : Step := do
  let s ← s.dropPlace
  if s.inFlow then .ok { s.mark t with flow := s.flow - 1, keyAllowed := false }
  else malformed .unclosedFlow

def flowEntry (s : Scanner) : Step := do
  let s ← s.dropPlace
  .ok { s.mark .flowEntry with keyAllowed := true }

def openEntry (what : String) (t : Token) (s : Scanner) : Step :=
  if s.inFlow then .ok s
  else if s.keyAllowed then .ok (s.openBlock s.cursor.column s.tokens.length t)
  else malformed (.misplaced what)

def blockEntry (s : Scanner) : Step := do
  let s ← (← s.openEntry "sequence entries" .blockSequenceStart).dropPlace
  .ok { s.mark .blockEntry with keyAllowed := true }

def explicitKey (s : Scanner) : Step := do
  let s ← (← s.openEntry "mapping keys" .blockMappingStart).dropPlace
  .ok { s.mark .key with keyAllowed := !s.inFlow }

/-- A colon turns the text at the open place into a key. -/
def value (s : Scanner) : Step :=
  match s.places.lookup s.flow with
  | some k =>
    let s := { s with places := s.places.filter (·.1 ≠ s.flow) }
    let s := s.insertAt k.tokens .key
    let s := if s.inFlow then s else s.openBlock k.column k.tokens .blockMappingStart
    .ok { s.mark .value with keyAllowed := false }
  | none => do
    let s ← (← s.openEntry "mapping values" .blockMappingStart).dropPlace
    .ok { s.mark .value with keyAllowed := !s.inFlow }

def blockScalar (folded : Bool) (s : Scanner) : Step := do
  let s ← s.dropPlace
  let (t, c) ← BlockText.scan folded s.indent s.cursor
  .ok { s.emit (.scalar (String.ofList t) false) with cursor := c, keyAllowed := true }

def plain (s : Scanner) : Step := do
  let s ← s.keepPlace
  let f := Plain.scan s.inFlow (s.indent + 1) (s.cursor.rest.length + 1) s.cursor
  .ok { s.emit (.scalar (String.ofList f.text) true) with
    cursor := f.after, keyAllowed := f.crossesLine }

def quoted (mark : Char) (s : Scanner) : Step :=
  s.scanned fun c => (Quoted.scan mark c).map fun (t, c) => (.scalar (String.ofList t) false, c)

def dispatch (x : Char) (s : Scanner) : Step :=
  let c := s.cursor
  let ends := endsWord (c.rest.drop 1)
  if x = '%' && c.column = 0 then s.directive
  else if c.column = 0 && c.hasMark '-' then s.documentMark .documentStart
  else if c.column = 0 && c.hasMark '.' then s.documentMark .documentEnd
  else if x = '[' then s.openFlow .flowSequenceStart
  else if x = '\x7b' then s.openFlow .flowMappingStart
  else if x = ']' then s.closeFlow .flowSequenceEnd
  else if x = '\x7d' then s.closeFlow .flowMappingEnd
  else if x = ',' then s.flowEntry
  else if x = '-' && ends then s.blockEntry
  else if x = '?' && (s.inFlow || ends) then s.explicitKey
  else if x = ':' && (s.inFlow || ends) then s.value
  else if x = '*' then s.scanned fun c => (Marks.name c).map fun (n, c) => (.link n, c)
  else if x = '&' then s.scanned fun c => (Marks.name c).map fun (n, c) => (.anchor n, c)
  else if x = '!' then s.scanned Marks.tag
  else if x = '|' && !s.inFlow then s.blockScalar false
  else if x = '>' && !s.inFlow then s.blockScalar true
  else if x = '\'' || x = '"' then s.quoted x
  else if Plain.starts s.inFlow c.rest then s.plain
  else malformed (.character x)

/-- Reads on to the next token; at the end of the text all blocks are closed. -/
def next (s : Scanner) : Step := do
  let s ← (s.skipSpace (s.cursor.rest.length + 1)).dropStale
  let s := s.unwind s.cursor.column
  match s.cursor.head? with
  | none => (s.unwind (-1)).dropPlace
  | some x => s.dispatch x

def atEnd (s : Scanner) : Bool := (s.skipSpace (s.cursor.rest.length + 1)).cursor.rest.isEmpty

/-- The tokens that can be handed on. Where a key may have started, a colon further on would put
tokens in front. -/
def settled (s : Scanner) : List Token :=
  s.tokens.reverse.take (s.places.foldl (fun n p => min n p.2.tokens) s.tokens.length)

end Scanner

/-- The tokens of a text, up to a fault if there is one. -/
structure TokenStream where
  tokens : List Token
  fault : Option Fault := none

namespace Scanner

/-- The tokens before a fault. A key that needed its colon earlier is the fault that counts. -/
def interrupted (s : Scanner) (f : Fault) : TokenStream :=
  match s.dropStale with
  | .ok s => ⟨s.settled, some f⟩
  | .error g => ⟨s.settled, some g⟩

/-- Reads all tokens; `fuel` bounds the characters left, of which each token takes at least one. -/
def run : (fuel : Nat) → Scanner → TokenStream
  | 0, s => ⟨s.tokens.reverse, none⟩
  | fuel + 1, s =>
    match s.next with
    | .error f => s.interrupted f
    | .ok t => if s.atEnd then ⟨t.tokens.reverse, none⟩ else run fuel t

end Scanner

/-- The tokens of a text. A byte order mark at its start is skipped. -/
def TokenStream.ofText (text : String) : TokenStream :=
  let cs := text.toList
  match cs.find? (!isAllowed ·) with
  | some c => ⟨[], some (.malformed (.unprintable c))⟩
  | none =>
    let c : Cursor := ⟨cs, 0, 0, 0⟩
    Scanner.run (cs.length + 1) { cursor := if cs.head? = some '\ufeff' then c.step else c }

end DtoGen.Yaml
