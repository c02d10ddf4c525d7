import DtoGen.Document.Yaml.Cursor
import DtoGen.Text.Numeral

namespace DtoGen.Yaml

abbrev Scanned := Except Fault (List Char × Cursor)

def Scanned.before (text : List Char) (s : Scanned) : Scanned := s.map fun (t, c) => (text ++ t, c)

/-- The text for a line break: nothing but the breaks of the empty lines after it, if there are any. -/
def foldBreak (first more : List Char) : List Char :=
  if first ≠ ['\n'] then first ++ more else if more.isEmpty then [' '] else more

namespace Quoted

/-- The empty lines inside a quoted scalar; `fuel` bounds their number. -/
def emptyLines : (fuel : Nat) → Cursor → Scanned
  | 0, c => .ok ([], c)
  | fuel + 1, c =>
    if c.atSeparator then malformed .separatorInQuote
    else
      let c := c.skip isBlank
      if !c.rest.isEmpty && endsLine c.rest then
        Scanned.before c.lineBreak.1 (emptyLines fuel c.lineBreak.2)
      else .ok ([], c)

/-- Blanks and line breaks between the words of a quoted scalar. -/
def space (c : Cursor) : Scanned :=
  let (blanks, c) := c.span isBlank
  if c.rest.isEmpty then malformed .unclosedQuote
  else if endsLine c.rest then do
    let (first, c) := c.lineBreak
    let (more, c) ← emptyLines c.rest.length c
    .ok (foldBreak first more, c)
  else .ok (blanks, c)

def escapes : List (Char × Char) :=
  [('0', '\x00'), ('a', '\x07'), ('b', '\x08'), ('t', '\t'), ('\t', '\t'), ('n', '\n'),
   ('v', '\x0b'), ('f', '\x0c'), ('r', '\r'), ('e', '\x1b'), (' ', ' '), ('"', '"'), ('\\', '\\'),
   ('/', '/'), ('N', '\x85'), ('_', '\xa0'), ('L', '\u2028'), ('P', '\u2029')]

def codeLength : Char → Option Nat
  | 'x' => some 2
  | 'u' => some 4
  | 'U' => some 8
  | _ => none

def hexNumber? (ds : List Char) : Option Nat :=
  ds.foldlM (fun n c => (Numeral.hexValue? c).map (16 * n + ·)) 0

/-- The character of a code that an escape names; codes have 31 bits, and not all are characters. -/
def coded (code : Nat) : Except Fault Char :=
  if 0x7fffffff < code then aborted .codeWord
  else if 0x10ffff < code then aborted .codePoint
  else .ok (Text.ofCodePoint code)

def escape (c : Cursor) : Scanned :=
  match c.rest with
  | [] => malformed .escape
  | x :: rest =>
    match escapes.lookup x, codeLength x with
    | some y, _ => .ok ([y], c.step)
    | none, some n =>
      match hexNumber? (rest.take n) with
      | some code =>
        if rest.length < n then malformed .escape
        else (coded code).map fun x => ([x], c.advance (n + 1))
      | none => malformed .escape
    | none, none => if isBreak x then emptyLines rest.length c.lineBreak.2 else malformed .escape

/-- The inside of a quoted scalar up to its closing mark; `fuel` bounds the characters left. -/
def inside (mark : Char) : (fuel : Nat) → Cursor → Scanned
  | 0, _ => malformed .unclosedQuote
  | fuel + 1, c =>
    match c.rest with
    | [] => malformed .unclosedQuote
    | x :: rest =>
      if x = mark then
        if mark = '\'' && rest.head? = some '\'' then
          Scanned.before ['\''] (inside mark fuel (c.advance 2))
        else .ok ([], c.step)
      else if mark = '"' && x = '\\' then do
        let (text, c) ← escape c.step
        Scanned.before text (inside mark fuel c)
      else if isBlank x || isBreak x then do
        let (text, c) ← space c
        Scanned.before text (inside mark fuel c)
      else Scanned.before [x] (inside mark fuel c.step)

def scan (mark : Char) (c : Cursor) : Scanned := inside mark (c.rest.length + 1) c.step

end Quoted

namespace Plain

def isFlowMark (c : Char) : Bool := c = ',' || c = '[' || c = ']' || c = '\x7b' || c = '\x7d'

def endsKey (inFlow : Bool) (rest : List Char) : Bool :=
  endsWord rest || (inFlow && (rest.head?.map isFlowMark).getD false)

def word (inFlow : Bool) : List Char → List Char
  | [] => []
  | x :: rest =>
    if isBlank x || isBreak x || (x = ':' && endsKey inFlow rest) ||
        (inFlow && (isFlowMark x || x = '?')) then []
    else x :: word inFlow rest

def starts (inFlow : Bool) : List Char → Bool
  | [] => false
  | x :: rest =>
    !(isBlank x || isBreak x || isFlowMark x || "-?:#&*!|>'\"%@`".toList.contains x) ||
      (!endsWord rest && (x = '-' || (!inFlow && (x = '?' || x = ':'))))

/-- Empty lines after a line break, up to a document separator; `fuel` bounds the characters left. -/
def emptyLines : (fuel : Nat) → Cursor → Option (List Char) × Cursor
  | 0, c => (some [], c)
  | fuel + 1, c =>
    match c.rest with
    | [] => (some [], c)
    | x :: _ =>
      if x = ' ' then emptyLines fuel c.step
      else if isBreak x then
        let (text, c) := c.lineBreak
        if c.atSeparator then (none, c)
        else
          let (more, c) := emptyLines fuel c
          (more.map (text ++ ·), c)
      else (some [], c)

/-- What stands between two words: no text at a document separator. -/
structure Gap where
  text : Option (List Char)
  crossesLine : Bool
  after : Cursor

def gap (c : Cursor) : Gap :=
  let (blanks, c) := c.span (· = ' ')
  if !c.rest.isEmpty && endsLine c.rest then
    let (first, c) := c.lineBreak
    if c.atSeparator then ⟨none, true, c⟩
    else
      let (more, c) := emptyLines (c.rest.length + 1) c
      ⟨more.map (foldBreak first), true, c⟩
  else ⟨some blanks, false, c⟩

structure Found where
  text : List Char
  crossesLine : Bool
  after : Cursor

/-- A plain scalar whose lines are indented by at least `indent`; `fuel` bounds its words. -/
def scan (inFlow : Bool) (indent : Int) : (fuel : Nat) → Cursor → Found
  | 0, c => ⟨[], false, c⟩
  | fuel + 1, c =>
    let first := word inFlow c.rest
    let g := gap (c.advance first.length)
    match g.text with
    | none | some [] => ⟨first, g.crossesLine, g.after⟩
    | some blanks =>
      let next := word inFlow g.after.rest
      if g.after.head? = some '#' || (!inFlow && (g.after.column : Int) < indent) || next.isEmpty then
        ⟨first, g.crossesLine, g.after⟩
      else
        let more := scan inFlow indent fuel g.after
        ⟨first ++ blanks ++ more.text, more.crossesLine, more.after⟩

end Plain

namespace BlockText

/-- What becomes of the line breaks at the end. -/
inductive Chomping where
  | strip
  | clip
  | keep
deriving DecidableEq, Repr

def chomping? (c : Cursor) : Option Chomping :=
  match c.head? with
  | some '+' => some .keep
  | some '-' => some .strip
  | _ => none

def increment? (c : Cursor) : Option Nat :=
  c.head?.bind fun x => if x.isDigit then some (x.toNat - '0'.toNat) else none

def header (c : Cursor) : Except Fault (Chomping × Option Nat × Cursor) :=
  let (chomp, inc, c) : Option Chomping × Option Nat × Cursor :=
    match chomping? c, increment? c with
    | some k, _ =>
      let c := c.step
      match increment? c with
      | some n => (some k, some n, c.step)
      | none => (some k, none, c)
    | none, some n =>
      let c := c.step
      match chomping? c with
      | some k => (some k, some n, c.step)
      | none => (none, some n, c)
    | none, none => (none, none, c)
  if inc = some 0 || !endsField c.rest then malformed .blockHeader
  else .ok (chomp.getD .clip, inc, c)

/-- Empty lines at the start, and the widest indentation among them and the first line of text. -/
def leading : (fuel : Nat) → (widest : Nat) → Cursor → List Char × Nat × Cursor
  | 0, widest, c => ([], widest, c)
  | fuel + 1, widest, c =>
    match c.rest with
    | [] => ([], widest, c)
    | x :: _ =>
      if x = ' ' then
        let c := c.step
        leading fuel (max widest c.column) c
      else if isBreak x then
        let (text, c) := c.lineBreak
        let (more, widest, c) := leading fuel widest c
        (text ++ more, widest, c)
      else ([], widest, c)

def skipIndent (indent : Nat) (c : Cursor) : Cursor :=
  c.advance ((c.rest.takeWhile (· = ' ')).length.min (indent - c.column))

def emptyLines (indent : Nat) : (fuel : Nat) → Cursor → List Char × Cursor
  | 0, c => ([], c)
  | fuel + 1, c =>
    let c := skipIndent indent c
    if !c.rest.isEmpty && endsLine c.rest then
      let (text, c) := c.lineBreak
      let (more, c) := emptyLines indent fuel c
      (text ++ more, c)
    else ([], c)

/-- The lines of a block, after the empty lines before the first of them; `fuel` bounds the number
of lines. -/
def body (folded : Bool) (chomp : Chomping) (indent : Nat) :
    (fuel : Nat) → (empty : List Char) → Cursor → List Char × Cursor
  | 0, empty, c => (if chomp = .keep then empty else [], c)
  | fuel + 1, empty, c =>
    let indented (x : Cursor) := x.head?.map isBlank = some true
    let (text, next) := c.span (!isBreak ·)
    let (lineEnd, next) := next.lineBreak
    let (more, next) := emptyLines indent (next.rest.length + 1) next
    if next.column = indent && !next.rest.isEmpty then
      let join :=
        if folded && lineEnd = ['\n'] && !indented c && !indented next then
          if more.isEmpty then [' '] else []
        else lineEnd
      let (rest, last) := body folded chomp indent fuel more next
      (empty ++ text ++ join ++ rest, last)
    else
      let tail := match chomp with
        | .strip => []
        | .clip => lineEnd
        | .keep => lineEnd ++ more
      (empty ++ text ++ tail, next)

/-- A block scalar, from its indicator; the block around it is indented by `parent`. -/
def scan (folded : Bool) (parent : Int) (c : Cursor) : Scanned := do
  let (chomp, inc, c) ← header c.step
  let c ← c.finishLine .blockHeader
  let least := (max (parent + 1) 1).toNat
  let (empty, indent, c) :=
    match inc with
    | none =>
      let (empty, widest, c) := leading (c.rest.length + 1) 0 c
      (empty, max least widest, c)
    | some n =>
      let indent := least + n - 1
      let (empty, c) := emptyLines indent (c.rest.length + 1) c
      (empty, indent, c)
  if c.column = indent && !c.rest.isEmpty then
    .ok (body folded chomp indent (c.rest.length + 1) empty c)
  else .ok (if chomp = .keep then empty else [], c)

end BlockText

end DtoGen.Yaml
