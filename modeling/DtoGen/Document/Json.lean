import DtoGen.Document.Basic
import DtoGen.Text.Numeral

namespace DtoGen.Json

inductive Complaint where
  | expectedValue
  | expectedName
  | expectedColon
  | expectedComma
  | extraData
  | unterminatedString
  | badEscape
  | badCodeEscape
  | controlCharacter
  | byteOrderMark
deriving DecidableEq, Repr

def Complaint.message : Complaint → String
  | .expectedValue => "Expecting value"
  | .expectedName => "Expecting property name enclosed in double quotes"
  | .expectedColon => "Expecting ':' delimiter"
  | .expectedComma => "Expecting ',' delimiter"
  | .extraData => "Extra data"
  | .unterminatedString => "Unterminated string starting at"
  | .badEscape => "Invalid \\escape"
  | .badCodeEscape => "Invalid \\uXXXX escape"
  | .controlCharacter => "Invalid control character at"
  | .byteOrderMark => "Unexpected UTF-8 BOM (decode using utf-8-sig)"

/-- A complaint and how many characters stand from its place to the end. -/
structure Fault where
  complaint : Complaint
  left : Nat
deriving DecidableEq, Repr

/-- The message for a fault in a text, with line and column counted from one. -/
def Fault.message (f : Fault) (text : List Char) : String :=
  let before := text.take (text.length - f.left)
  let line := before.count '\n' + 1
  let column := (before.reverse.takeWhile (· ≠ '\n')).length + 1
  f.complaint.message ++ ": line " ++ toString line ++ " column " ++ toString column ++
    " (char " ++ toString before.length ++ ")"

/-- Why reading ends early: the text is at fault, or a limit is passed. -/
inductive Stop where
  | fault (f : Fault)
  | abort (cause : Abort)
deriving DecidableEq, Repr

abbrev Read (α : Type) := Except Stop (α × List Char)

def fail {α : Type} (c : Complaint) (left : Nat) : Except Stop α := .error (.fault ⟨c, left⟩)

def abort {α : Type} (cause : Abort) : Except Stop α := .error (.abort cause)

/-- How many lists and objects may stand inside each other. -/
def maxDepth : Nat := 990

def isSpace (c : Char) : Bool := c = ' ' || c = '\t' || c = '\n' || c = '\r'

def skip (s : List Char) : List Char := s.dropWhile isSpace

def code? (ds : List Char) : Option Nat :=
  ds.foldl (fun acc c => do return 16 * (← acc) + (← Numeral.hexValue? c)) (some 0)

/-- A code escape from its `u` on: the character and the length of the escape. At least one
character has to follow the digits, and two escapes that form a pair are one character. -/
def codeEscape (s : List Char) : Except Stop (Char × Nat) :=
  let after := s.drop 1
  if after.length < 5 then fail .badCodeEscape s.length
  else match code? (after.take 4) with
    | none => fail .badCodeEscape s.length
    | some n =>
      let next := after.drop 4
      if Text.isHighSurrogate n && 6 < next.length && ['\\', 'u'].isPrefixOf next then
        match code? ((next.drop 2).take 4) with
        | none => fail .badCodeEscape (next.length - 1)
        | some m =>
          if Text.isLowSurrogate m then
            .ok (Char.ofNat (0x10000 + (n - 0xd800) * 0x400 + (m - 0xdc00)), 11)
          else .ok (Text.ofCodePoint n, 5)
      else .ok (Text.ofCodePoint n, 5)

/-- An escape after its backslash: the character and the length of the escape. -/
def escapeAt (s : List Char) : Except Stop (Char × Nat) :=
  match s with
  | 'u' :: _ => codeEscape s
  | '"' :: _ => .ok ('"', 1)
  | '\\' :: _ => .ok ('\\', 1)
  | '/' :: _ => .ok ('/', 1)
  | 'b' :: _ => .ok ('\x08', 1)
  | 'f' :: _ => .ok ('\x0c', 1)
  | 'n' :: _ => .ok ('\n', 1)
  | 'r' :: _ => .ok ('\r', 1)
  | 't' :: _ => .ok ('\t', 1)
  | _ => fail .badEscape (s.length + 1)

/-- The rest of a string whose opening quote has `start` characters from it to the end. -/
def stringRest (start : Nat) (s : List Char) : Read (List Char) :=
  match s with
  | [] => fail .unterminatedString start
  | c :: rest =>
    if c = '"' then .ok ([], rest)
    else if c = '\\' then
      if rest.isEmpty then fail .unterminatedString start
      else match escapeAt rest with
        | .error e => .error e
        | .ok (d, n) => (stringRest start (rest.drop n)).map fun (ds, r) => (d :: ds, r)
    else if c.toNat < 0x20 then fail .controlCharacter s.length
    else (stringRest start rest).map fun (ds, r) => (c :: ds, r)
termination_by s.length

/-- A number: an integer, unless it has a fraction or an exponent. It ends where it stops being
one. -/
def number (s : List Char) : Read Literal :=
  let negative := s.head? = some '-'
  let s' := if negative then s.drop 1 else s
  let whole := match s' with
    | '0' :: _ => ['0']
    | _ => s'.takeWhile Char.isDigit
  if whole.isEmpty then fail .expectedValue s.length
  else
    let rest := s'.drop whole.length
    let frac := match rest with
      | '.' :: r => r.takeWhile Char.isDigit
      | _ => []
    let rest := if frac.isEmpty then rest else rest.drop (frac.length + 1)
    let (expNeg, expDigits, expLength) := match rest with
      | e :: r =>
        if e = 'e' || e = 'E' then
          let signed := r.head? = some '-' || r.head? = some '+'
          let ds := (if signed then r.drop 1 else r).takeWhile Char.isDigit
          (decide (r.head? = some '-'), ds, ds.length + (if signed then 2 else 1))
        else (false, [], 0)
      | [] => (false, [], 0)
    let rest := if expDigits.isEmpty then rest else rest.drop expLength
    if frac.isEmpty && expDigits.isEmpty then
      if Abort.maxDigits < whole.length then abort (.digitLimit whole.length)
      else .ok (.int (Binary64.signed negative (Binary64.digitsValue whole)), rest)
    else
      let e := Binary64.signed expNeg (Binary64.digitsValue expDigits)
      .ok (.float (.ofDecimal negative (Binary64.digitsValue (whole ++ frac)) (e - frac.length)),
        rest)

def wordLiterals : List (String × Literal) :=
  [("null", .null), ("true", .bool true), ("false", .bool false), ("NaN", .float .nan),
   ("Infinity", .float (.infinity false)), ("-Infinity", .float (.infinity true))]

def atom (s : List Char) : Read Document :=
  match wordLiterals.find? fun w => w.1.toList.isPrefixOf s with
  | some (w, l) => .ok (.scalar (.literal l), s.drop w.length)
  | none => (number s).map fun (l, r) => (.scalar (.literal l), r)

mutual
/-- A value with at most `depth` levels inside each other. Every call but the outermost follows a
character that is read, so a fuel of twice the length of the text is enough. -/
def value : (fuel depth : Nat) → List Char → Read Document
  | 0, _, s => fail .expectedValue s.length
  | fuel + 1, depth, s =>
    match s with
    | '"' :: rest =>
      (stringRest s.length rest).map fun (cs, r) => (.scalar (.ofString (String.ofList cs)), r)
    | '\x7b' :: rest =>
      match depth with
      | 0 => abort (.nesting .object)
      | depth + 1 =>
        match skip rest with
        | '\x7d' :: r => .ok (.mapping [], r)
        | r => members fuel depth [] r
    | '[' :: rest =>
      match depth with
      | 0 => abort (.nesting .array)
      | depth + 1 =>
        match skip rest with
        | ']' :: r => .ok (.list [], r)
        | r => items fuel depth [] r
    | _ => atom s
def members : (fuel depth : Nat) → Document.Entries → List Char → Except Stop (Document × List Char)
  | 0, _, _, s => fail .expectedName s.length
  | fuel + 1, depth, acc, s =>
    match s with
    | '"' :: rest => do
      let (name, r) ← stringRest s.length rest
      match skip r with
      | ':' :: r => do
        let (v, r) ← value fuel depth (skip r)
        let acc := Document.put (.ofString (String.ofList name)) v acc
        match skip r with
        | '\x7d' :: r => .ok (.mapping acc, r)
        | ',' :: r => members fuel depth acc (skip r)
        | r => fail .expectedComma r.length
      | r => fail .expectedColon r.length
    | _ => fail .expectedName s.length
/-- The items of a list after those already read, which are kept last first. -/
def items : (fuel depth : Nat) → List Document → List Char → Except Stop (Document × List Char)
  | 0, _, _, s => fail .expectedValue s.length
  | fuel + 1, depth, acc, s => do
    let (v, r) ← value fuel depth s
    match skip r with
    | ']' :: r => .ok (.list (v :: acc).reverse, r)
    | ',' :: r => items fuel depth (v :: acc) (skip r)
    | r => fail .expectedComma r.length
end

def parseChars (s : List Char) : Except Stop Document :=
  if s.head? = some '\ufeff' then fail .byteOrderMark s.length
  else do
    let (d, r) ← value (2 * s.length + 2) maxDepth (skip s)
    let r := skip r
    if r.isEmpty then .ok d else fail .extraData r.length

def parse (text : String) : Except Stop Document := parseChars text.toList

end DtoGen.Json
