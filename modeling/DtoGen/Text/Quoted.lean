import DtoGen.Text.Printable
import DtoGen.Text.Surrogate

namespace DtoGen.Text

/-- The characters that stand for one character inside a literal. -/
def escape : Char → List Char
  | '\\' => ['\\', '\\']
  | '\'' => ['\\', '\'']
  | '\n' => ['\\', 'n']
  | '\t' => ['\\', 't']
  | c => [c]

def quoted (s : List Char) : List Char := '\'' :: s.flatMap escape ++ ['\'']

def quote (s : String) : String := String.ofList (quoted s.toList)

def hexDigits (width n : Nat) : List Char :=
  let ds := Nat.toDigits 16 n
  List.replicate (width - ds.length) '0' ++ ds

def codeEscape (n : Nat) : List Char :=
  if n < 0x100 then '\\' :: 'x' :: hexDigits 2 n
  else if n < 0x10000 then '\\' :: 'u' :: hexDigits 4 n
  else '\\' :: 'U' :: hexDigits 8 n

/-- A character of a shown text, given the quote around it. -/
def showChar (mark c : Char) : List Char :=
  if c = mark || c = '\\' then ['\\', c]
  else if c = '\n' then ['\\', 'n']
  else if c = '\t' then ['\\', 't']
  else if c = '\r' then ['\\', 'r']
  else if isPrintable c then [c]
  else codeEscape (codePoint c)

/-- The quote is single unless the text has single quotes and no double ones. -/
def shownWith (show' : Char → Char → List Char) (cs : List Char) : String :=
  let mark := if cs.contains '\'' && !cs.contains '"' then '"' else '\''
  String.ofList (mark :: cs.flatMap (show' mark) ++ [mark])

def shown (s : String) : String := shownWith showChar s.toList

/-- A byte of shown bytes: only what is printable in seven bits is shown as it is. -/
def showByte (mark c : Char) : List Char :=
  if c.toNat < 0x7f then showChar mark c else codeEscape c.toNat

def shownBytes (bs : List UInt8) : String :=
  "b" ++ shownWith showByte (bs.map fun b => Char.ofNat b.toNat)

end DtoGen.Text
