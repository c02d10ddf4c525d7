import DtoGen.Abort
import DtoGen.Binary64.Decimal
import DtoGen.Text.Blank
import DtoGen.Text.Letter

namespace DtoGen.Numeral

/-- The value of a decimal digit of any script. Digits of a script stand together in order. -/
def digit? (c : Char) : Option Nat :=
  (Text.decimalRanges.find? fun r => r.1 ≤ c.toNat && c.toNat ≤ r.2).map fun r =>
    (c.toNat - r.1) % 10

def isAsciiBlank (c : Char) : Bool := c = ' ' || (0x09 ≤ c.toNat && c.toNat ≤ 0x0d)

/-- A character as a number is read from it: digits of other scripts count as the usual ones, and
white space of other scripts as a blank. -/
def plain (c : Char) : Char :=
  if c.toNat < 0x7f then c
  else if Text.isBlank c then ' '
  else ((digit? c).map fun d => Char.ofNat ('0'.toNat + d)).getD c

def trim (s : List Char) : List Char :=
  ((s.dropWhile isAsciiBlank).reverse.dropWhile isAsciiBlank).reverse

def isNegative (s : List Char) : Bool := s.head? = some '-'

def dropSign : List Char → List Char
  | '-' :: r => r
  | '+' :: r => r
  | r => r

def hexValue? (c : Char) : Option Nat :=
  if c.isDigit then some (c.toNat - '0'.toNat)
  else if 'a' ≤ c && c ≤ 'f' then some (c.toNat - 'a'.toNat + 10)
  else if 'A' ≤ c && c ≤ 'F' then some (c.toNat - 'A'.toNat + 10)
  else none

def isDigitOf (base : Nat) (c : Char) : Bool := (hexValue? c).any fun d => d < base

def value (base : Nat) (ds : List Char) : Nat :=
  ds.foldl (fun n c => base * n + (hexValue? c).getD 0) 0

def baseLetter : Nat → Option Char
  | 2 => some 'b'
  | 8 => some 'o'
  | 16 => some 'x'
  | _ => none

def dropBase (base : Nat) (s : List Char) : List Char :=
  match s with
  | '0' :: c :: rest => if some c.toLower = baseLetter base then rest else s
  | _ => s

/-- An integer in a base. In base ten the number of digits is limited. -/
def int (base : Nat) (s : List Char) : Except Abort Int :=
  let t := trim (s.map plain)
  let body := dropBase base (dropSign t)
  let ds := body.takeWhile (isDigitOf base)
  if base = 10 && Abort.maxDigits < ds.length then .error (.digitLimit ds.length)
  else if ds.isEmpty || ds.length < body.length then .error (.numeral (String.ofList s) base)
  else .ok (Binary64.signed (isNegative t) (value base ds))

def exponent? (s : List Char) : Option Int :=
  match s with
  | [] => some 0
  | e :: r =>
    let ds := dropSign r
    if (e = 'e' || e = 'E') && !ds.isEmpty && ds.all Char.isDigit then
      some (Binary64.signed (isNegative r) (Binary64.digitsValue ds))
    else none

/-- Digits, perhaps with a point among them, and perhaps an exponent. -/
def unsignedDecimal? (s : List Char) : Option (Nat × Int) :=
  let whole := s.takeWhile Char.isDigit
  let rest := s.drop whole.length
  let fraction := match rest with
    | '.' :: r => r.takeWhile Char.isDigit
    | _ => []
  let tail := if rest.head? = some '.' then rest.drop (fraction.length + 1) else rest
  if (whole ++ fraction).isEmpty then none
  else (exponent? tail).map fun e =>
    (Binary64.digitsValue (whole ++ fraction), e - fraction.length)

/-- A number with a sign: a decimal, or a word for what is not finite, in any case. -/
def signedFloat? (s : List Char) : Option Binary64 :=
  let body := dropSign s
  let word := String.ofList (body.map Char.toLower)
  if word = "inf" || word = "infinity" then some (.infinity (isNegative s))
  else if word = "nan" then some .nan
  else (unsignedDecimal? body).map fun (d, e) => .ofDecimal (isNegative s) d e

def float (s : List Char) : Except Abort Binary64 :=
  match signedFloat? (trim (s.map plain)) with
  | some x => .ok x
  | none => .error (.decimal (String.ofList s))

end DtoGen.Numeral
