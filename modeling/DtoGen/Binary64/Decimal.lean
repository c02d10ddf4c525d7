import DtoGen.Binary64.Basic

namespace DtoGen.Binary64

def digitCount (n : Nat) : Nat := (Nat.toDigits 10 n).length

/-- The number nearest to `± digits · 10 ^ exponent`. Beyond `10 ^ ±400` the result is known without
computing the power. -/
def ofDecimal (negative : Bool) (digits : Nat) (exponent : Int) : Binary64 :=
  if digits = 0 then .finite negative 0 minExponent
  else
    let top := exponent + digitCount digits
    if 400 < top then .infinity negative
    else if top < -400 then .finite negative 0 minExponent
    else if exponent < 0 then ofRatio negative digits (Nat.pow 10 (-exponent).toNat)
    else ofRatio negative (digits * Nat.pow 10 exponent.toNat) 1

def digitsValue (ds : List Char) : Nat := ds.foldl (fun n c => 10 * n + (c.toNat - '0'.toNat)) 0

/-- Of the two neighbours of `num / den` on the grid `10 ^ -s`, the nearer one that reads back. -/
def onGrid? (target : Binary64) (num den : Nat) (s : Int) : Option Nat :=
  let (a, b) :=
    if s < 0 then (num, den * Nat.pow 10 (-s).toNat) else (num * Nat.pow 10 s.toNat, den)
  let lo := a / b
  let r := a % b
  let hits d := ofDecimal false d (-s) = target
  match decide (hits lo), decide (hits (lo + 1)) with
  | true, true =>
    some (if 2 * r < b || (2 * r = b && lo % 2 = 0) then lo else lo + 1)
  | true, false => some lo
  | false, true => some (lo + 1)
  | false, false => none

/-- Drops zeros at the end of a decimal and counts them in its exponent; `fuel` bounds their
number. -/
def dropZeros : (fuel : Nat) → Nat → Int → Nat × Int
  | 0, d, e => (d, e)
  | fuel + 1, d, e => if d % 10 = 0 && d ≠ 0 then dropZeros fuel (d / 10) (e + 1) else (d, e)

/-- The fewest digits, with their exponent, that read back as `mantissa · 2 ^ exponent`. -/
def shortest (mantissa : Nat) (exponent : Int) : Nat × Int :=
  let (num, den) := magnitude mantissa exponent
  let top : Int := (digitCount (num * Nat.pow 10 400 / den) : Int) - 401
  let found := (List.range 17).findSome? fun (n : Nat) =>
    let s : Int := (n : Int) - top
    (onGrid? (.finite false mantissa exponent) num den s).map fun d => (d, -s)
  match found with
  | some (d, e) => dropZeros (digitCount d) d e
  | none => (mantissa, 0)

/-- Positional when the leading digit stands for a power from `10 ^ -4` to `10 ^ 15`, with at least
one digit after the point; otherwise one digit before the point, a signed exponent of two digits or
more, and no idle point. -/
def layoutDecimal (digits : Nat) (exponent : Int) : String :=
  let ds := Nat.toDigits 10 digits
  let top : Int := exponent + ds.length
  let zeros (n : Int) := List.replicate n.toNat '0'
  let body :=
    if -4 < top && top ≤ 16 then
      if top ≤ 0 then '0' :: '.' :: zeros (-top) ++ ds
      else if top < ds.length then ds.take top.toNat ++ '.' :: ds.drop top.toNat
      else ds ++ zeros (top - ds.length) ++ ['.', '0']
    else
      let e := top - 1
      let mark := if e < 0 then '-' else '+'
      let es := Nat.toDigits 10 e.natAbs
      let es := if es.length < 2 then '0' :: es else es
      let frac := match ds.drop 1 with
        | [] => []
        | rest => '.' :: rest
      ds.take 1 ++ frac ++ 'e' :: mark :: es
  String.ofList body

def toText : Binary64 → String
  | .nan => "nan"
  | .infinity s => if s then "-inf" else "inf"
  | .finite s m e =>
    let (d, k) := if m = 0 then (0, 0) else shortest m e
    (if s then "-" else "") ++ layoutDecimal d k

end DtoGen.Binary64
