namespace DtoGen

/-- In a finite number the mantissa is below `2 ^ 53`, the exponent is at least `-1074`, and the
mantissa is at least `2 ^ 52` unless the exponent is `-1074`; so each number has one form. -/
inductive Binary64 where
  | nan
  | infinity (negative : Bool)
  | finite (negative : Bool) (mantissa : Nat) (exponent : Int)
deriving DecidableEq, Repr, Inhabited

namespace Binary64

def minExponent : Int := -1074

def maxExponent : Int := 971

def zero : Binary64 := .finite false 0 minExponent

/-- The integer nearest to `num / den`; a tie goes to the even one. -/
def roundDiv (num den : Nat) : Nat :=
  let q := num / den
  let r := num % den
  if 2 * r < den then q
  else if den < 2 * r then q + 1
  else if q % 2 = 0 then q else q + 1

/-- `num / den / 2 ^ e` as a fraction of natural numbers. -/
def scale (num den : Nat) (e : Int) : Nat × Nat :=
  if e < 0 then (num * Nat.pow 2 (-e).toNat, den) else (num, den * Nat.pow 2 e.toNat)

/-- The exponent at which `num / den` has 53 bits, or the least one. -/
def exponentFor (num den : Nat) : Int :=
  let e : Int := (num.log2 : Int) - den.log2 - 53
  let s := scale num den e
  max minExponent (if s.1 / s.2 < Nat.pow 2 53 then e else e + 1)

def ofRatio (negative : Bool) (num den : Nat) : Binary64 :=
  if num = 0 then .finite negative 0 minExponent
  else
    let e := exponentFor num den
    let s := scale num den e
    let m := roundDiv s.1 s.2
    let (m, e) := if m = Nat.pow 2 53 then (Nat.pow 2 52, e + 1) else (m, e)
    if maxExponent < e then .infinity negative else .finite negative m e

def magnitude (mantissa : Nat) (exponent : Int) : Nat × Nat :=
  if exponent < 0 then (mantissa, Nat.pow 2 (-exponent).toNat)
  else (mantissa * Nat.pow 2 exponent.toNat, 1)

def signed (negative : Bool) (n : Nat) : Int := if negative then -n else n

def neg : Binary64 → Binary64
  | .nan => .nan
  | .infinity s => .infinity !s
  | .finite s m e => .finite (!s) m e

def add : Binary64 → Binary64 → Binary64
  | .nan, _ => .nan
  | _, .nan => .nan
  | .infinity s, .infinity t => if s = t then .infinity s else .nan
  | .infinity s, _ => .infinity s
  | _, .infinity s => .infinity s
  | .finite s m e, .finite t n f =>
    let (a, b) := magnitude m e
    let (c, d) := magnitude n f
    let sum := signed s (a * d) + signed t (c * b)
    if sum = 0 then .finite (s && t) 0 minExponent else ofRatio (sum < 0) sum.natAbs (b * d)

/-- The product with a positive integer, itself rounded first. -/
def mulNat (x : Binary64) (n : Nat) : Binary64 :=
  match x, ofRatio false n 1 with
  | .finite s m e, .finite _ k f =>
    let (a, b) := magnitude m e
    let (c, d) := magnitude k f
    ofRatio s (a * c) (b * d)
  | .nan, _ => .nan
  | .infinity s, _ => .infinity s
  | .finite s m _, _ => if m = 0 then .nan else .infinity s

def toInt? : Binary64 → Option Int
  | .finite s m e =>
    let (a, b) := magnitude m e
    if a % b = 0 then some (signed s (a / b)) else none
  | _ => none

/-- Equality of values: zeros of both signs are equal and a `nan` equals nothing. -/
def sameValue : Binary64 → Binary64 → Bool
  | .infinity s, .infinity t => s = t
  | .finite s m e, .finite t n f =>
    let (a, b) := magnitude m e
    let (c, d) := magnitude n f
    signed s (a * d) = signed t (c * b)
  | _, _ => false

def isNan : Binary64 → Bool
  | .nan => true
  | _ => false

end Binary64

end DtoGen
