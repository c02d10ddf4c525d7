namespace DtoGen.Text

def isHighSurrogate (n : Nat) : Bool := 0xd800 ≤ n && n ≤ 0xdbff

def isLowSurrogate (n : Nat) : Bool := 0xdc00 ≤ n && n ≤ 0xdfff

def isSurrogate (n : Nat) : Bool := isHighSurrogate n || isLowSurrogate n

def standInShift : Nat := 0x100000

def ofCodePoint (n : Nat) : Char := Char.ofNat (if isSurrogate n then standInShift + n else n)

def surrogate? (c : Char) : Option Nat :=
  let n := c.toNat - standInShift
  if isSurrogate n then some n else none

def codePoint (c : Char) : Nat := (surrogate? c).getD c.toNat

theorem codePoint_of_surrogate?_eq_none {c : Char} (h : surrogate? c = none) :
    codePoint c = c.toNat := by
  simp [codePoint, h]

def isLone (c : Char) : Bool := (surrogate? c).isSome

def hasLone (s : String) : Bool := s.toList.any isLone

def namesByte (n : Nat) : Bool := 0xdc80 ≤ n && n ≤ 0xdcff

/-- Lone surrogates that keep a text from being written as bytes: the first of them, and the
positions from which and up to which they stand. -/
structure Unencodable where
  code : Nat
  first : Nat
  last : Nat
deriving DecidableEq, Repr

/-- The first run of lone surrogates from a position on, those not counted that may be spared. -/
def unencodable? (spared : Nat → Bool) : (position : Nat) → List Char → Option Unencodable
  | _, [] => none
  | i, c :: rest =>
    match surrogate? c with
    | some n =>
      if spared n then unencodable? spared (i + 1) rest
      else some ⟨n, i, i + (rest.takeWhile isLone).length⟩
    | none => unencodable? spared (i + 1) rest

/-- Order by code points; a text comes before its continuations. -/
def leChars : List Char → List Char → Bool
  | [], _ => true
  | _ :: _, [] => false
  | a :: as, b :: bs =>
    if codePoint a = codePoint b then leChars as bs else decide (codePoint a < codePoint b)

def le (a b : String) : Bool := leChars a.toList b.toList

end DtoGen.Text
