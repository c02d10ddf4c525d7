import DtoGen.Binary64.Decimal
import DtoGen.Document.Basic
import DtoGen.Text.Blank
import DtoGen.Text.Numeral

namespace DtoGen.Yaml

inductive Tag where
  | null
  | bool
  | int
  | float
  | timestamp
  | string
  | binary
  | sequence
  | mapping
  | set
  | orderedMap
  | pairs
  | merge
  | default
  | other (name : String)
deriving DecidableEq, Repr

namespace Tag

def coreNames : List (String × Tag) :=
  [("null", .null), ("bool", .bool), ("int", .int), ("float", .float), ("timestamp", .timestamp),
   ("str", .string), ("binary", .binary), ("seq", .sequence), ("map", .mapping), ("set", .set),
   ("omap", .orderedMap), ("pairs", .pairs), ("merge", .merge), ("value", .default)]

def coreStem : String := "tag:yaml.org,2002:"

def ofName (name : String) : Tag :=
  match coreNames.find? fun (n, _) => coreStem ++ n = name with
  | some (_, t) => t
  | none => .other name

def isScalar (t : Tag) : Bool :=
  [.null, .bool, .int, .float, .timestamp, .string, .binary].contains t

def isCollection (t : Tag) : Bool := [.sequence, .mapping, .set, .orderedMap, .pairs].contains t

def name : Tag → String
  | .other n => n
  | t => coreStem ++ ((coreNames.find? fun (_, u) => u = t).map Prod.fst).getD ""

end Tag

namespace Form

def boolWords : List (String × Bool) :=
  [("yes", true), ("no", false), ("true", true), ("false", false), ("on", true), ("off", false)]

/-- A word in small letters, with a capital in front, or in capitals. -/
def spellings (word : String) : List String :=
  let cs := word.toList
  let capital := (cs.take 1).map Char.toUpper ++ cs.drop 1
  [word, String.ofList capital, String.ofList (cs.map Char.toUpper)]

def isBool (s : String) : Bool := boolWords.any fun (w, _) => (spellings w).contains s

def isNull (s : String) : Bool := ["~", "null", "Null", "NULL", ""].contains s

def isDigitOrLow (c : Char) : Bool := c.isDigit || c = '_'

def isNumeral : List Char → Bool
  | [] => false
  | c :: cs => c.isDigit && cs.all isDigitOrLow

def isSixty : List Char → Bool
  | [d] => d.isDigit
  | [a, b] => '0' ≤ a && a ≤ '5' && b.isDigit
  | _ => false

def isSexagesimal (s : List Char) : Bool :=
  match Text.splitAt ':' s with
  | first :: g :: gs => isNumeral first && isSixty g && gs.all isSixty
  | _ => false

def isExponent : List Char → Bool
  | [] => true
  | e :: sign :: d :: ds =>
    (e = 'e' || e = 'E') && (sign = '-' || sign = '+') && (d :: ds).all Char.isDigit
  | _ => false

def isFraction (s : List Char) : Bool := isExponent (s.dropWhile isDigitOrLow)

def isFloat (s : List Char) : Bool :=
  let body := Numeral.dropSign s
  let whole := body.takeWhile (· ≠ '.')
  match body.drop whole.length with
  | '.' :: frac =>
    (isNumeral whole && isFraction frac) ||
      (whole.isEmpty && body.length = s.length && (frac.head?.map Char.isDigit).getD false &&
        isFraction frac) ||
      (isSexagesimal whole && frac.all isDigitOrLow) ||
      (whole.isEmpty && ["inf".toList, "Inf".toList, "INF".toList].contains frac) ||
      (whole.isEmpty && body.length = s.length &&
        ["nan".toList, "NaN".toList, "NAN".toList].contains frac)
  | _ => false

def isHexOrLow (c : Char) : Bool :=
  isDigitOrLow c || ('a' ≤ c && c ≤ 'f') || ('A' ≤ c && c ≤ 'F')

def isInt (s : List Char) : Bool :=
  match Numeral.dropSign s with
  | ['0'] => true
  | '0' :: 'b' :: r => !r.isEmpty && r.all fun c => c = '0' || c = '1' || c = '_'
  | '0' :: 'x' :: r => !r.isEmpty && r.all isHexOrLow
  | '0' :: r => r.all fun c => ('0' ≤ c && c ≤ '7') || c = '_'
  | c :: r => c.isDigit && (r.all isDigitOrLow || isSexagesimal (c :: r))
  | [] => false

end Form

inductive Zone where
  | universal
  | offset (negative : Bool) (hours minutes : Nat)
deriving DecidableEq, Repr

structure ClockTime where
  hour : Nat
  minute : Nat
  second : Nat
  fraction : List Char
  zone : Option Zone
deriving Repr

/-- The fields of a written date, and whether month and day have two digits. -/
structure WrittenTime where
  date : Date
  isWide : Bool
  clock : Option ClockTime
deriving Repr

namespace WrittenTime

abbrev Part (α : Type) := List Char → Option (α × List Char)

def digits (least most : Nat) : Part (List Char) := fun s =>
  let ds := (s.take most).takeWhile Char.isDigit
  if least ≤ ds.length then some (ds, s.drop ds.length) else none

def mark (c : Char) : Part Unit
  | x :: rest => if x = c then some ((), rest) else none
  | [] => none

def number (least most : Nat) : Part Nat := fun s =>
  (digits least most s).map fun (ds, r) => (Binary64.digitsValue ds, r)

def separator : Part Unit
  | 'T' :: r => some ((), r)
  | 't' :: r => some ((), r)
  | c :: r => if c = ' ' || c = '\t' then some ((), r.dropWhile fun c => c = ' ' || c = '\t') else none
  | [] => none

def offsetMinutes : Part Nat
  | ':' :: r => number 2 2 r
  | r => some (0, r)

def zone? (s : List Char) : Option (Option Zone) :=
  match s.dropWhile fun c => c = ' ' || c = '\t' with
  | [] => if s.isEmpty then some none else none
  | ['Z'] => some (some .universal)
  | c :: r =>
    if c = '-' || c = '+' then do
      let (h, r) ← number 1 2 r
      let (m, r) ← offsetMinutes r
      if r.isEmpty then some (some (.offset (c = '-') h m)) else none
    else none

def fraction : Part (List Char)
  | '.' :: r => some (r.takeWhile Char.isDigit, r.dropWhile Char.isDigit)
  | r => some ([], r)

def clock? (s : List Char) : Option ClockTime := do
  let (_, s) ← separator s
  let (hour, s) ← number 1 2 s
  let (_, s) ← mark ':' s
  let (minute, s) ← number 2 2 s
  let (_, s) ← mark ':' s
  let (second, s) ← number 2 2 s
  let (fraction, s) ← fraction s
  let zone ← zone? s
  some { hour, minute, second, fraction, zone }

def ofText? (s : List Char) : Option WrittenTime := do
  let (year, s) ← number 4 4 s
  let (_, s) ← mark '-' s
  let (m, s) ← digits 1 2 s
  let (_, s) ← mark '-' s
  let (d, s) ← digits 1 2 s
  let date : Date := ⟨year, Binary64.digitsValue m, Binary64.digitsValue d⟩
  let isWide := m.length = 2 && d.length = 2
  if s.isEmpty then some ⟨date, isWide, none⟩
  else do
    let c ← clock? s
    some ⟨date, isWide, some c⟩

/-- Whether a plain scalar is a date; without a time it has to be written in full. -/
def isForm (s : List Char) : Bool :=
  match ofText? s with
  | some w => w.isWide || w.clock.isSome
  | none => false

end WrittenTime

def Form.withoutBreak (text : String) : String :=
  match text.toList.reverse with
  | '\n' :: c :: r => String.ofList (c :: r).reverse
  | _ => text

/-- The tag of a scalar by its form, for which a line feed at the end does not count. -/
def Tag.ofForm (scalar : String) : Tag :=
  let text := Form.withoutBreak scalar
  let s := text.toList
  if Form.isBool text then .bool
  else if Form.isFloat s then .float
  else if Form.isInt s then .int
  else if text = "<<" then .merge
  else if Form.isNull text then .null
  else if WrittenTime.isForm s then .timestamp
  else if text = "=" then .default
  else if ["!", "&", "*"].contains text then .other (coreStem ++ "yaml")
  else .string

end DtoGen.Yaml
