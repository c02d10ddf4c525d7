import DtoGen.Document.Basic
import DtoGen.Service.Checked
import DtoGen.Text.Blank
import DtoGen.Text.Numeral

namespace DtoGen.Read

abbrev Reader (α : Type) := Document → Checked α

def textOf? (bs : List UInt8) : Option String := String.fromUTF8? bs.toByteArray

def string : Reader String
  | .scalar (.literal (.string s)) => .ok s
  | .scalar (.bytes bs) =>
    match textOf? bs with
    | some s => .ok s
    | none => .issue .brokenText
  | _ => .issue .notString

def nullable {α : Type} (read : Reader α) : Reader (Option α)
  | .scalar (.literal .null) => .ok none
  | d => some <$> read d

def list {α : Type} (read : Reader α) : Reader (List α)
  | .list ds => .each read 0 ds
  | _ => .issue .notList

def lowerAscii (s : String) : String := String.ofList (s.toList.map Char.toLower)

def boolWord? (s : String) : Option Bool :=
  let w := lowerAscii s
  if ["0", "off", "f", "false", "n", "no"].contains w then some false
  else if ["1", "on", "t", "true", "y", "yes"].contains w then some true
  else none

/-- Machine words have 64 bits, one of them for the sign. -/
def wordLimit : Nat := Nat.pow 2 63

def fitsWord (n : Int) : Bool := -(wordLimit : Int) ≤ n && n < wordLimit

/-- The integer that a number equals, if it lies strictly between the ends of the machine word. -/
def intOfFloat (x : Binary64) : Checked Int :=
  match x with
  | .finite _ _ _ =>
    match x.toInt? with
    | some n => if n.natAbs < wordLimit then .ok n else .issue .oversizedInt
    | none => .issue .fractionalInt
  | _ => .issue .nonFiniteInt

def boolOfInt (n : Int) : Checked Bool :=
  if n = 0 then .ok false
  else if n = 1 then .ok true
  else if fitsWord n then .issue .unreadableBool else .issue .notBool

def boolOfText (s : String) : Checked Bool :=
  match boolWord? s with
  | some b => .ok b
  | none => .issue .unreadableBool

/-- Reads a value out of a text, or out of bytes that are one. A lone surrogate makes the text
unusable; bytes that are no text are reported like a text that cannot be read. -/
def fromText {α : Type} (kind : IssueKind) (read : String → Checked α) : Scalar → Option (Checked α)
  | .literal (.string s) => some (if Text.hasLone s then .issue .brokenText else read s)
  | .bytes bs => some (((textOf? bs).map read).getD (.issue kind))
  | _ => none

def bool : Reader Bool
  | .scalar (.literal (.bool b)) => .ok b
  | .scalar (.literal (.int n)) => boolOfInt n
  | .scalar (.literal (.float x)) =>
    match intOfFloat x with
    | .ok n => boolOfInt n
    | .bad _ => .issue .notBool
  | .scalar s => (fromText .unreadableBool boolOfText s).getD (.issue .notBool)
  | _ => .issue .notBool

def isNumberBlank (c : Char) : Bool := Text.isBlank c && !(0x1c ≤ c.toNat && c.toNat ≤ 0x1f)

def dropZeroFraction (s : List Char) : List Char :=
  let whole := s.takeWhile (· ≠ '.')
  match s.drop whole.length with
  | '.' :: '0' :: zeros => if zeros.all (· = '0') then whole else s
  | _ => s

def isPositiveDigit (c : Char) : Bool := '1' ≤ c && c ≤ '9'

/-- An integer in plain form: a minus sign or none, then digits without idle zeros, which with the
sign may not be too many. -/
def plainInt (s : List Char) : Except IssueKind Int :=
  let body := if Numeral.isNegative s then s.drop 1 else s
  let ds := body.takeWhile Char.isDigit
  if body = ['0'] then .ok 0
  else if (body.head?.map isPositiveDigit).getD false then
    if Abort.maxDigits < ds.length + (s.length - body.length) then .error .oversizedInt
    else if ds.length < body.length then .error .unreadableInt
    else .ok (Binary64.signed (Numeral.isNegative s) (Binary64.digitsValue ds))
  else .error .unreadableInt

/-- What is left after idle zeros, of which `last` is the one before; underscores may stand among
them. The last zero stays before a point and at the end. -/
def afterZeros (last : Char) : List Char → Option (List Char)
  | [] => some [last]
  | c :: rest =>
    if c = '0' || c = '_' then afterZeros c rest
    else if isPositiveDigit c || c = '-' then some (c :: rest)
    else if c = '.' then some (last :: c :: rest)
    else none

/-- Drops idle zeros; a minus sign may come before or after them. -/
def dropZeros : List Char → Option (List Char)
  | [] => none
  | c :: rest =>
    if c = '0' then afterZeros c rest
    else if isPositiveDigit c || c = '-' then some (c :: rest)
    else none

def dropPlus : List Char → Option (List Char)
  | '+' :: '-' :: _ => none
  | '+' :: rest => some rest
  | s => some s

/-- Drops underscores if each stands alone between other characters. -/
def dropUnderscores (s : List Char) : List Char :=
  if (Text.splitAt '_' s).any List.isEmpty then s else s.filter (· ≠ '_')

def plainForm? (s : List Char) : Option (List Char) := do
  let s := ((s.dropWhile isNumberBlank).reverse.dropWhile isNumberBlank).reverse
  let s ← dropPlus s
  let s ← dropZeros s
  return dropUnderscores (dropZeroFraction s)

/-- An integer, in plain form or brought to it. Only in plain form are its digits counted. -/
def intOfText (text : String) : Checked Int :=
  let s := text.toList
  match plainInt s with
  | .ok n => .ok n
  | .error .oversizedInt => .issue .oversizedInt
  | .error _ =>
    match (plainForm? s).map plainInt with
    | some (.ok n) => .ok n
    | _ => .issue .unreadableInt

def int : Reader Int
  | .scalar (.literal (.int n)) => .ok n
  | .scalar (.literal (.bool b)) => .ok (if b then 1 else 0)
  | .scalar (.literal (.float x)) => intOfFloat x
  | .scalar s => (fromText .unreadableInt intOfText s).getD (.issue .notInt)
  | _ => .issue .notInt

def floatOfText (text : String) : Checked Binary64 :=
  let s := text.toList
  let trimmed := ((s.dropWhile isNumberBlank).reverse.dropWhile isNumberBlank).reverse
  match Numeral.signedFloat? trimmed, Numeral.signedFloat? (dropUnderscores s) with
  | some x, _ => .ok x
  | none, some x => .ok x
  | none, none => .issue .unreadableFloat

def choice {α : Type} (kind : IssueKind) (name : α → String) (choices : List α) : Reader α
  | .scalar (.literal (.string s)) =>
    match choices.find? (name · == s) with
    | some a => .ok a
    | none => .issue (if Text.hasLone s then .brokenText else kind)
  | _ => .issue kind

/-- The first of two readings that succeeds, else the issues of both. -/
def orElse {α : Type} (x y : Checked α) : Checked α :=
  match x, y with
  | .ok a, _ => .ok a
  | _, .ok a => .ok a
  | .bad is, .bad js => .bad (is ++ js)

/-- Reads a literal as it is. Anything else is read as each of the four kinds that are not null, of
which the first counts that fits. -/
def literal : Reader Literal
  | .scalar (.literal l) => .ok l
  | .scalar (.bytes bs) =>
    let read {α : Type} (kind : IssueKind) (f : String → Checked α) : Checked α :=
      (fromText kind f (.bytes bs)).getD (.issue kind)
    orElse ((Literal.bool <$> read .unreadableBool boolOfText).under (.key "bool"))
      (orElse ((Literal.int <$> read .unreadableInt intOfText).under (.key "int"))
        (orElse ((Literal.float <$> read .unreadableFloat floatOfText).under (.key "float"))
          ((Literal.string <$> string (.scalar (.bytes bs))).under (.key "str"))))
  | _ =>
    .bad [⟨[.key "bool"], .notBool⟩, ⟨[.key "int"], .notInt⟩, ⟨[.key "float"], .notFloat⟩,
      ⟨[.key "str"], .notString⟩]

end DtoGen.Read
