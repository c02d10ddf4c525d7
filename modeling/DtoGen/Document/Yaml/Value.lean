import DtoGen.Document.Yaml.Cursor
import DtoGen.Document.Yaml.Tag
import DtoGen.Text.Base64
import DtoGen.Text.Lower

namespace DtoGen.Yaml.Read

def negateIf (negative : Bool) (n : Int) : Int := if negative then -n else n

def sixties (groups : List Int) : Int := groups.foldl (fun n g => 60 * n + g) 0

/-- An integer without its sign. A leading zero is followed by the mark of a base or means base
eight. -/
def unsignedInt (s : List Char) : Except Abort Int :=
  match s with
  | [] => .error .emptyNumeral
  | ['0'] => .ok 0
  | '0' :: 'b' :: r => Numeral.int 2 r
  | '0' :: 'x' :: r => Numeral.int 16 r
  | '0' :: _ => Numeral.int 8 s
  | _ =>
    if s.contains ':' then sixties <$> (Text.splitAt ':' s).mapM (Numeral.int 10)
    else Numeral.int 10 s

def int (text : String) : Except Abort Int :=
  let s := text.toList.filter (· ≠ '_')
  negateIf (Numeral.isNegative s) <$> unsignedInt (Numeral.dropSign s)

/-- Groups to base 60, the units first, summed in the arithmetic of the numbers. Each factor has to be
one of these numbers itself. -/
def floatSixties : (factor : Nat) → (sum : Binary64) → List Binary64 → Except Abort Binary64
  | _, sum, [] => .ok sum
  | factor, sum, x :: xs =>
    match Binary64.ofRatio false factor 1 with
    | .infinity _ => .error .largeFactor
    | _ => floatSixties (60 * factor) (sum.add (x.mulNat factor)) xs

def unsignedFloat (s : List Char) : Except Abort Binary64 :=
  if s = ".inf".toList then .ok (.infinity false)
  else if s = ".nan".toList then .ok .nan
  else if s.contains ':' then do
    let gs ← (Text.splitAt ':' s).mapM Numeral.float
    floatSixties 1 .zero gs.reverse
  else Numeral.float s

/-- A double-precision number; underscores and the case of letters do not count. -/
def float (text : String) : Except Abort Binary64 :=
  let s := Text.lower (text.toList.filter (· ≠ '_'))
  if s.isEmpty then .error .emptyNumeral
  else (unsignedFloat (Numeral.dropSign s)).map fun x => if Numeral.isNegative s then x.neg else x

def bool (text : String) : Except Abort Bool :=
  let w := String.ofList (Text.lower text.toList)
  match Form.boolWords.lookup w with
  | some b => .ok b
  | none => .error (.truthWord w)

def checkDate (d : Date) : Except Abort Unit :=
  if d.year = 0 then .error (.year d.year)
  else if d.month = 0 || 12 < d.month then .error .month
  else if d.day = 0 || Date.daysIn d.year d.month < d.day then .error .day
  else .ok ()

/-- The offset of a zone in minutes; it has to be less than a day. -/
def offset : Option Zone → Except Abort (Option Int)
  | none => .ok none
  | some .universal => .ok (some 0)
  | some (.offset negative h m) =>
    let minutes := Binary64.signed negative (60 * h + m)
    if 60 * h + m < 24 * 60 then .ok (some minutes) else .error (.zone (60 * minutes))

def clock (d : Date) (c : ClockTime) : Except Abort Scalar := do
  let o ← offset c.zone
  checkDate d
  if 23 < c.hour then .error .hour
  else if 59 < c.minute then .error .minute
  else if 59 < c.second then .error .second
  else
    let six := (c.fraction ++ List.replicate 6 '0').take 6
    .ok (.timestamp ⟨d, c.hour, c.minute, c.second, Binary64.digitsValue six, o⟩)

def timestamp (text : String) : Except Abort Scalar := do
  match WrittenTime.ofText? (Form.withoutBreak text).toList with
  | none => .error .time
  | some w =>
    match w.clock with
    | some c => clock w.date c
    | none => do
      checkDate w.date
      .ok (.date w.date)

def binary (text : String) : Except Malformed Scalar :=
  let s := text.toList
  match if s.all fun c => c.toNat < 0x80 then Base64.decode? s else none with
  | some bs => .ok (.bytes bs)
  | none => .error .base64

def scalar (tag : Tag) (text : String) : Except Fault Scalar :=
  match tag with
  | .null => .ok (.literal .null)
  | .bool => ((bool text).map fun b => .literal (.bool b)).mapError .aborted
  | .int => ((int text).map fun n => .literal (.int n)).mapError .aborted
  | .float => ((float text).map fun x => .literal (.float x)).mapError .aborted
  | .timestamp => (timestamp text).mapError .aborted
  | .string => .ok (.ofString text)
  | .binary => (binary text).mapError .malformed
  | _ => malformed (.unknownTag tag.name)

end DtoGen.Yaml.Read
