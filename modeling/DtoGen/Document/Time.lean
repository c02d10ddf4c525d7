namespace DtoGen

structure Date where
  year : Nat
  month : Nat
  day : Nat
deriving DecidableEq, Repr

/-- A date with a time of day; the offset from universal time is in minutes. -/
structure Timestamp where
  date : Date
  hour : Nat
  minute : Nat
  second : Nat
  microsecond : Nat
  offset : Option Int
deriving DecidableEq, Repr

namespace Date

def padded (width n : Nat) : String :=
  let ds := Nat.toDigits 10 n
  String.ofList (List.replicate (width - ds.length) '0' ++ ds)

def text (d : Date) : String := padded 4 d.year ++ "-" ++ padded 2 d.month ++ "-" ++ padded 2 d.day

def isLeap (year : Nat) : Bool := (year % 4 = 0 && year % 100 ≠ 0) || year % 400 = 0

def daysIn (year month : Nat) : Nat :=
  if month = 2 then (if isLeap year then 29 else 28)
  else if [4, 6, 9, 11].contains month then 30 else 31

def ordinal (d : Date) : Nat :=
  let y := d.year - 1
  365 * y + y / 4 - y / 100 + y / 400 +
    (List.range (d.month - 1)).foldl (fun n m => n + daysIn d.year (m + 1)) d.day

def call (name : String) (arguments : List String) : String :=
  name ++ "(" ++ ", ".intercalate arguments ++ ")"

def expression (d : Date) : String :=
  call "datetime.date" ([d.year, d.month, d.day].map toString)

end Date

namespace Timestamp

def offsetText (o : Int) : String :=
  let n := o.natAbs
  (if o < 0 then "-" else "+") ++ Date.padded 2 (n / 60) ++ ":" ++ Date.padded 2 (n % 60)

def text (t : Timestamp) : String :=
  let micro := if t.microsecond = 0 then "" else "." ++ Date.padded 6 t.microsecond
  t.date.text ++ " " ++ Date.padded 2 t.hour ++ ":" ++ Date.padded 2 t.minute ++ ":" ++
    Date.padded 2 t.second ++ micro ++ (t.offset.map offsetText).getD ""

/-- Microseconds on the clock that the offset refers to. -/
def instant (t : Timestamp) : Int :=
  let minutes : Int := (t.date.ordinal * 24 + t.hour) * 60 + t.minute - t.offset.getD 0
  (minutes * 60 + t.second) * 1000000 + t.microsecond

/-- A span of time in days and seconds; a negative one counts seconds up from a day before. -/
def spanExpression (seconds : Int) : String :=
  let days := seconds.fdiv 86400
  let rest := seconds.fmod 86400
  let parts := (if days = 0 then [] else ["days=" ++ toString days]) ++
    (if rest = 0 then [] else ["seconds=" ++ toString rest])
  Date.call "datetime.timedelta" (if parts.isEmpty then ["0"] else parts)

def zoneExpression (offset : Int) : String :=
  if offset = 0 then "datetime.timezone.utc"
  else Date.call "datetime.timezone" [spanExpression (60 * offset)]

/-- Seconds and microseconds are left out at the end if they are zero. -/
def expression (t : Timestamp) : String :=
  let clock :=
    if t.microsecond ≠ 0 then [t.second, t.microsecond]
    else if t.second ≠ 0 then [t.second] else []
  let numbers := [t.date.year, t.date.month, t.date.day, t.hour, t.minute] ++ clock
  Date.call "datetime.datetime" (numbers.map toString ++
    (t.offset.map fun o => "tzinfo=" ++ zoneExpression o).toList)

end Timestamp

end DtoGen
