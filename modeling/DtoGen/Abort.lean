import DtoGen.Document.Time
import DtoGen.Text.Quoted

namespace DtoGen

inductive Depth where
  | array
  | object
  | node
deriving DecidableEq, Repr

/-- Why work is given up without an answer: what a scalar or a limit does not allow. -/
inductive Abort where
  | truthWord (text : String)
  | emptyNumeral
  | numeral (text : String) (base : Nat)
  | decimal (text : String)
  | digitLimit (digits : Nat)
  | longNumeral
  | largeFactor
  | time
  | timeOfMapping
  | year (n : Nat)
  | month
  | day
  | hour
  | minute
  | second
  | zone (seconds : Int)
  | codePoint
  | codeWord
  | nesting (where' : Depth)
  | nullByte
  | emptyPath
  | emptyPerspective
  | unencodable (u : Text.Unencodable)
deriving DecidableEq, Repr

namespace Abort

/-- The most decimal digits that an integer may be written with. -/
def maxDigits : Nat := 4300

/-- Whether an integer has few enough digits to be written out. -/
def isShort (n : Int) : Bool := (Nat.toDigits 10 n.natAbs).length ≤ maxDigits

def maxShown : Nat := 200

def depthText : Depth → String
  | .array => " while decoding a JSON array from a unicode string"
  | .object => " while decoding a JSON object from a unicode string"
  | .node => ""

/-- The character, or the positions if there are several. -/
def unencodableText (u : Text.Unencodable) : String :=
  if u.first = u.last then
    "character '" ++ String.ofList (Text.codeEscape u.code) ++ "' in position " ++ toString u.first
  else "characters in position " ++ toString u.first ++ "-" ++ toString u.last

def message : Abort → String
  | .truthWord t => Text.shown t
  | .emptyNumeral => "string index out of range"
  | .numeral t b =>
    "invalid literal for int() with base " ++ toString b ++ ": " ++
      String.ofList ((Text.shown t).toList.take maxShown)
  | .decimal t => "could not convert string to float: " ++ Text.shown t
  | .digitLimit n =>
    "Exceeds the limit (" ++ toString maxDigits ++
      " digits) for integer string conversion: value has " ++ toString n ++
      " digits; use sys.set_int_max_str_digits() to increase the limit"
  | .longNumeral =>
    "Exceeds the limit (" ++ toString maxDigits ++
      " digits) for integer string conversion; use sys.set_int_max_str_digits() to increase the limit"
  | .largeFactor => "int too large to convert to float"
  | .time => "'NoneType' object has no attribute 'groupdict'"
  | .timeOfMapping => "expected string or bytes-like object, got 'list'"
  | .year n => "year " ++ toString n ++ " is out of range"
  | .month => "month must be in 1..12"
  | .day => "day is out of range for month"
  | .hour => "hour must be in 0..23"
  | .minute => "minute must be in 0..59"
  | .second => "second must be in 0..59"
  | .zone n =>
    "offset must be a timedelta strictly between -timedelta(hours=24) and timedelta(hours=24), not " ++
      Timestamp.spanExpression n ++ "."
  | .codePoint => "chr() arg not in range(0x110000)"
  | .codeWord => "Python int too large to convert to C int"
  | .nesting d => "maximum recursion depth exceeded" ++ depthText d
  | .nullByte => "embedded null byte"
  | .emptyPath => "expected str, bytes or os.PathLike object, not list"
  | .emptyPerspective => "[] is not a valid Perspective"
  | .unencodable u =>
    "'utf-8' codec can't encode " ++ unencodableText u ++ ": surrogates not allowed"

end Abort

end DtoGen
