namespace DtoGen.Base64

def value? (c : Char) : Option Nat :=
  if 'A' ≤ c && c ≤ 'Z' then some (c.toNat - 'A'.toNat)
  else if 'a' ≤ c && c ≤ 'z' then some (c.toNat - 'a'.toNat + 26)
  else if c.isDigit then some (c.toNat - '0'.toNat + 52)
  else if c = '+' then some 62
  else if c = '/' then some 63
  else none

/-- The byte that ends with some of the six bits `v`, after `place` characters of a group of which
`kept` is left over. -/
def byteAt (place kept v : Nat) : List UInt8 :=
  match place with
  | 0 => []
  | 1 => [(kept * 4 + v / 16).toUInt8]
  | 2 => [(kept * 16 + v / 4).toUInt8]
  | _ => [(kept * 64 + v).toUInt8]

def keptAt (place v : Nat) : Nat :=
  match place with
  | 0 => v
  | 1 => v % 16
  | 2 => v % 4
  | _ => 0

/-- The bytes of the rest of a text, in a group with `place` characters and `pads` padding marks. -/
def decodeFrom (place kept pads : Nat) : List Char → Option (List UInt8)
  | [] => if place = 0 then some [] else none
  | c :: rest =>
    if c = '=' then
      if 2 ≤ place then
        if 4 ≤ place + pads + 1 then some [] else decodeFrom place kept (pads + 1) rest
      else decodeFrom place kept pads rest
    else
      match value? c with
      | none => decodeFrom place kept pads rest
      | some v =>
        (decodeFrom ((place + 1) % 4) (keptAt place v) 0 rest).map (byteAt place kept v ++ ·)

/-- The bytes of a text; none if its last group is not complete. -/
def decode? (s : List Char) : Option (List UInt8) := decodeFrom 0 0 0 s

end DtoGen.Base64
