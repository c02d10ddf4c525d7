import DtoGen.Binary64.Decimal
import DtoGen.Text.Quoted

namespace DtoGen

inductive Literal where
  | null
  | bool (b : Bool)
  | int (n : Int)
  | float (x : Binary64)
  | string (s : String)
deriving DecidableEq, Repr, Inhabited

namespace Literal

def text : Literal → String
  | .null => "null"
  | .bool b => if b then "true" else "false"
  | .int n => toString n
  | .float x => x.toText
  | .string s => Text.quote s

def integers : Literal → List Int
  | .int n => [n]
  | _ => []

/-- Strict equality at run time: numbers compare by value, all else by kind and content. -/
def strictEq : Literal → Literal → Bool
  | .null, .null => true
  | .bool a, .bool b => a = b
  | .string a, .string b => a = b
  | .int a, .int b => a = b
  | .float a, .float b => a.sameValue b
  | .int a, .float b => b.toInt? = some a
  | .float a, .int b => a.toInt? = some b
  | _, _ => false

end Literal

end DtoGen
