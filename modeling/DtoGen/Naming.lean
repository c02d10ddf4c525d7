import DtoGen.Text.Blank
import DtoGen.Text.Quoted

namespace DtoGen.Naming

def isAlnum (c : Char) : Bool := c.isAlphanum

/-- Whether a word ends between `x` and `y`, given what follows `y`: where a capital follows a small
letter or a digit, and before the last capital of a run that a small letter follows. -/
def wordEnds (x y : Char) (rest : List Char) : Bool :=
  y.isUpper && (x.isLower || x.isDigit || (x.isUpper && (rest.head?.map Char.isLower).getD false))

/-- The words of a name; characters other than ASCII letters and digits only separate. -/
def wordList : List Char → List (List Char)
  | [] => []
  | [x] => if isAlnum x then [[x]] else []
  | x :: y :: rest =>
    if !isAlnum x then wordList (y :: rest)
    else if !isAlnum y || wordEnds x y rest then [x] :: wordList (y :: rest)
    else Text.consHead x (wordList (y :: rest))

def words (name : String) : List String := (wordList name.toList).map String.ofList

def lowercase (w : List Char) : List Char := w.map Char.toLower

def capitalize : List Char → List Char
  | [] => []
  | c :: cs => c.toUpper :: lowercase cs

def camelChars (name : List Char) : List Char :=
  match wordList name with
  | [] => name
  | w :: ws => lowercase w ++ ws.flatMap capitalize

def pascalChars (name : List Char) : List Char :=
  match wordList name with
  | [] => name
  | ws => ws.flatMap capitalize

def camel (name : String) : String := String.ofList (camelChars name.toList)

def pascal (name : String) : String := String.ofList (pascalChars name.toList)

/-- The words of a name, capitalised, with blanks between them. -/
def title (name : String) : String :=
  " ".intercalate ((wordList name.toList).map fun w => String.ofList (capitalize w))

def isHead (c : Char) : Bool := c.isAlpha || c == '_' || c == '$'

def isTail (c : Char) : Bool := isHead c || c.isDigit

def isPlainIdentifier : List Char → Bool
  | [] => false
  | c :: cs => isHead c && cs.all isTail

def isIdentifierChars (s : List Char) : Bool :=
  isPlainIdentifier s || (s.getLast? == some '\n' && isPlainIdentifier s.dropLast)

def isIdentifier (name : String) : Bool := isIdentifierChars name.toList

/-- A name as an object key, quoted unless it is an identifier. -/
def memberKey (name : String) : String := if isIdentifier name then name else Text.quote name

def accessor (name : String) : String :=
  if isIdentifier name then "." ++ name else "[" ++ Text.quote name ++ "]"

def reservedWords : List String :=
  ["break", "case", "catch", "class", "const", "continue", "debugger", "default", "delete", "do",
   "else", "enum", "export", "extends", "false", "finally", "for", "function", "if", "import", "in",
   "instanceof", "new", "null", "return", "super", "switch", "this", "throw", "true", "try",
   "typeof", "var", "void", "while", "with", "let", "static", "yield", "await"]

def localName (name : String) : String :=
  let c := camel name
  if !isIdentifier c || reservedWords.contains c then "_" ++ c else c

def propertyName (name : String) : String := camel name

def typeName (name : String) : String := pascal name

def dtoName (name : String) : String := pascal name ++ "Dto"

def interfaceName (name nomenclature : String) : String := pascal (name ++ "_" ++ nomenclature)

def methodName (name : String) : String := camel name

def paramsTypeName (method : String) : String := pascal (method ++ "_params")

def handlerName (method : String) : String := camel ("handle_" ++ method)

def requestHandlerTypeName (method : String) : String := pascal (method ++ "_request_handler")

def typeGuardName (name : String) : String := camel ("is_" ++ pascal name)

end DtoGen.Naming
