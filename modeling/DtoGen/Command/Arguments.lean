import DtoGen.Text.Letter
import DtoGen.Text.Quoted

namespace DtoGen.Arguments

inductive Effect where
  | help
  | flag
  | value (choices : List String)
deriving DecidableEq, Repr

structure Switch where
  names : List String
  effect : Effect
deriving DecidableEq, Repr

inductive Positional where
  | single (label : String)
  | command (label : String) (choices : List String)
deriving DecidableEq, Repr

structure Grammar where
  program : String
  usage : String
  help : String
  options : List Switch
  positional : Positional

inductive Stop where
  | help (text : String)
  | misuse (usage program problem : String)
deriving Repr

/-- What an option is set to. A separator attached to it is dropped and leaves it without a text. -/
inductive Setting where
  | text (s : String)
  | nothing
deriving DecidableEq, Repr

def Setting.ofText (s : String) : Setting := if s = "--" then .nothing else .text s

structure Result where
  flags : List String := []
  values : List (String × Setting) := []
  positional : Option (List String) := none
  extras : List String := []
deriving Repr

/-- An option that an argument names, with the name and perhaps text attached to it, after an equals
sign or directly. -/
structure Match where
  switch : Switch
  name : String
  attached : Option (List Char)
deriving DecidableEq, Repr

inductive Part where
  | separator
  | plain
  | known (m : Match)
  | unknown
deriving DecidableEq, Repr

structure Item where
  text : String
  part : Part
deriving Repr

namespace Switch

def label (o : Switch) : String := "/".intercalate o.names

def takesValue (o : Switch) : Bool :=
  match o.effect with
  | .value _ => true
  | _ => false

def choices (o : Switch) : List String :=
  match o.effect with
  | .value cs => cs
  | _ => []

def key (o : Switch) : String := o.names.getLast?.getD ""

end Switch

/-- A text up to its first equals sign, and what follows that. -/
def splitEquals (s : List Char) : List Char × Option (List Char) :=
  let name := s.takeWhile (· ≠ '=')
  match s.drop name.length with
  | _ :: value => (name, some value)
  | [] => (s, none)

namespace Grammar

def named (g : Grammar) : List (String × Switch) :=
  g.options.flatMap fun o => o.names.map fun n => (n, o)

def misuse {α : Type} (g : Grammar) (problem : String) : Except Stop α :=
  .error (.misuse g.usage g.program problem)

def misuseOf {α : Type} (g : Grammar) (label problem : String) : Except Stop α :=
  g.misuse ("argument " ++ label ++ ": " ++ problem)

/-- The options that a text may abbreviate. After two dashes any beginning of a name will do; after
one dash the value may follow the letter. -/
def candidates (g : Grammar) (s : List Char) : List Match :=
  match s with
  | '-' :: '-' :: _ =>
    let (stem, attached) := splitEquals s
    g.named.filterMap fun (n, o) =>
      if stem.isPrefixOf n.toList then some ⟨o, n, attached⟩ else none
  | '-' :: c :: rest =>
    g.named.filterMap fun (n, o) =>
      if n.toList = ['-', c] then some ⟨o, n, some rest⟩
      else if s.isPrefixOf n.toList then some ⟨o, n, none⟩
      else none
  | _ => []

def endsText : List Char → Bool
  | [] => true
  | ['\n'] => true
  | _ => false

/-- Digits of any script, perhaps with one point among them that a digit follows. A line feed at the
end does not count. -/
def isNumber (s : List Char) : Bool :=
  let whole := s.takeWhile Text.isDecimalDigit
  match s.drop whole.length with
  | '.' :: rest =>
    (rest.head?.map Text.isDecimalDigit).getD false && endsText (rest.dropWhile Text.isDecimalDigit)
  | rest => !whole.isEmpty && endsText rest

/-- The option that a text names in full, also with a value attached by an equals sign. -/
def inFull? (g : Grammar) (s : List Char) : Option Match :=
  match g.named.lookup (String.ofList s) with
  | some o => some ⟨o, String.ofList s, none⟩
  | none =>
    match splitEquals s with
    | (n, some a) => (g.named.lookup (String.ofList n)).map fun o => ⟨o, String.ofList n, some a⟩
    | (_, none) => none

/-- The part of an argument before any separator. Negative numbers and texts with blanks are no
options. -/
def classify (g : Grammar) (text : String) : Except Stop Part :=
  match text.toList with
  | '-' :: c :: rest =>
    let s := '-' :: c :: rest
    match g.inFull? s with
    | some m => .ok (.known m)
    | none =>
      match g.candidates s with
      | [m] => .ok (.known m)
      | [] => if isNumber (c :: rest) || s.contains ' ' then .ok .plain else .ok .unknown
      | ms =>
        g.misuse ("ambiguous option: " ++ text ++ " could match " ++
          ", ".intercalate (ms.map (·.name)))
  | _ => .ok .plain

/-- The parts of all arguments; after a separator none is an option. -/
def items (g : Grammar) : List String → Except Stop (List Item)
  | [] => .ok []
  | "--" :: rest => .ok (⟨"--", .separator⟩ :: rest.map fun t => ⟨t, .plain⟩)
  | t :: rest => do
    let p ← g.classify t
    let is ← g.items rest
    .ok (⟨t, p⟩ :: is)

def choiceError {α : Type} (g : Grammar) (label text : String) (choices : List String) :
    Except Stop α :=
  g.misuseOf label ("invalid choice: " ++ Text.shown text ++ " (choose from " ++
    ", ".intercalate (choices.map Text.shown) ++ ")")

/-- Whether an option may be set so; without choices every text will do. -/
def allows (o : Switch) : Setting → Bool
  | .nothing => true
  | .text t => o.choices.isEmpty || o.choices.contains t

def setValue (g : Grammar) (o : Switch) (text : String) (r : Result) : Except Stop Result :=
  if allows o (.ofText text) then .ok { r with values := (o.key, .ofText text) :: r.values }
  else g.choiceError o.label text o.choices

def setFlag (g : Grammar) (o : Switch) (r : Result) : Except Stop Result :=
  match o.effect with
  | .help => .error (.help g.help)
  | _ => .ok { r with flags := o.key :: r.flags }

def ignored {α : Type} (g : Grammar) (o : Switch) (s : List Char) : Except Stop α :=
  g.misuseOf o.label ("ignored explicit argument " ++ Text.shown (String.ofList s))

/-- Flags written after one dash, of which `o` comes first and `s` is left. Only flags have names of
one letter, and what is none of them is refused. -/
def flagCluster (g : Grammar) (o : Switch) : (s : List Char) → Except Stop (List Switch)
  | [] => .ok [o]
  | c :: rest =>
    match g.named.lookup (String.ofList ['-', c]) with
    | none => g.ignored o (c :: rest)
    | some next => do
      let os ← g.flagCluster next rest
      .ok (o :: os)

def setFlags (g : Grammar) : List Switch → Result → Except Stop Result
  | [], r => .ok r
  | o :: os, r => do
    let r ← g.setFlag o r
    g.setFlags os r

/-- Applies an option to the arguments after it, and tells how many of those it takes. -/
def apply (g : Grammar) (m : Match) (rest : List Item) (r : Result) : Except Stop (Result × Nat) := do
  if m.switch.takesValue then
    match m.attached, rest with
    | some a, _ => return (← g.setValue m.switch (String.ofList a) r, 0)
    | none, ⟨t, .plain⟩ :: _ => return (← g.setValue m.switch t r, 1)
    | none, _ => g.misuseOf m.switch.label "expected one argument"
  else
    match m.attached with
    | none => return (← g.setFlag m.switch r, 0)
    | some a =>
      if a.isEmpty || ['-', '-'].isPrefixOf m.name.toList then g.ignored m.switch a
      else
        let flags ← g.flagCluster m.switch a
        return (← g.setFlags flags r, 0)

/-- Takes the arguments of a command line that starts with a positional one, if it does, and gives
those after them. -/
def takePositional (g : Grammar) (is : List Item) : Option (List String × List Item) :=
  let marks := is.takeWhile (·.part = .separator)
  match is.drop marks.length with
  | ⟨t, .plain⟩ :: rest =>
    match g.positional with
    | .single _ => some ([t], rest.dropWhile (·.part = .separator))
    | .command _ _ => some (is.map (·.text), [])
  | _ => none

/-- Positional arguments among the options, then options, one by one; `fuel` bounds the arguments
left. -/
def read (g : Grammar) : (fuel : Nat) → List Item → Result → Except Stop Result
  | 0, _, r => .ok r
  | fuel + 1, is, r =>
    match is with
    | [] => .ok r
    | i :: rest =>
      match i.part with
      | .unknown => g.read fuel rest { r with extras := r.extras ++ [i.text] }
      | .known m => do
        let (r, n) ← g.apply m rest r
        g.read fuel (rest.drop n) r
      | _ =>
        match r.positional, g.takePositional is with
        | none, some (ts, after) => g.read fuel after { r with positional := some ts }
        | _, _ => g.read fuel rest { r with extras := r.extras ++ [i.text] }

/-- Checks the positional argument: one has to be there, and a command has to be known. -/
def checkPositional (g : Grammar) (r : Result) : Except Stop Result :=
  match g.positional, r.positional with
  | .single l, none => g.misuse ("the following arguments are required: " ++ l)
  | .command l choices, some (t :: _) =>
    if choices.contains t then .ok r else g.choiceError l t choices
  | _, _ => .ok r

def parse (g : Grammar) (args : List String) : Except Stop Result := do
  let is ← g.items args
  let r ← g.read (is.length + 1) is {}
  g.checkPositional r

end Grammar

end DtoGen.Arguments
