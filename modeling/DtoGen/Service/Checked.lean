namespace DtoGen

inductive PathStep where
  | key (name : String)
  | index (i : Int)
deriving DecidableEq, Repr

inductive IssueKind where
  | missing
  | unknownKey
  | invalidKey
  | notString
  | brokenText
  | notList
  | notObject
  | notTagged
  | tagMissing
  | tagUnknown
  | notPrimitive
  | notChoice
  | notBool
  | unreadableBool
  | notInt
  | unreadableInt
  | fractionalInt
  | nonFiniteInt
  | oversizedInt
  | notFloat
  | unreadableFloat
deriving DecidableEq, Repr

structure Issue where
  path : List PathStep
  kind : IssueKind
deriving DecidableEq, Repr

/-- A value, or the issues that stand in its way. -/
inductive Checked (α : Type) where
  | ok (a : α)
  | bad (issues : List Issue)
deriving Repr

def IssueKind.name : IssueKind → String
  | .missing => "missing"
  | .unknownKey => "extra_forbidden"
  | .invalidKey => "invalid_key"
  | .notString => "string_type"
  | .brokenText => "string_unicode"
  | .notList => "list_type"
  | .notObject => "model_type"
  | .notTagged => "model_attributes_type"
  | .tagMissing => "union_tag_not_found"
  | .tagUnknown => "union_tag_invalid"
  | .notPrimitive => "enum"
  | .notChoice => "literal_error"
  | .notBool => "bool_type"
  | .unreadableBool => "bool_parsing"
  | .notInt => "int_type"
  | .unreadableInt => "int_parsing"
  | .fractionalInt => "int_from_float"
  | .nonFiniteInt => "finite_number"
  | .oversizedInt => "int_parsing_size"
  | .notFloat => "float_type"
  | .unreadableFloat => "float_parsing"

def PathStep.text : PathStep → String
  | .key k => k
  | .index i => toString i

def Issue.text (i : Issue) : String :=
  ".".intercalate (i.path.map PathStep.text) ++ ": " ++ i.kind.name

namespace Checked

variable {α β : Type}

def issue (k : IssueKind) : Checked α := .bad [⟨[], k⟩]

def map (f : α → β) : Checked α → Checked β
  | .ok a => .ok (f a)
  | .bad is => .bad is

def seq : Checked (α → β) → Checked α → Checked β
  | .ok f, .ok a => .ok (f a)
  | .ok _, .bad js => .bad js
  | .bad is, .ok _ => .bad is
  | .bad is, .bad js => .bad (is ++ js)

instance : Functor Checked where
  map := Checked.map

instance : Applicative Checked where
  pure := .ok
  seq f x := Checked.seq f (x ())

def under (step : PathStep) : Checked α → Checked α
  | .ok a => .ok a
  | .bad is => .bad (is.map fun i => { i with path := step :: i.path })

/-- Reads the elements of a list, placing issues by position. -/
def each (read : β → Checked α) : (start : Nat) → List β → Checked (List α)
  | _, [] => .ok []
  | i, b :: bs => List.cons <$> (read b).under (.index i) <*> each read (i + 1) bs

end Checked

end DtoGen
