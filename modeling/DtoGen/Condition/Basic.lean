namespace DtoGen

inductive Connective where
  | all
  | any
deriving DecidableEq, Repr

/-- A test, or clauses of which all or any have to hold. -/
inductive Condition (α : Type) where
  | test (a : α)
  | join (k : Connective) (clauses : List (Condition α))
deriving Repr

instance {α : Type} : Inhabited (Condition α) := ⟨.join .all []⟩

namespace Connective

def operator : Connective → String
  | .all => " && "
  | .any => " || "

def unit : Connective → String
  | .all => "true"
  | .any => "false"

end Connective

/-- Keeps the first of the elements that share a key, leaving out keys already seen. -/
def firstsFrom {α : Type} (key : α → String) : List String → List α → List α
  | _, [] => []
  | seen, a :: as =>
    if seen.contains (key a) then firstsFrom key seen as
    else a :: firstsFrom key (key a :: seen) as

def firstsBy {α : Type} (key : α → String) (as : List α) : List α := firstsFrom key [] as

namespace Condition

variable {α β : Type}

/-- The clauses of a condition seen as part of a `k`: its own if it is a `k`, else itself. -/
def clausesOf (k : Connective) : Condition α → List (Condition α)
  | .test a => [.test a]
  | .join j cs => if j = k then cs else [.join j cs]

mutual
def flatten : Condition α → Condition α
  | .test a => .test a
  | .join k cs => .join k (flattenClauses k cs)
def flattenClauses (k : Connective) : List (Condition α) → List (Condition α)
  | [] => []
  | c :: cs => c.flatten.clausesOf k ++ flattenClauses k cs
end

mutual
def map (f : α → β) : Condition α → Condition β
  | .test a => .test (f a)
  | .join k cs => .join k (mapClauses f cs)
def mapClauses (f : α → β) : List (Condition α) → List (Condition β)
  | [] => []
  | c :: cs => c.map f :: mapClauses f cs
end

/-- The text of a clause, on its own and inside another clause. -/
structure Rendering where
  alone : String
  inside : String

def joinRenderings (k : Connective) (rs : List Rendering) : Rendering :=
  match firstsBy Rendering.alone rs with
  | [] => ⟨k.unit, k.unit⟩
  | [r] => r
  | rs =>
    let t := k.operator.intercalate (rs.map Rendering.inside)
    ⟨t, "(" ++ t ++ ")"⟩

mutual
def rendering : Condition String → Rendering
  | .test a => ⟨a, a⟩
  | .join k cs => joinRenderings k (renderings cs)
def renderings : List (Condition String) → List Rendering
  | [] => []
  | c :: cs => c.rendering :: renderings cs
end

/-- The expression for a condition; a clause with several parts is parenthesised inside another. -/
def render (c : Condition String) : String := c.flatten.rendering.alone

/-- Keeps the first of the conditions that render alike. -/
def dedup (cs : List (Condition String)) : List (Condition String) := firstsBy render cs

def clauses : Condition α → List (Condition α)
  | .test a => [.test a]
  | .join _ cs => cs

end Condition

end DtoGen
