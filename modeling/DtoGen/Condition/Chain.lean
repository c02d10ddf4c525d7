import DtoGen.Condition.Basic

namespace DtoGen

inductive Block (α σ : Type) where
  | leaf (condition : Condition α) (body : List σ)
  | nested (condition : Condition α) (blocks : List (Block α σ))

instance {α σ : Type} : Inhabited (Block α σ) := ⟨.leaf default []⟩

namespace Block

variable {α β σ τ : Type}

def condition : Block α σ → Condition α
  | .leaf c _ => c
  | .nested c _ => c

mutual
def map (f : α → β) (g : σ → List τ) : Block α σ → Block β τ
  | .leaf c body => .leaf (c.map f) (body.flatMap g)
  | .nested c bs => .nested (c.map f) (mapAll f g bs)
def mapAll (f : α → β) (g : σ → List τ) : List (Block α σ) → List (Block β τ)
  | [] => []
  | b :: bs => b.map f g :: mapAll f g bs
end

/-- A branch: the text of its condition and the lines of its body. -/
abbrev Branch := String × List String

/-- The branches after the first one; the last has no condition. -/
def laterBranches : List Branch → List String
  | [] => []
  | [(_, body)] => "else \x7b" :: body ++ ["\x7d"]
  | (c, body) :: rest => ("else if (" ++ c ++ ") \x7b") :: body ++ "\x7d" :: laterBranches rest

def isElse (line : String) : Bool := "else".toList.isPrefixOf line.toList

def joinElse : List String → List String
  | [] => []
  | [l] => [l]
  | l :: m :: rest =>
    if l = "\x7d" && isElse m then ("\x7d " ++ m) :: joinElse rest else l :: joinElse (m :: rest)

/-- The lines of a chain. One branch alone stands without its condition. -/
def chain : List Branch → List String
  | [] => []
  | [(_, body)] => body
  | (c, body) :: rest => joinElse (("if (" ++ c ++ ") \x7b") :: body ++ "\x7d" :: laterBranches rest)

mutual
def bodyLines : Block String String → List String
  | .leaf _ body => body
  | .nested _ bs => chain (branches bs)
def branches : List (Block String String) → List Branch
  | [] => []
  | b :: bs => (b.condition.render, b.bodyLines) :: branches bs
end

def lines (bs : List (Block String String)) : List String := chain (branches bs)

end Block

end DtoGen
