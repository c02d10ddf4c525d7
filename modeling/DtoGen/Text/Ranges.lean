namespace DtoGen.Text

/-- A character class: the closed ranges of code points that belong to it, in increasing order. -/
abbrev Ranges := List (Nat × Nat)

def Ranges.has (r : Ranges) (c : Char) : Bool :=
  r.any fun b => b.1 ≤ c.toNat && c.toNat ≤ b.2

end DtoGen.Text
