namespace DtoGen

/-- The names of the pool that are reached from `work`, each once, in the order of a depth-first
visit from left to right. A name outside the pool leads nowhere. -/
def closure (next : String → List String) (pool work : List String) : List String :=
  match work with
  | [] => []
  | n :: rest =>
    if n ∈ pool then n :: closure next (pool.erase n) (next n ++ rest)
    else closure next pool rest
termination_by (pool.length, work.length)
decreasing_by
  · rename_i h
    have := List.length_erase_of_mem h
    have := List.length_pos_of_mem h
    exact Prod.Lex.left _ _ (by omega)
  · exact Prod.Lex.right _ (by simp)

end DtoGen
