import DtoGen.Mapping.Conversion

namespace DtoGen.Locals

theorem length_filter_lt {taken : List String} {name : String} (h : name ∈ taken) :
    (taken.filter fun t => ("_" ++ name).length ≤ t.length).length <
      (taken.filter fun t => name.length ≤ t.length).length := by
  have hsub : (taken.filter fun t => ("_" ++ name).length ≤ t.length) =
      (taken.filter fun t => name.length ≤ t.length).filter
        fun t => ("_" ++ name).length ≤ t.length := by
    rw [List.filter_filter]
    congr 1
    funext t
    simp only [String.length_append]
    grind
  rw [hsub]
  refine List.length_filter_lt_length_iff_exists.2 ⟨name, by simp [h], ?_⟩
  simp only [String.length_append, decide_eq_true_eq]
  have : "_".length = 1 := rfl
  omega

/-- A name that is not taken, made by putting underscores in front. -/
def fresh (taken : List String) (name : String) : String :=
  if _ : name ∈ taken then
    fresh taken ("_" ++ name)
  else name
termination_by (taken.filter fun t => name.length ≤ t.length).length
decreasing_by exact length_filter_lt ‹_›

theorem fresh_not_mem (taken : List String) (name : String) : fresh taken name ∉ taken := by
  fun_induction fresh taken name with
  | case1 name h ih => exact ih
  | case2 name h => exact h

/-- Gives each name that has no variable yet one that is not taken. -/
def assign (taken : List String) : List String → List (String × String) → List (String × String)
  | [], table => table
  | n :: ns, table =>
    if (table.lookup n).isSome then assign taken ns table
    else
      let v := fresh taken (Naming.localName n)
      assign (v :: taken) ns (table ++ [(n, v)])

/-- Names that a mapper uses for itself, and those of all mappers. -/
def reserved (s : Service) : List String :=
  ["dto", "obj", "__rest__", "__defined__", "Object", "undefined"] ++ Helper.all.map Helper.name ++
    (s.types.map (·.name) ++ s.unions.map (·.name)).flatMap fun n => Role.all.map (mapperName n)

def table (s : Service) (names : List String) : List (String × String) :=
  assign (reserved s) names []

def variableOf (t : List (String × String)) (name : String) : String :=
  (t.lookup name).getD (Naming.localName name)

end DtoGen.Locals
