namespace DtoGen.Assoc

variable {α : Type}

/-- Sets a key: in place if it is there, at the end if not. -/
def put (key : String) (value : α) : List (String × α) → List (String × α)
  | [] => [(key, value)]
  | (k, v) :: rest => if k = key then (k, value) :: rest else (k, v) :: put key value rest

def ofList (pairs : List (String × α)) : List (String × α) :=
  pairs.foldl (fun t p => put p.1 p.2 t) []

end DtoGen.Assoc
