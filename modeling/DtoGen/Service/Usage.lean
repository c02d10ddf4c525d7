import DtoGen.Closure
import DtoGen.Service.Index
import DtoGen.Text.Blank

namespace DtoGen

def sortByName {α : Type} (nameOf : α → String) (as : List α) : List α :=
  as.mergeSort fun a b => Text.le (nameOf a) (nameOf b)

theorem sortByName_perm {α : Type} (nameOf : α → String) (as : List α) :
    (sortByName nameOf as).Perm as :=
  List.mergeSort_perm _ _

@[simp] theorem mem_sortByName {α : Type} {nameOf : α → String} {as : List α} {a : α} :
    a ∈ sortByName nameOf as ↔ a ∈ as :=
  List.mem_mergeSort

namespace TypeDecl

def values (t : TypeDecl) : List Value :=
  t.properties.map (·.value) ++
    match t.mapClause with
    | some m => [m.key, m.value]
    | none => []

end TypeDecl

namespace Service

def successors (s : Service) (name : String) : List String :=
  match s.resolveName name with
  | .type t => t.values.filterMap Value.name?
  | .union u => u.members.filterMap Value.name?
  | _ => []

def declaredNames (s : Service) : List String :=
  (s.types.map (·.name) ++ s.unions.map (·.name)).eraseDups

def reached (s : Service) (roots : List Value) : List String :=
  closure s.successors s.declaredNames (roots.filterMap Value.name?)

def reachedTypes (s : Service) (roots : List Value) : List TypeDecl :=
  sortByName TypeDecl.name ((s.reached roots).filterMap fun n =>
    match s.resolveName n with
    | .type t => some t
    | _ => none)

def reachedUnions (s : Service) (roots : List Value) : List UnionDecl :=
  sortByName UnionDecl.name ((s.reached roots).filterMap fun n =>
    match s.resolveName n with
    | .union u => some u
    | _ => none)

def inputs (s : Service) : List Value := s.methods.flatMap fun m => m.parameters.map (·.value)

def outputs (s : Service) : List Value := s.methods.filterMap (·.returns)

def sortedTypes (s : Service) : List TypeDecl := sortByName TypeDecl.name s.types

def sortedUnions (s : Service) : List UnionDecl := sortByName UnionDecl.name s.unions

end Service

end DtoGen
