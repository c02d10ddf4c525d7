import DtoGen.Assoc
import DtoGen.Notice
import DtoGen.Service.Index

namespace DtoGen

/-- A test that holds of every instance of one record and of no instance of the others. -/
inductive Mark where
  | property (name : String)
  | constant (name : String) (value : Literal)
  | properties (names : List String) (exact : Bool)
deriving DecidableEq, Repr

namespace TypeDecl

/-- The names of the properties that are always present, in order, with repetitions. -/
def requiredNames (t : TypeDecl) : List String :=
  (t.properties.filter (·.value.isRequired)).map (·.name)

def declares (t : TypeDecl) (name : String) : Bool := t.properties.any (·.name == name)

def constantsOf (ps : List Property) : List (String × Literal) :=
  Assoc.ofList (ps.filterMap fun p => p.value.constant?.map fun l => (p.name, l))

def requiredConstants (t : TypeDecl) : List (String × Literal) :=
  constantsOf (t.properties.filter (·.value.isRequired))

def constants (t : TypeDecl) : List (String × Literal) := constantsOf t.properties

end TypeDecl

namespace Discrimination

/-- Up to this many names the smallest set is found by trying all of them. -/
def exactSearchLimit : Nat := 16

def selections {α : Type} : (k : Nat) → List α → List (List α)
  | 0, _ => [[]]
  | _ + 1, [] => []
  | k + 1, x :: xs => (selections k xs).map (x :: ·) ++ selections (k + 1) xs

def hitsAll (sets : List (List String)) (choice : List String) : Bool :=
  sets.all fun s => choice.any s.contains

def smallestHit (names : List String) (sets : List (List String)) : List String :=
  ((List.range names.length).findSome? fun k =>
    (selections (k + 1) names).find? (hitsAll sets)).getD []

def score (sets : List (List String)) (name : String) : Nat := sets.countP (·.contains name)

/-- The better of a candidate and a name; a tie goes to the candidate. -/
def better (sets : List (List String)) (best : Option String) (name : String) : Option String :=
  match best with
  | none => if 0 < score sets name then some name else none
  | some b => if score sets b < score sets name then some name else some b

/-- The first name that meets most sets, if any meets one. -/
def best? (names : List String) (sets : List (List String)) : Option String :=
  names.foldl (better sets) none

theorem score_pos_of_foldl {sets : List (List String)} {names : List String} {b : Option String}
    {n : String} (hb : ∀ m, b = some m → 0 < score sets m)
    (h : names.foldl (better sets) b = some n) : 0 < score sets n := by
  induction names generalizing b with
  | nil => exact hb n h
  | cons x xs ih =>
    refine ih ?_ h
    intro m hm
    cases b with
    | none =>
      by_cases hx : 0 < score sets x <;> simp [better, hx] at hm
      exact hm ▸ hx
    | some c =>
      have hc := hb c rfl
      by_cases hx : score sets c < score sets x <;> simp [better, hx] at hm
      · exact hm ▸ Nat.lt_trans hc hx
      · exact hm ▸ hc

def unmet (name : String) (sets : List (List String)) : List (List String) :=
  sets.filter fun s => !s.contains name

theorem length_unmet_lt {names : List String} {sets : List (List String)} {n : String}
    (h : best? names sets = some n) : (unmet n sets).length < sets.length := by
  have hs : 0 < score sets n := score_pos_of_foldl (by simp) h
  obtain ⟨s, hs, hn⟩ := List.countP_pos_iff.1 hs
  exact List.length_filter_lt_length_iff_exists.2 ⟨s, hs, by simpa using hn⟩

/-- Names chosen one by one, each meeting most of the sets still unmet, unless no name meets one. -/
def greedyChoice (names : List String) (sets : List (List String)) : Option (List String) :=
  if sets.isEmpty then some []
  else
    match h : best? names sets with
    | none => none
    | some n =>
      have := length_unmet_lt h
      (greedyChoice names (unmet n sets)).map (n :: ·)
termination_by sets.length

/-- The greedy choice in the order in which the names last occur. -/
def greedyHit (names : List String) (sets : List (List String)) : List String :=
  match greedyChoice names sets with
  | none => []
  | some chosen => (names.reverse.eraseDups.reverse).filter chosen.contains

/-- A selection of names that no set of `others` contains, smallest if there are few names; empty if
some set contains them all. -/
def distinguishingSubset (names : List String) (others : List (List String)) : List String :=
  let complements := others.map fun o => names.filter fun n => !o.contains n
  if complements.any List.isEmpty then []
  else if complements.isEmpty then names.take 1
  else if names.length ≤ exactSearchLimit then smallestHit names complements
  else greedyHit names complements

def records (s : Service) (others : List String) : List TypeDecl := others.filterMap s.type?

def isOpen (t : TypeDecl) : Bool := t.mapClause.isSome

def propertyMarks (t : TypeDecl) (others : List TypeDecl) : List Mark :=
  if others.any isOpen then []
  else (t.requiredNames.filter fun n => !others.any (·.declares n)).map .property

/-- Whether a record is ruled out by a constant under a name: it lacks the name, or holds another
constant there. -/
def excludedBy (name : String) (value : Literal) (other : TypeDecl) : Bool :=
  !other.declares name ||
    match other.constants.lookup name with
    | some l => !value.strictEq l
    | none => false

def constantMarks (t : TypeDecl) (others : List TypeDecl) : List Mark :=
  if others.any isOpen then []
  else (t.requiredConstants.filter fun c => others.all (excludedBy c.1 c.2)).map fun c =>
    .constant c.1 c.2

def isExact (t : TypeDecl) : Bool := t.requiredNames.length ≤ exactSearchLimit

def setMarks (t : TypeDecl) (others : List TypeDecl) : List Mark :=
  let names := t.requiredNames
  let sets := others.map fun o => if isOpen o then names else o.properties.map (·.name)
  match distinguishingSubset names sets with
  | [] => []
  | subset => [.properties subset (isExact t)]

/-- The marks of a member among others: single properties, then constants, then a set of properties.
A member that is no record has none. -/
def marks (s : Service) (member : String) (others : List String) : List Mark :=
  match s.type? member with
  | none => []
  | some t =>
    let os := records s others
    propertyMarks t os ++ constantMarks t os ++ setMarks t os

/-- A search that may miss the smallest set is announced. -/
def notices (s : Service) (member : String) : List Notice :=
  match s.type? member with
  | none => []
  | some t => if isExact t then [] else [.greedySearch t.name t.requiredNames.length]

end Discrimination

end DtoGen
