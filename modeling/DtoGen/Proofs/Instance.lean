import DtoGen.Discrimination
import DtoGen.Proofs.Datum
import DtoGen.Types.Value

namespace DtoGen

/-- The members of an object, as a finite map from keys to values. -/
abbrev Members := List (String × Datum)

namespace Members

def has (x : Members) (key : String) : Bool := (x.lookup key).isSome

theorem has_iff {x : Members} {k : String} : x.has k = true ↔ ∃ d, x.lookup k = some d := by
  rw [has, Option.isSome_iff_exists]

def ofKeys (ks : List String) : Members := ks.map fun k => (k, .null)

theorem has_ofKeys {ks : List String} {k : String} : (ofKeys ks).has k = true ↔ k ∈ ks := by
  simp [has, ofKeys, List.lookup_isSome_iff]

end Members

namespace TypeDecl

theorem mem_requiredNames {t : TypeDecl} {n : String} :
    n ∈ t.requiredNames ↔ ∃ p ∈ t.properties, p.value.isRequired = true ∧ p.name = n := by
  simp [requiredNames, and_assoc]

theorem declares_iff {t : TypeDecl} {n : String} :
    t.declares n = true ↔ ∃ p ∈ t.properties, p.name = n := by
  simp [declares]

/-- The keys are those of a record: all that it requires, and nothing undeclared unless it has a map
clause. -/
structure Shaped (t : TypeDecl) (f : Facet) (x : Members) : Prop where
  required : ∀ n ∈ t.requiredNames, x.has (f.memberName n) = true
  declared : t.mapClause = none → ∀ k, x.has k = true → ∃ p ∈ t.properties, f.memberName p.name = k

theorem shaped_ofKeys {t : TypeDecl} {f : Facet} (more : List String)
    (h : t.mapClause = none → more = []) :
    t.Shaped f (.ofKeys (t.properties.map (fun p => f.memberName p.name) ++ more)) where
  required n hn := by
    obtain ⟨p, hp, -, rfl⟩ := mem_requiredNames.1 hn
    exact Members.has_ofKeys.2 (List.mem_append_left _ (List.mem_map_of_mem hp))
  declared hc k hk := by
    rw [Members.has_ofKeys, h hc, List.append_nil] at hk
    exact List.mem_map.1 hk

end TypeDecl

/-- What may stand for a value narrowed to a constant: the constant, or an array of it, or null. -/
def Value.Holds (v : Value) (c : Literal) (d : Datum) : Prop :=
  (v.isNullable = true ∧ d = .null) ∨
    if v.isArray then ∃ items, d = .array items ∧ ∀ i ∈ items, i = c.datum else d = c.datum

/-- An object on the wire with the keys of a record and its constants. -/
structure TypeDecl.Instance (t : TypeDecl) (x : Members) : Prop extends t.Shaped .wire x where
  constants : ∀ p ∈ t.properties, ∀ c, p.value.constant? = some c →
    ∀ d, x.lookup p.name = some d → p.value.Holds c d

end DtoGen
