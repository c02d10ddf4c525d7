import DtoGen.Proofs.Clauses
import DtoGen.Proofs.Execution

namespace DtoGen

namespace Connective

def combine : Connective → List Bool → Bool
  | .all, bs => bs.all id
  | .any, bs => bs.any id

variable {k : Connective} {as bs : List Bool}

theorem combine_eq_neutral_iff : k.combine bs = k.neutral ↔ ∀ b ∈ bs, b = k.neutral := by
  cases k <;> simp [combine, neutral]

theorem combine_congr (h : (∀ a ∈ as, a = k.neutral) ↔ ∀ b ∈ bs, b = k.neutral) :
    k.combine as = k.combine bs := by
  rw [← combine_eq_neutral_iff, ← combine_eq_neutral_iff] at h
  revert h
  cases k.combine as <;> cases k.combine bs <;> cases k.neutral <;> simp

@[simp] theorem combine_nil : k.combine [] = k.neutral := by
  cases k <;> rfl

@[simp] theorem combine_singleton (b : Bool) : k.combine [b] = b := by
  cases k <;> simp [combine]

theorem combine_cons (b : Bool) :
    k.combine (b :: bs) = if b = k.neutral then k.combine bs else b := by
  cases k <;> cases b <;> simp [combine, neutral]

theorem combine_append : k.combine (as ++ bs) = k.combine [k.combine as, k.combine bs] := by
  refine combine_congr ?_
  simp only [List.forall_mem_append, List.forall_mem_cons, combine_eq_neutral_iff]
  simp

theorem combine_cons_eq (b : Bool) : k.combine (b :: bs) = k.combine [b, k.combine bs] := by
  rw [← List.singleton_append, combine_append, combine_singleton]

end Connective

namespace Condition

variable {α : Type} {v : α → Bool}

mutual
/-- The truth value of a condition by those of its tests. -/
def holds (v : α → Bool) : Condition α → Bool
  | .test a => v a
  | .join k cs => k.combine (holdsOf v cs)
def holdsOf (v : α → Bool) : List (Condition α) → List Bool
  | [] => []
  | c :: cs => c.holds v :: holdsOf v cs
end

theorem holdsOf_eq (cs : List (Condition α)) : holdsOf v cs = cs.map (holds v) := by
  induction cs with
  | nil => rfl
  | cons c cs ih => rw [holdsOf, ih, List.map_cons]

theorem holds_join (k : Connective) (cs : List (Condition α)) :
    (join k cs).holds v = k.combine (cs.map (holds v)) := by
  rw [holds, holdsOf_eq]

mutual
/-- Tests that all give a truth value are run to the truth value of the condition. -/
theorem run_some : ∀ c : Condition α, c.run (fun a => some (v a)) = some (c.holds v)
  | .test _ => rfl
  | .join k cs => runClauses_some k cs
theorem runClauses_some (k : Connective) : ∀ cs : List (Condition α),
    runClauses (fun a => some (v a)) k cs = some (k.combine (holdsOf v cs))
  | [] => by rw [runClauses, holdsOf, Connective.combine_nil]
  | c :: cs => by
    rw [runClauses, run_some c, Option.bind_some, runClauses_some k cs, holdsOf,
      Connective.combine_cons]
    split_ifs <;> rfl
end

theorem combine_clausesOf (k : Connective) (c : Condition α) :
    k.combine ((c.clausesOf k).map (holds v)) = c.holds v := by
  cases c with
  | test a => exact Connective.combine_singleton _
  | join j cs =>
    rw [clausesOf]
    split_ifs with hjk
    · rw [hjk, holds_join]
    · exact Connective.combine_singleton _

mutual
theorem holds_flatten : ∀ c : Condition α, c.flatten.holds v = c.holds v
  | .test _ => rfl
  | .join k cs => by rw [flatten, holds_join, holds_join, combine_flattenClauses k cs]
theorem combine_flattenClauses (k : Connective) : ∀ cs : List (Condition α),
    k.combine ((flattenClauses k cs).map (holds v)) = k.combine (cs.map (holds v))
  | [] => rfl
  | c :: cs => by
    rw [flattenClauses, List.map_append, Connective.combine_append, combine_clausesOf,
      holds_flatten c, combine_flattenClauses k cs, List.map_cons, ← Connective.combine_cons_eq]
end

end Condition

end DtoGen
