import DtoGen.Mapping.Union
import DtoGen.Proofs.Clauses
import DtoGen.Proofs.Presence
import DtoGen.Proofs.Reading

namespace DtoGen

/-- What generated code relies on: the mappers by their names, and the functions on dates. -/
structure Runtime where
  mapper : String → Datum → Datum
  parseDate : Datum → Datum
  formatDate : (dateOnly : Bool) → Datum → Datum
  isDateText : DateFormat → String → Bool

namespace Datum

def kind? : Datum → Option ValueKind
  | .undefined => none
  | .bool _ => some .boolean
  | .number _ => some .number
  | .string _ => some .string
  | .null | .date _ | .array _ | .object _ => some .object

def isArray : Datum → Bool
  | .array _ => true
  | _ => false

def isNull : Datum → Bool
  | .null => true
  | _ => false

def isDate : Datum → Bool
  | .date _ => true
  | _ => false

def items? : Datum → Option (List Datum)
  | .array items => some items
  | _ => none

/-- The members of an object. An array has its items under their positions, and its length. -/
def members? : Datum → Option Members
  | .object x => some x
  | .array items =>
    some (("length", .number (.exact items.length)) ::
      items.zipIdx.map fun (d, i) => (toString i, d))
  | .date _ => some []
  | _ => none

end Datum

/-- What stands under a key; reading one that is not there is no error. -/
def Members.read (x : Members) (key : String) : Datum := (x.lookup key).getD .undefined

theorem Binary64.ofRatio_ne_nan (negative : Bool) (num den : Nat) :
    ofRatio negative num den ≠ .nan := by
  unfold ofRatio
  split
  · simp
  · dsimp only
    split <;> split <;> simp

theorem Datum.eq_of_strictEq {a b : Datum} (h : a.strictEq b = true) : a = b := by
  cases a <;> cases b <;> simp_all [strictEq]
  case number.number x y => cases x <;> simp_all [Number.strictEq]

namespace Literal

/-- The value of a constant at run time, where numbers are doubles. -/
def value : Literal → Datum
  | .int n => .number (Binary64.ofRatio (n < 0) n.natAbs 1).toNumber
  | c => c.datum

theorem value_ne_undefined (c : Literal) : c.value ≠ .undefined := by
  cases c <;> simp [value, datum]

theorem value_ne_object (c : Literal) {x : Members} : c.value ≠ .object x := by
  cases c <;> simp [value, datum]

/-- What is read where a constant was written. Numbers that are not finite have no literal. -/
def denoted? : Literal → Option Datum
  | .float .nan | .float (.infinity _) => none
  | .string s => (Naming.keyName? (text (.string s))).map .string
  | c => some c.value

def Faithful (c : Literal) : Prop := c.denoted? = some c.datum

theorem value_eq_of_denoted? {c : Literal} {d : Datum} (h : c.denoted? = some d) : c.value = d := by
  cases c with
  | float x => cases x <;> simp_all [denoted?]
  | string s =>
    rw [denoted?, text, Naming.keyName?_quote] at h
    obtain ⟨s', hs, rfl⟩ := Option.map_eq_some_iff.1 h
    split_ifs at hs
    exact congrArg Datum.string (Option.some.inj hs)
  | _ => exact Option.some.inj h

theorem strictEq_self_of_denoted? {c : Literal} {d : Datum} (h : c.denoted? = some d) :
    d.strictEq d = true := by
  obtain rfl := value_eq_of_denoted? h
  cases c with
  | int n =>
    have hne := Binary64.ofRatio_ne_nan (n < 0) n.natAbs 1
    unfold value
    cases hx : Binary64.ofRatio (n < 0) n.natAbs 1 <;>
      simp_all [Datum.strictEq, Binary64.toNumber, Number.strictEq]
  | float x =>
    cases x with
    | nan => simp [denoted?] at h
    | infinity _ => simp [denoted?] at h
    | finite s m e => simp [value, datum, Datum.strictEq, Binary64.toNumber, Number.strictEq]
  | _ => simp [value, datum, Datum.strictEq]

end Literal

/-- What a test looks at. Items are looked for only in arrays. -/
def Subject.read (v : Datum) : Subject → Option Datum
  | .whole => some v
  | .first => v.items?.map fun items => items.headD .undefined

/-- The truth of a test, unless it raises an error. Keys and constants are those that are read where
they were written; a test that cannot be read at all counts as an error. -/
def Test.run (env : Runtime) (v : Datum) : Test → Option Bool
  | .isArray => some v.isArray
  | .isNoArray => some !v.isArray
  | .isEmpty => v.items?.map List.isEmpty
  | .hasKind x k => (x.read v).map fun d => d.kind? = some k
  | .isNull x => (x.read v).map Datum.isNull
  | .isNotNull x => (x.read v).map fun d => !d.isNull
  | .isDateObject x => (x.read v).map Datum.isDate
  | .isDateText x f => (x.read v).bind fun
    | .string s => some (env.isDateText f s)
    | _ => none
  | .hasMember x n => (x.read v).bind fun d => d.members?.bind fun ms =>
    (Naming.keyName? (Text.quote n)).map ms.has
  | .memberIs x n l => (x.read v).bind fun d => d.members?.bind fun ms =>
    (Naming.accessName? (Naming.accessor n)).bind fun k =>
      l.denoted?.map fun c => (ms.read k).strictEq c
  | .always => some true

/-- A test whose key and constant are read back as they are. -/
def Test.Faithful : Test → Prop
  | .hasMember _ n => '\r' ∉ n.toList
  | .memberIs _ n l => Naming.Faithful n ∧ l.Faithful
  | _ => True

/-- What a connective without clauses comes to; a clause with the other value decides. -/
def Connective.neutral : Connective → Bool
  | .all => true
  | .any => false

namespace Condition

variable {α : Type}

mutual
def run (f : α → Option Bool) : Condition α → Option Bool
  | .test a => f a
  | .join k cs => runClauses f k cs
def runClauses (f : α → Option Bool) (k : Connective) : List (Condition α) → Option Bool
  | [] => some k.neutral
  | c :: cs => (c.run f).bind fun b => if b = k.neutral then runClauses f k cs else some b
end

end Condition

namespace Block

variable {α σ : Type}

mutual
def enter (f : α → Option Bool) : Block α σ → Option (List σ)
  | .leaf _ body => some body
  | .nested _ bs => run f bs
def run (f : α → Option Bool) : List (Block α σ) → Option (List σ)
  | [] => some []
  -- the last block is the `else`: its condition is not run
  | [b] => b.enter f
  | b :: c :: bs => (b.condition.run f).bind fun h => if h then b.enter f else run f (c :: bs)
end

mutual
def writtenInside : Block α σ → List α
  | .leaf _ _ => []
  | .nested _ bs => written bs
/-- The tests that are written for a chain, where the last block has no condition. -/
def written : List (Block α σ) → List α
  | [] => []
  | [b] => b.writtenInside
  | b :: c :: bs => b.condition.tests ++ b.writtenInside ++ written (c :: bs)
end

end Block

/-- What a mapper gives back; a merged object is given by its fields. -/
inductive Mapped where
  | returned (d : Datum)
  | merged (fields : List Field)

def Change.run (env : Runtime) : Change → Datum → Datum
  | .identity, d => d
  | .parseDate, d => env.parseDate d
  | .formatDate dateOnly, d => env.formatDate dateOnly d
  | .mapper name, d => env.mapper name d

def Conversion.run (env : Runtime) (c : Conversion) (v : Datum) : Option Datum :=
  if c.each then v.items?.map fun items => .array (items.map (c.change.run env))
  else some (c.change.run env v)

def Action.run (env : Runtime) (v : Datum) : Action → Option Mapped
  | .same | .unchecked => some (.returned v)
  | .empty => some (.returned (.array []))
  | .convert c => (c.run env v).map .returned
  | .merge fields => some (.merged fields)

/-- The place of the first case with a given value. A constant that cannot be read ends the search. -/
def Case.taken? (v : Datum) : List Case → Option Nat
  | [] => none
  | c :: cs => c.constant.denoted?.bind fun d =>
    if v.strictEq d then some 0 else (taken? v cs).map (· + 1)

namespace UnionBody

def taken? (x : Members) : UnionBody → Option Nat
  | .switch d cases =>
    (Naming.accessName? (Naming.accessor d)).bind fun k => Case.taken? (x.read k) cases
  | .chain _ => none

/-- The statements that run. A switch without a case for the value raises an error. -/
def select (env : Runtime) (v : Datum) : UnionBody → Option (List Action)
  | .switch d cases => v.members?.bind fun x => ((switch d cases).taken? x).bind fun i =>
    cases[i]?.map fun c => [.convert ⟨.mapper c.mapper, false⟩]
  | .chain bs => Block.run (Test.run env v) bs

def writtenTests : UnionBody → List Test
  | .switch _ _ => []
  | .chain bs => Block.written bs

end UnionBody

def UnionMapper.run (env : Runtime) (m : UnionMapper) (v : Datum) : Option Mapped :=
  (m.body.select env v).bind fun
    | [] => some (.returned .undefined)
    | a :: _ => a.run env v

namespace Condition

variable {α : Type} {f : α → Option Bool}

variable {β : Type} {t : β → α} {g : β → Bool} {bs : List β}

theorem run_tests (k : Connective) (h : ∀ b ∈ bs, f (t b) = some (g b)) :
    run f (.join k (bs.map fun b => .test (t b))) =
      some (if bs.all (g · == k.neutral) then k.neutral else !k.neutral) := by
  rw [run]
  induction bs with
  | nil => rfl
  | cons b bs ih =>
    have hrest := ih fun c hc => h c (List.mem_cons_of_mem b hc)
    rw [List.map_cons, runClauses, run, h b (by simp), Option.bind_some, hrest, List.all_cons]
    by_cases hb : g b = k.neutral
    · simp [hb]
    · have hother : g b = !k.neutral := Bool.eq_not_of_ne hb
      simp [hother]

theorem run_all_tests (h : ∀ b ∈ bs, f (t b) = some (g b)) :
    run f (.join .all (bs.map fun b => .test (t b))) = some (bs.all g) := by
  rw [run_tests .all h]
  cases hall : bs.all g <;> simp_all [Connective.neutral]

variable {ok : β → Bool}

/-- Tests of which some raise an error are all true just if none does. -/
theorem run_all_eq_true_iff (h : ∀ b ∈ bs, f (t b) = if ok b then some (g b) else none) :
    run f (.join .all (bs.map fun b => .test (t b))) = some true ↔
      ∀ b ∈ bs, ok b = true ∧ g b = true := by
  rw [run]
  induction bs with
  | nil => simp [runClauses, Connective.neutral]
  | cons b bs ih =>
    rw [List.map_cons, runClauses, run, h b (by simp), List.forall_mem_cons,
      ← ih fun c hc => h c (List.mem_cons_of_mem b hc)]
    cases ok b <;> cases g b <;> simp [Connective.neutral]

/-- They come to false just if one of them is false before any raises an error. -/
theorem run_all_eq_false_iff (h : ∀ b ∈ bs, f (t b) = if ok b then some (g b) else none) :
    run f (.join .all (bs.map fun b => .test (t b))) = some false ↔
      ∃ b ∈ bs.takeWhile ok, g b = false := by
  rw [run]
  induction bs with
  | nil => simp [runClauses, Connective.neutral]
  | cons b bs ih =>
    have ih := ih fun c hc => h c (List.mem_cons_of_mem b hc)
    rw [List.map_cons, runClauses, run, h b (by simp), List.takeWhile_cons]
    cases hok : ok b <;> cases hg : g b <;> simp [Connective.neutral, ih, hg]

theorem run_any_tests (h : ∀ b ∈ bs, f (t b) = some (g b)) :
    run f (.join .any (bs.map fun b => .test (t b))) = some (bs.any g) := by
  rw [run_tests .any h]
  cases hany : bs.any g <;> simp_all [Connective.neutral]

end Condition

namespace Block

variable {α σ : Type} {f : α → Option Bool} {b : Block α σ} {as bs : List (Block α σ)}

theorem run_cons_true (h : b.condition.run f = some true) : run f (b :: bs) = b.enter f := by
  cases bs with
  | nil => rw [run]
  | cons c bs => simp [run, h]

/-- The condition counts only where another block follows. -/
theorem run_cons_of_true (h : bs ≠ [] → b.condition.run f = some true) :
    run f (b :: bs) = b.enter f := by
  cases bs with
  | nil => rw [run]
  | cons c bs => exact run_cons_true (h (by simp))

theorem run_cons_false (h : b.condition.run f = some false) (hne : bs ≠ []) :
    run f (b :: bs) = run f bs := by
  obtain ⟨c, bs, rfl⟩ := List.exists_cons_of_ne_nil hne
  simp [run, h]

/-- Blocks whose conditions are false are passed over, but not the last one. -/
theorem run_append_of_false (h : ∀ a ∈ as, a.condition.run f = some false) (hne : bs ≠ []) :
    run f (as ++ bs) = run f bs := by
  induction as with
  | nil => rfl
  | cons a as ih =>
    rw [List.cons_append, run_cons_false (h a (by simp)) (by simp [hne])]
    exact ih fun b hb => h b (List.mem_cons_of_mem a hb)

theorem ne_nil_of_run {a : σ} {body : List σ} (h : run f bs = some (a :: body)) : bs ≠ [] := by
  rintro rfl
  simp [run] at h

theorem run_leaf (c : Condition α) (body : List σ) : run f [.leaf c body] = some body := by
  rw [run, enter]

theorem written_cons (hne : bs ≠ []) :
    written (b :: bs) = b.condition.tests ++ b.writtenInside ++ written bs := by
  obtain ⟨c, bs, rfl⟩ := List.exists_cons_of_ne_nil hne
  rw [written]

theorem written_subset_cons (b : Block α σ) (bs : List (Block α σ)) :
    written bs ⊆ written (b :: bs) := by
  cases bs with
  | nil => exact List.nil_subset _
  | cons c bs => exact List.subset_append_right _ _

theorem written_subset_append (as bs : List (Block α σ)) : written bs ⊆ written (as ++ bs) := by
  induction as with
  | nil => exact List.Subset.refl _
  | cons a as ih => exact List.Subset.trans ih (written_subset_cons a (as ++ bs))

theorem tests_subset_written (h : b ∈ as) (hne : bs ≠ []) :
    b.condition.tests ⊆ written (as ++ bs) := by
  induction as with
  | nil => cases h
  | cons a as ih =>
    rw [List.cons_append, written_cons (by simp [hne])]
    rcases List.mem_cons.1 h with rfl | h
    · exact List.subset_append_of_subset_left _ (List.subset_append_left _ _)
    · exact List.subset_append_of_subset_right _ (ih h)

theorem written_subset_of_nested {c : Condition α} (h : .nested c as ∈ bs) :
    written as ⊆ written bs := by
  induction bs with
  | nil => cases h
  | cons b bs ih =>
    rcases List.mem_cons.1 h with rfl | h
    · cases bs with
      | nil => rw [written, writtenInside]; exact List.Subset.refl _
      | cons d bs =>
        rw [written, writtenInside]
        exact List.subset_append_of_subset_left _ (List.subset_append_right _ _)
    · exact List.Subset.trans (ih h) (written_subset_cons b bs)

end Block

namespace Test

variable {env : Runtime} {v : Datum} {x : Subject} {ms : Members} {n : String} {l : Literal}

/-- A key that holds a carriage return cannot be written. -/
theorem run_hasMember (h : x.read v = some (.object ms)) (n : String) :
    run env v (.hasMember x n) = if '\r' ∉ n.toList then some (ms.has n) else none := by
  by_cases hline : '\r' ∈ n.toList <;> simp [run, h, Datum.members?, Naming.keyName?_quote, hline]

theorem run_hasMember_of_faithful (h : x.read v = some (.object ms))
    (hf : (hasMember x n).Faithful) : run env v (.hasMember x n) = some (ms.has n) := by
  have hline : '\r' ∉ n.toList := hf
  rw [run_hasMember h, if_pos hline]

theorem run_memberIs (h : x.read v = some (.object ms)) (hf : (memberIs x n l).Faithful) :
    run env v (.memberIs x n l) = some ((ms.read n).strictEq l.datum) := by
  obtain ⟨hn, hl⟩ := hf
  rw [Literal.Faithful] at hl
  simp [run, h, Datum.members?, Naming.accessName?_accessor, Naming.denoted?_of_faithful hn, hl]

end Test

namespace Mark

/-- The condition for a mark runs without an error on an object, and finds the mark, if it is read back
as it is. -/
theorem condition_run {env : Runtime} {v : Datum} {x : Subject} {ms : Members}
    (h : x.read v = some (.object ms)) {f : Facet} {m : Mark}
    (hf : ∀ t ∈ (m.condition f x).tests, t.Faithful) :
    (m.condition f x).run (Test.run env v) = some (m.holds f ms) := by
  cases m with
  | property n =>
    rw [condition, Condition.run]
    exact Test.run_hasMember_of_faithful h (hf _ (by simp [condition, Condition.tests]))
  | constant n l =>
    obtain ⟨hhasf, hisf⟩ : (Test.hasMember x (f.memberName n)).Faithful ∧
        (Test.memberIs x (f.memberName n) l).Faithful := by
      simpa [condition, Condition.tests, Condition.testsOf] using hf
    have hhas : Test.run env v (.hasMember x (f.memberName n)) = _ :=
      Test.run_hasMember_of_faithful h hhasf
    have his : Test.run env v (.memberIs x (f.memberName n) l) = _ := Test.run_memberIs h hisf
    -- the value is looked at only where the key is there
    rw [condition, Condition.run, Condition.runClauses, Condition.run, hhas]
    cases hl : ms.lookup (f.memberName n) with
    | none => simp [Members.has, hl, Connective.neutral, holds]
    | some d =>
      simp only [Members.has, hl, Option.isSome_some, Option.bind_some, Connective.neutral, if_true]
      rw [Condition.runClauses, Condition.run, his]
      cases hd : d.strictEq l.datum <;>
        simp [Members.read, hl, hd, holds, Connective.neutral, Condition.runClauses]
  | properties ns e =>
    refine Condition.run_all_tests fun n hn => Test.run_hasMember_of_faithful h (hf _ ?_)
    rw [condition, Condition.tests, Condition.testsOf_map]
    exact List.mem_map_of_mem hn

theorem condition_run_of_presence {env : Runtime} {v : Datum} {x : Subject} {f : Facet} {m : Mark}
    {names : List String} (h : m.presence? = some names) :
    (m.condition f x).run (Test.run env v) =
      Condition.run (Test.run env v)
        (.join .all (names.map fun n => .test (.hasMember x (f.memberName n)))) := by
  cases m with
  | property n =>
    obtain rfl := Option.some.inj h
    rw [condition, List.map_singleton, Condition.run, Condition.run, Condition.runClauses,
      Condition.run, Condition.runClauses]
    cases Test.run env v (.hasMember x (f.memberName n)) with
    | none => rfl
    | some b => cases b <;> rfl
  | constant n c => simp [presence?] at h
  | properties ns e =>
    obtain rfl := Option.some.inj h
    rfl

end Mark

end DtoGen
