import DtoGen.Proofs.RecordBranches

namespace DtoGen

/-- The values of a primitive on the wire, where dates are text. -/
def Primitive.Admits (d : Datum) : Primitive → Prop
  | .string | .date | .dateTime => ∃ s, d = .string s
  | .number | .integer | .long | .float | .double => ∃ x, d = .number x
  | .boolean => ∃ b, d = .bool b
  | .null => d = .null
  | .binary | .untyped => True

def Test.accepts (d : Datum) : Test → Bool
  | .hasKind _ k => d.kind? = some k
  | .isNull _ => d.isNull
  | _ => false

namespace MemberKinds

variable {k : MemberKinds} {x : Subject} {env : Runtime} {v d : Datum}

theorem primitiveBranches_eq (k : MemberKinds) (x : Subject) :
    k.primitiveBranches x =
      if (k.primitiveTests x).isEmpty then []
      else [.leaf (.join .any ((k.primitiveTests x).map .test)) [.same]] := by
  unfold primitiveBranches
  split <;> simp_all

theorem run_primitiveTest (h : x.read v = some d) {t : Test} (ht : t ∈ k.primitiveTests x) :
    Test.run env v t = some (t.accepts d) := by
  simp only [primitiveTests, List.mem_append] at ht
  rcases ht with ((ht | ht) | ht) | ht <;> split_ifs at ht
  all_goals simp_all [Test.run, Test.accepts]

theorem primitiveCondition_run (h : x.read v = some d) :
    Condition.run (Test.run env v) (.join .any ((k.primitiveTests x).map .test)) =
      some ((k.primitiveTests x).any (·.accepts d)) :=
  Condition.run_any_tests fun _ ht => run_primitiveTest h ht

/-- Each primitive that is told by its kind has a test, which its values pass. -/
theorem exists_primitiveTest {p : Primitive} (hp : p ∈ k.primitives) (hdate : p.isDate = false)
    (hbinary : p ≠ .binary) (huntyped : p ≠ .untyped) (x : Subject) :
    ∃ t ∈ k.primitiveTests x, ∀ d, p.Admits d → t.accepts d = true := by
  -- all kinds of numbers share one test
  have hnumeric : p.isNumeric = true → ∃ t ∈ k.primitiveTests x,
      ∀ d, (∃ y, d = .number y) → t.accepts d = true := by
    intro hn
    have hany : k.primitives.any Primitive.isNumeric = true := List.any_eq_true.2 ⟨p, hp, hn⟩
    refine ⟨.hasKind x .number, by simp [primitiveTests, hany], ?_⟩
    rintro d ⟨y, rfl⟩
    rfl
  cases p with
  | string =>
    refine ⟨.hasKind x .string, by simp [primitiveTests, hp], ?_⟩
    rintro d ⟨s, rfl⟩
    rfl
  | boolean =>
    refine ⟨.hasKind x .boolean, by simp [primitiveTests, hp], ?_⟩
    rintro d ⟨b, rfl⟩
    rfl
  | null =>
    refine ⟨.isNull x, by simp [primitiveTests, hp], ?_⟩
    rintro d rfl
    rfl
  | number | integer | long | float | double => exact hnumeric rfl
  | date | dateTime => cases hdate
  | binary => exact absurd rfl hbinary
  | untyped => exact absurd rfl huntyped

theorem primitiveBranches_object {ms : Members} (h : x.read v = some (.object ms)) {b : Branching}
    (hb : b ∈ k.primitiveBranches x) : b.condition.run (Test.run env v) = some false := by
  rw [primitiveBranches_eq] at hb
  split_ifs at hb
  · simp at hb
  · obtain rfl := List.mem_singleton.1 hb
    rw [Block.condition, primitiveCondition_run h]
    congr 1
    rw [List.any_eq_false]
    intro t ht
    simp only [primitiveTests, List.mem_append] at ht
    rcases ht with ((ht | ht) | ht) | ht <;> split_ifs at ht
    all_goals simp_all [Test.accepts, Datum.kind?, Datum.isNull]

/-- A value that some test for a primitive accepts is given back as it is. -/
theorem run_primitiveBranches (h : x.read v = some d) {t : Test} (ht : t ∈ k.primitiveTests x)
    (hacc : t.accepts d = true) (rest : List Branching) :
    Block.run (Test.run env v) (k.primitiveBranches x ++ rest) = some [.same] := by
  have hne : (k.primitiveTests x).isEmpty = false := by
    rw [List.isEmpty_eq_false_iff]
    exact List.ne_nil_of_mem ht
  rw [primitiveBranches_eq, hne, if_neg (by simp), List.singleton_append, Block.run_cons_true,
    Block.enter]
  rw [Block.condition, primitiveCondition_run h]
  exact congrArg some (List.any_eq_true.2 ⟨t, ht, hacc⟩)

end MemberKinds

namespace Service

/-- The instances of what a member refers to. -/
inductive Admits (s : Service) : Base → Datum → Prop where
  | primitive {p : Primitive} {c : Option Literal} {d : Datum} (hp : p.Admits d)
    (hc : ∀ l, c = some l → d = l.datum) : Admits s (.primitive p c) d
  | enum {n : String} {e : EnumDecl} {m : EnumMember} (he : s.resolveName n = .enum e)
    (hm : m ∈ e.members) : Admits s (.named n) (.string m.content)
  | record {n : String} {t : TypeDecl} {x : Members} (ht : s.resolveName n = .type t)
    (hx : t.Instance x) : Admits s (.named n) (.object x)

/-- The instances of a member: those of what it refers to, an array of them, and possibly nothing or
null. -/
def Carries (s : Service) (v : Value) (d : Datum) : Prop :=
  (v.isOptional = true ∧ d = .undefined) ∨ (v.isNullable = true ∧ d = .null) ∨
    if v.isArray then ∃ items, d = .array items ∧ ∀ i ∈ items, s.Admits v.base i
    else s.Admits v.base d

/-- What is told by its kind alone: enums, and primitives other than dates and those of any kind. -/
inductive ByKind (s : Service) : Base → Prop where
  | primitive {p : Primitive} (c : Option Literal) (hdate : p.isDate = false)
    (hbinary : p ≠ .binary) (huntyped : p ≠ .untyped) : ByKind s (.primitive p c)
  | enum {n : String} {e : EnumDecl} (he : s.resolveName n = .enum e) : ByKind s (.named n)

/-- What is told by its kind, and records with plain constants. -/
inductive Tellable (s : Service) : Base → Prop where
  | kind {b : Base} (h : s.ByKind b) : Tellable s b
  | record {n : String} {t : TypeDecl} (ht : s.resolveName n = .type t)
    (hplain : t.PlainConstants) : Tellable s (.named n)

/-- A member that is always there and is told by its kind or by a mark. -/
structure TellableMember (s : Service) (v : Value) : Prop where
  required : v.isOptional = false
  notNull : v.isNullable = false
  base : s.Tellable v.base

section Kinds

variable {s : Service} {members : List Value}

theorem memberKinds_dates (h : ∀ v ∈ members, s.Tellable v.base) :
    (s.memberKinds members).dates = [] := by
  refine List.filterMap_eq_nil_iff.2 fun v hv => ?_
  have htell := h v hv
  generalize v.base = b at htell
  rcases htell with ⟨⟨_, hdate, _, _⟩ | _⟩ | _
  · simp [hdate]
  · rfl
  · rfl

theorem memberKinds_passes (h : ∀ v ∈ members, s.Tellable v.base) :
    (s.memberKinds members).passes = false := by
  have hunknown : (s.memberKinds members).hasUnknown = false := by
    refine List.any_eq_false.2 fun v hv => ?_
    have htell := h v hv
    unfold resolve
    generalize v.base = b at htell
    rcases htell with ⟨_ | ⟨he⟩⟩ | ⟨ht, _⟩ <;> simp_all
  have hkind : ∀ p ∈ (s.memberKinds members).primitives, p ≠ .binary ∧ p ≠ .untyped := by
    intro p hp
    obtain ⟨v, hv, hp⟩ := List.mem_filterMap.1 hp
    have htell := h v hv
    generalize v.base = b at htell hp
    rcases htell with ⟨⟨_, hdate, hbinary, huntyped⟩ | ⟨he⟩⟩ | ⟨ht, _⟩
    · obtain rfl : _ = p := by simpa [hdate] using hp
      exact ⟨hbinary, huntyped⟩
    · obtain rfl : _ = p := by simpa [he] using hp
      exact ⟨by simp, by simp⟩
    · simp [ht] at hp
  simp only [MemberKinds.passes, hunknown, Bool.false_or, Bool.or_eq_false_iff,
    List.contains_eq_mem, decide_eq_false_iff_not]
  exact ⟨fun hb => (hkind _ hb).1 rfl, fun hu => (hkind _ hu).2 rfl⟩

theorem ByKind.records_eq_nil {v : Value} (h : s.ByKind v.base) :
    (s.memberKinds [v]).records = [] := by
  cases hb : v.base with
  | primitive p c => simp [memberKinds, hb]
  | named n =>
    rw [hb] at h
    cases h with
    | enum he => simp [memberKinds, hb, he, Resolution.isMapped]

theorem isPlainRecord_of_mem_records (h : ∀ v ∈ members, s.Tellable v.base) {n : String}
    (hn : n ∈ (s.memberKinds members).records) : s.IsPlainRecord n := by
  obtain ⟨v, hv, hn⟩ := List.mem_filterMap.1 hn
  have htell := h v hv
  generalize v.base = b at htell hn
  rcases htell with ⟨_ | ⟨he⟩⟩ | ⟨ht, hplain⟩
  · simp at hn
  · simp [he, Resolution.isMapped] at hn
  · obtain rfl : _ = n := by simpa [ht, Resolution.isMapped] using hn
    exact ⟨_, resolveName_eq_type.1 ht, hplain⟩

theorem mem_records {v : Value} (hv : v ∈ members) {n : String} {t : TypeDecl}
    (hb : v.base = .named n) (ht : s.resolveName n = .type t) :
    n ∈ (s.memberKinds members).records :=
  List.mem_filterMap.2 ⟨v, hv, by simp [hb, ht, Resolution.isMapped]⟩

/-- A member that is told by its kind has a test, which its instances pass. -/
theorem ByKind.exists_test {v : Value} (hv : v ∈ members) (h : s.ByKind v.base) (x : Subject) :
    ∃ t ∈ (s.memberKinds members).primitiveTests x,
      ∀ d, s.Admits v.base d → t.accepts d = true := by
  generalize hb : v.base = b at h
  cases h with
  | @primitive p c hdate hbinary huntyped =>
    have hp : p ∈ (s.memberKinds members).primitives :=
      List.mem_filterMap.2 ⟨v, hv, by simp [hb, hdate]⟩
    obtain ⟨t, ht, hacc⟩ := MemberKinds.exists_primitiveTest hp hdate hbinary huntyped x
    refine ⟨t, ht, fun d hd => ?_⟩
    cases hd with
    | primitive hp _ => exact hacc d hp
  | enum he =>
    have hp : .string ∈ (s.memberKinds members).primitives :=
      List.mem_filterMap.2 ⟨v, hv, by simp [hb, he]⟩
    obtain ⟨t, ht, hacc⟩ := MemberKinds.exists_primitiveTest hp rfl (by simp) (by simp) x
    refine ⟨t, ht, fun d hd => ?_⟩
    cases hd with
    | enum _ _ => exact hacc _ ⟨_, rfl⟩
    | record ht _ => simp [he] at ht

end Kinds

end Service

end DtoGen
