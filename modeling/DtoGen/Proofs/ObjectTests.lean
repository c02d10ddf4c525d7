import DtoGen.Proofs.Clauses
import DtoGen.Proofs.MemberKinds
import DtoGen.Proofs.Presence
import DtoGen.Proofs.Spelling

namespace DtoGen

namespace Condition

variable {α : Type}

mutual
/-- The tests of a condition that are run, in order. -/
def trace (f : α → Option Bool) : Condition α → List α
  | .test a => [a]
  | .join k cs => traceClauses f k cs
def traceClauses (f : α → Option Bool) (k : Connective) : List (Condition α) → List α
  | [] => []
  | c :: cs => c.trace f ++ if c.run f = some k.neutral then traceClauses f k cs else []
end

variable {f : α → Option Bool}

mutual
theorem trace_subset : ∀ c : Condition α, ∀ a ∈ c.trace f, a ∈ c.tests
  | .test _, _, ha => ha
  | .join k cs, a, ha => traceClauses_subset k cs a ha
theorem traceClauses_subset (k : Connective) :
    ∀ cs : List (Condition α), ∀ a ∈ traceClauses f k cs, a ∈ testsOf cs
  | [], _, ha => ha
  | c :: cs, a, ha => by
    rw [traceClauses] at ha
    rw [testsOf]
    rcases List.mem_append.1 ha with ha | ha
    · exact List.mem_append_left _ (trace_subset c a ha)
    · split_ifs at ha
      · exact List.mem_append_right _ (traceClauses_subset k cs a ha)
      · cases ha
end

end Condition

namespace Block

variable {α σ : Type}

mutual
def traceInside (f : α → Option Bool) : Block α σ → List α
  | .leaf _ _ => []
  | .nested _ bs => trace f bs
/-- The tests of a chain that are run until one of its conditions is true or raises an error. -/
def trace (f : α → Option Bool) : List (Block α σ) → List α
  | [] => []
  -- the last block is the `else`: its condition is not run
  | [b] => b.traceInside f
  | b :: c :: bs => b.condition.trace f ++
    match b.condition.run f with
    | some true => b.traceInside f
    | some false => trace f (c :: bs)
    | none => []
end

def IsLeaf : Block α σ → Prop
  | .leaf _ _ => True
  | .nested _ _ => False

variable {f : α → Option Bool} {bs : List (Block α σ)}

theorem traceInside_of_isLeaf {b : Block α σ} (h : b.IsLeaf) : b.traceInside f = [] := by
  cases b with
  | leaf c body => rw [traceInside]
  | nested c bs => exact h.elim

theorem exists_of_mem_trace (h : ∀ b ∈ bs, b.IsLeaf) {a : α} (ha : a ∈ trace f bs) :
    ∃ b ∈ bs, a ∈ b.condition.tests := by
  induction bs with
  | nil => cases ha
  | cons b bs ih =>
    obtain ⟨hb, hrest⟩ := List.forall_mem_cons.1 h
    cases bs with
    | nil =>
      rw [trace, traceInside_of_isLeaf hb] at ha
      cases ha
    | cons c bs =>
      rw [trace, traceInside_of_isLeaf hb] at ha
      rcases List.mem_append.1 ha with ha | ha
      · exact ⟨b, List.mem_cons_self, Condition.trace_subset _ a ha⟩
      · split at ha
        · cases ha
        · obtain ⟨d, hd, ha⟩ := ih hrest ha
          exact ⟨d, List.mem_cons_of_mem b hd, ha⟩
        · cases ha

theorem trace_nested (f : α → Option Bool) (c : Condition α) (bs : List (Block α σ)) :
    trace f [.nested c bs] = trace f bs := by
  rw [trace, traceInside]

theorem trace_nested_pair {c : Condition α} {r : Bool} (h : c.run f = some r) (d : Condition α)
    (as bs : List (Block α σ)) :
    trace f [.nested c as, .nested d bs] = c.trace f ++ if r then trace f as else trace f bs := by
  rw [trace, condition, h, trace_nested, traceInside]
  cases r <;> rfl

/-- A test that only stands in later blocks is run if the conditions before them are false. -/
theorem mem_trace_append_iff {as : List (Block α σ)} (h : ∀ b ∈ as, b.IsLeaf) (hne : bs ≠ [])
    {a : α} (ha : ∀ b ∈ as, a ∉ b.condition.tests) :
    a ∈ trace f (as ++ bs) ↔
      (∀ b ∈ as, b.condition.run f = some false) ∧ a ∈ trace f bs := by
  induction as with
  | nil => simp
  | cons b as ih =>
    obtain ⟨hb, hrest⟩ := List.forall_mem_cons.1 h
    obtain ⟨hab, harest⟩ := List.forall_mem_cons.1 ha
    obtain ⟨c, cs, hcs⟩ := List.exists_cons_of_ne_nil (List.append_ne_nil_of_right_ne_nil as hne)
    have hstep : a ∈ trace f (b :: (as ++ bs)) ↔
        b.condition.run f = some false ∧ a ∈ trace f (as ++ bs) := by
      rw [hcs, trace, traceInside_of_isLeaf hb, List.mem_append]
      have htrace : a ∉ b.condition.trace f := fun hmem => hab (Condition.trace_subset _ a hmem)
      cases b.condition.run f with
      | none => simp [htrace]
      | some r => cases r <;> simp [htrace]
    rw [List.cons_append, hstep, ih hrest harest, List.forall_mem_cons, and_assoc]

end Block

/-- The tests that a mapper runs to choose a branch. A switch looks at a value and tests nothing. -/
def UnionMapper.tests (env : Runtime) (v : Datum) (m : UnionMapper) : List Test :=
  match m.body with
  | .switch _ _ => []
  | .chain bs => Block.trace (Test.run env v) bs

theorem UnionMapper.tests_of_chain {m : UnionMapper} {bs : List Branching} (h : m.body = .chain bs)
    (env : Runtime) (v : Datum) : m.tests env v = Block.trace (Test.run env v) bs := by
  rw [tests, h]

def Datum.isObject (d : Datum) : Bool := d.kind? = some .object && !d.isNull

def UnionMapper.TestsObjects (env : Runtime) (v : Datum) (m : UnionMapper) : Prop :=
  ∀ x n, .hasMember x n ∈ m.tests env v → ∃ d, x.read v = some d ∧ d.isObject = true

def Test.looksInside : Test → Bool
  | .hasMember _ _ => true
  | _ => false

/-- A branch whose condition does not look inside an object. -/
def Block.Quiet (b : Branching) : Prop :=
  b.IsLeaf ∧ ∀ t ∈ b.condition.tests, t.looksInside = false

theorem Block.looksInside_of_mem_trace {f : Test → Option Bool} {bs : List Branching}
    (h : ∀ b ∈ bs, b.Quiet) {t : Test} (ht : t ∈ Block.trace f bs) : t.looksInside = false := by
  obtain ⟨b, hb, ht⟩ := Block.exists_of_mem_trace (fun b hb => (h b hb).1) ht
  exact (h b hb).2 t ht

namespace MemberKinds

variable {k : MemberKinds} {d : Datum} {x : Subject} {env : Runtime} {v : Datum}

/-- Whether there is a primitive with the kind of a value that is no object. -/
def hasKindOf (k : MemberKinds) : Datum → Bool
  | .bool _ => k.primitives.contains .boolean
  | .string _ => k.primitives.contains .string
  | .number _ => k.primitives.any Primitive.isNumeric
  | .null => k.primitives.contains .null
  | _ => false

/-- Whether a value that is no object passes a test before those for records. -/
def recognises (k : MemberKinds) (direction : Direction) (d : Datum) : Bool :=
  k.hasKindOf d || (direction = .wireToInternal && !k.dates.isEmpty && d.kind? = some .string)

theorem any_primitiveTests (k : MemberKinds) (x : Subject) (hd : d.isObject = false) :
    (k.primitiveTests x).any (·.accepts d) = k.hasKindOf d := by
  have hany : ∀ (c : Bool) (t : Test), (if c = true then [t] else []).any (·.accepts d) =
      (c && t.accepts d) := by
    intro c t
    cases c <;> simp
  simp only [primitiveTests, List.any_append, hany]
  cases d <;> simp_all [Datum.isObject, Datum.kind?, Datum.isNull, hasKindOf, Test.accepts]

/-- On what is no object, the tests for primitives fail just if there is no primitive of its kind. -/
theorem primitiveBranches_false_iff (h : x.read v = some d) (hd : d.isObject = false) :
    (∀ b ∈ k.primitiveBranches x, b.condition.run (Test.run env v) = some false) ↔
      k.hasKindOf d = false := by
  rw [← k.any_primitiveTests x hd, primitiveBranches_eq]
  cases hempty : (k.primitiveTests x).isEmpty with
  | true => simp [List.isEmpty_iff.1 hempty]
  | false =>
    simp only [Bool.false_eq_true, if_false, List.mem_singleton, forall_eq, Block.condition]
    rw [primitiveCondition_run h, Option.some.injEq]

theorem dateCondition_run_of_ne_string (h : x.read v = some d) (hd : d.isObject = false)
    (hs : d.kind? ≠ some .string) (direction : Direction) :
    (k.dateCondition direction x).run (Test.run env v) = some false := by
  have hdate : d.isDate = false := by
    cases d <;> simp_all [Datum.isObject, Datum.kind?, Datum.isNull, Datum.isDate]
  have hkind : Test.run env v (.hasKind x .string) = some false := by simp [Test.run, h, hs]
  unfold dateCondition
  cases direction with
  | internalToWire => simp [Condition.run, Test.run, h, hdate]
  | wireToInternal =>
    simp only
    split_ifs
    · simp [Condition.run, Condition.runClauses, hkind, Connective.neutral]
    · rw [Condition.run, hkind]

/-- On what is no object, all tests for dates and primitives fail just if it is not recognised. -/
theorem branches_false_iff (h : x.read v = some d) (hd : d.isObject = false)
    (direction : Direction) (each : Bool) :
    (∀ b ∈ k.dateBranches direction x each ++ k.primitiveBranches x,
      b.condition.run (Test.run env v) = some false) ↔ k.recognises direction d = false := by
  rw [List.forall_mem_append, primitiveBranches_false_iff h hd, recognises, Bool.or_eq_false_iff,
    and_comm]
  refine and_congr_right fun hkind => ?_
  unfold dateBranches
  cases hdates : k.dates.isEmpty with
  | true => simp
  | false =>
    simp only [Bool.false_eq_true, if_false, List.mem_singleton, forall_eq, Block.condition]
    by_cases hs : d.kind? = some .string
    · -- without a primitive for text, text is a date on the wire and nothing inside
      obtain ⟨t, rfl⟩ : ∃ t, d = .string t := by cases d <;> simp_all [Datum.kind?]
      have hno : .string ∉ k.primitives := by simpa [hasKindOf] using hkind
      cases direction with
      | internalToWire => simp [dateCondition, Condition.run, Test.run, h, Datum.isDate]
      | wireToInternal =>
        simp [dateCondition, checksFormats, hno, Condition.run, Test.run, h, Datum.kind?]
    · rw [dateCondition_run_of_ne_string h hd hs]
      simp [hs]

theorem quiet_of_mem_branches {direction : Direction} {each : Bool} {b : Branching}
    (hb : b ∈ k.dateBranches direction x each ++ k.primitiveBranches x) : b.Quiet := by
  rcases List.mem_append.1 hb with hb | hb
  · unfold dateBranches at hb
    split_ifs at hb
    · cases hb
    · obtain rfl := List.mem_singleton.1 hb
      refine ⟨trivial, fun t ht => ?_⟩
      unfold Block.condition dateCondition at ht
      cases direction with
      | internalToWire =>
        obtain rfl : t = .isDateObject x := by simpa [Condition.tests] using ht
        rfl
      | wireToInternal =>
        simp only at ht
        split_ifs at ht
        · simp only [Condition.tests, Condition.testsOf, Condition.testsOf_map,
            List.append_nil, List.singleton_append, List.mem_cons, List.mem_map] at ht
          rcases ht with rfl | ⟨_, -, rfl⟩ <;> rfl
        · obtain rfl : t = .hasKind x .string := by simpa [Condition.tests] using ht
          rfl
  · rw [primitiveBranches_eq] at hb
    split_ifs at hb
    · cases hb
    · obtain rfl := List.mem_singleton.1 hb
      refine ⟨trivial, fun t ht => ?_⟩
      rw [Block.condition, Condition.tests] at ht
      have htests := Condition.testsOf_map id (k.primitiveTests x)
      rw [List.map_id] at htests
      replace ht : t ∈ k.primitiveTests x := htests ▸ ht
      simp only [primitiveTests, List.mem_append] at ht
      rcases ht with ((ht | ht) | ht) | ht <;> split_ifs at ht
      all_goals simp_all [Test.looksInside]

end MemberKinds

theorem Discrimination.names_ne_nil_of_mem_marks {s : Service} {member : String}
    {others names : List String} {exact : Bool}
    (h : .properties names exact ∈ Discrimination.marks s member others) : names ≠ [] := by
  unfold marks at h
  cases ht : s.type? member with
  | none => simp [ht] at h
  | some t =>
    simp only [ht, List.mem_append] at h
    rcases h with (h | h) | h
    · obtain ⟨n, he, -⟩ := mem_propertyMarks h
      cases he
    · unfold constantMarks at h
      split_ifs at h
      · cases h
      · obtain ⟨c, -, he⟩ := List.mem_map.1 h
        cases he
    · obtain ⟨hne, he⟩ := mem_setMarks_iff.1 h
      obtain ⟨rfl, -⟩ := Mark.properties.inj he
      exact hne

namespace Mark

variable {f : Facet} {x : Subject}

theorem exists_looksInside {s : Service} {others : List String} {n : String} {mark : Mark}
    (h : s.firstMark others n = some mark) (f : Facet) (x : Subject) (env : Runtime) (v : Datum) :
    ∃ name, .hasMember x name ∈ (mark.condition f x).trace (Test.run env v) := by
  cases mark with
  | property n => exact ⟨_, List.mem_singleton.2 rfl⟩
  | constant n l => exact ⟨_, List.mem_cons_self⟩
  | properties ns e =>
    have hne := Discrimination.names_ne_nil_of_mem_marks (List.mem_of_mem_head? h)
    obtain ⟨n, ns, rfl⟩ := List.exists_cons_of_ne_nil hne
    exact ⟨f.memberName n, by
      simp [condition, Condition.trace, Condition.traceClauses]⟩

theorem eq_of_looksInside {mark : Mark} {y : Subject} {name : String}
    (h : .hasMember y name ∈ (mark.condition f x).tests) : y = x := by
  cases mark with
  | property n => simp_all [condition, Condition.tests]
  | constant n l => simp_all [condition, Condition.tests, Condition.testsOf]
  | properties ns e =>
    rw [condition, Condition.tests, Condition.testsOf_map] at h
    obtain ⟨n, -, hn⟩ := List.mem_map.1 h
    exact (Test.hasMember.inj hn).1.symm

end Mark

namespace Service

variable {s : Service} {role : Role} {x : Subject} {each : Bool} {env : Runtime} {v : Datum}

def HasMark (s : Service) (names : List String) : Prop :=
  ∃ before n after mark, names = before ++ n :: after ∧ before ++ after ≠ [] ∧
    s.firstMark (before ++ after) n = some mark

theorem exists_mark_of_mem_markedFrom {seen names : List String} {b : Branching}
    (h : b ∈ s.markedFrom role x each seen names) :
    ∃ before n after mark, names = before ++ n :: after ∧
      s.firstMark (seen ++ before ++ after) n = some mark ∧
      b = .leaf (mark.condition role.source x) [call role each n] := by
  induction names generalizing seen with
  | nil => cases h
  | cons m rest ih =>
    have hlater : b ∈ s.markedFrom role x each (seen ++ [m]) rest →
        ∃ before n after mark, m :: rest = before ++ n :: after ∧
          s.firstMark (seen ++ before ++ after) n = some mark ∧
          b = .leaf (mark.condition role.source x) [call role each n] := by
      intro hb
      obtain ⟨before, n, after, mark, rfl, hmark, rfl⟩ := ih hb
      exact ⟨m :: before, n, after, mark, rfl, by simpa using hmark, rfl⟩
    unfold markedFrom at h
    split at h
    · exact hlater h
    · rename_i mark hmark
      rcases List.mem_cons.1 h with rfl | h
      · exact ⟨[], m, rest, mark, rfl, by simpa using hmark, rfl⟩
      · exact hlater h

theorem markedFrom_ne_nil {names : List String} (h : s.HasMark names) :
    s.markedFrom role x each [] names ≠ [] := by
  obtain ⟨before, n, after, mark, rfl, -, hmark⟩ := h
  exact List.ne_nil_of_mem (mem_markedFrom [] before hmark)

theorem length_markedFrom_add (s : Service) (role : Role) (x : Subject) (each : Bool)
    (seen names : List String) :
    (s.markedFrom role x each seen names).length + (s.unmarkedFrom seen names).length =
      names.length := by
  induction names generalizing seen with
  | nil => rfl
  | cons m rest ih =>
    unfold markedFrom unmarkedFrom
    have hrest := ih (seen ++ [m])
    cases s.firstMark (seen ++ rest) m <;> simp only [List.length_cons] <;> omega

theorem quiet_isObject (x : Subject) (body : List Action) :
    Block.Quiet (.leaf (isObject x) body) := by
  refine ⟨trivial, fun t ht => ?_⟩
  rcases List.mem_pair.1 (show t ∈ [Test.hasKind x .object, .isNotNull x] from ht) with rfl | rfl <;>
    rfl

/-- What is left after the marks is a test that looks at no member, or nothing. -/
theorem Rest.spec {union : String} {us : List String} {rest : List Branching}
    (h : Rest s union role x each us rest) :
    (rest = [] ↔ us = []) ∧ ∀ b ∈ rest, b.Quiet := by
  cases h with
  | none => simp
  | single m =>
    refine ⟨by simp, fun b hb => ?_⟩
    obtain rfl := List.mem_singleton.1 hb
    exact quiet_isObject x _
  | merged hlen hm =>
    refine ⟨?_, fun b hb => ?_⟩
    · simp only [List.cons_ne_self, false_iff]
      rintro rfl
      simp at hlen
    · obtain rfl := List.mem_singleton.1 hb
      exact quiet_isObject x _

variable {members : List Value}

def opening (s : Service) (role : Role) (each : Bool) (members : List Value) : List Branching :=
  (if each && 1 < members.length then [.leaf (.test .isEmpty) [.empty]] else []) ++
    ((s.memberKinds members).dateBranches role.direction (subject each) each ++
      (s.memberKinds members).primitiveBranches (subject each))

theorem quiet_of_mem_opening {b : Branching} (hb : b ∈ s.opening role each members) : b.Quiet := by
  rcases List.mem_append.1 hb with hb | hb
  · split_ifs at hb
    · obtain rfl := List.mem_singleton.1 hb
      exact ⟨trivial, by simp [Block.condition, Condition.tests, Test.looksInside]⟩
    · cases hb
  · exact MemberKinds.quiet_of_mem_branches hb

/-- What is no object gets past these branches just if none of the tests recognises it. An empty array
does not get past them. -/
theorem opening_false_iff (env : Runtime) (hlen : 1 < members.length) {d : Datum}
    (h : (subject each).read v = some d) (hd : d.isObject = false) :
    (∀ b ∈ s.opening role each members, b.condition.run (Test.run env v) = some false) ↔
      v ≠ .array [] ∧ (s.memberKinds members).recognises role.direction d = false := by
  rw [opening, List.forall_mem_append, MemberKinds.branches_false_iff h hd]
  refine and_congr_left fun _ => ?_
  cases each with
  | true =>
    obtain ⟨items, hitems, -⟩ := Option.map_eq_some_iff.1 h
    obtain rfl : v = .array items := by cases v <;> simp_all [Datum.items?]
    simp [hlen, Block.condition, Condition.run, Test.run, Datum.items?]
  | false =>
    obtain rfl := Option.some.inj h
    have hne : v ≠ .array [] := by
      rintro rfl
      cases hd
    simp [hne]

theorem exists_read_of_opening (hlen : 1 < members.length)
    (h : ∀ b ∈ s.opening role each members, b.condition.run (Test.run env v) = some false) :
    ∃ d, (subject each).read v = some d := by
  cases each with
  | false => exact ⟨v, rfl⟩
  | true =>
    have hfirst : Block.leaf (.test .isEmpty) [.empty] ∈ s.opening role true members := by
      simp [opening, hlen]
    have hrun : v.items?.map List.isEmpty = some false := h _ hfirst
    obtain ⟨items, hitems, -⟩ := Option.map_eq_some_iff.1 hrun
    exact ⟨items.headD .undefined, by simp [subject, Subject.read, hitems]⟩

/-- A value that gets to the test for a mark, and that the test has to fail on. -/
def Gap (s : Service) (role : Role) (each : Bool) (members : List Value) (v : Datum) : Prop :=
  s.HasMark (s.memberKinds members).records ∧ v ≠ .array [] ∧
    ∃ d, (subject each).read v = some d ∧ d.isObject = false ∧
      (s.memberKinds members).recognises role.direction d = false

/-- Branches that look into the members of their subject in a test for a mark and after it. -/
structure MarkTests (s : Service) (x : Subject) (f : Facet) (bs : List Branching) : Prop where
  first : ∃ others n mark body more, s.firstMark others n = some mark ∧ more ≠ [] ∧
    bs = .leaf (mark.condition f x) body :: more
  all : ∀ b ∈ bs, b.Quiet ∨ ∃ (mark : Mark) (body : List Action), b = .leaf (mark.condition f x) body

theorem MarkTests.subject_eq {f : Facet} {bs : List Branching} (h : MarkTests s x f bs)
    {y : Subject} {n : String} (ht : .hasMember y n ∈ Block.trace (Test.run env v) bs) : y = x := by
  have hleaf : ∀ b ∈ bs, b.IsLeaf := by
    intro b hb
    rcases h.all b hb with hquiet | ⟨mark, body, rfl⟩
    · exact hquiet.1
    · trivial
  obtain ⟨b, hb, ht⟩ := Block.exists_of_mem_trace hleaf ht
  rcases h.all b hb with hquiet | ⟨mark, body, rfl⟩
  · cases hquiet.2 _ ht
  · exact Mark.eq_of_looksInside ht

theorem two_le_length_of_hasMark {names : List String} (h : s.HasMark names) : 2 ≤ names.length := by
  obtain ⟨before, n, after, mark, rfl, hothers, -⟩ := h
  have hpos := List.length_pos_iff.2 hothers
  simp only [List.length_append, List.length_cons] at hpos ⊢
  omega

/-- Marks come with further branches: those of other marks, or what is left. -/
theorem markTests_of_mark {names : List String} {rest tail : List Branching} {b : Branching}
    {bs : List Branching} (hlen : 2 ≤ names.length)
    (hmarked : s.markedFrom role x each [] names = b :: bs)
    (hrest : rest = [] → s.unmarked names = []) (hquiet : ∀ c ∈ rest ++ tail, c.Quiet) :
    s.HasMark names ∧ MarkTests s x role.source (b :: bs ++ (rest ++ tail)) := by
  have hmarks : ∀ c ∈ b :: bs, ∃ before n after mark, names = before ++ n :: after ∧
      s.firstMark ([] ++ before ++ after) n = some mark ∧
      c = .leaf (mark.condition role.source x) [call role each n] :=
    fun c hc => exists_mark_of_mem_markedFrom (hmarked ▸ hc)
  obtain ⟨before, n, after, mark, hnames, hfirst, rfl⟩ := hmarks b List.mem_cons_self
  have hothers : before ++ after ≠ [] := by
    refine List.length_pos_iff.1 ?_
    simp only [hnames, List.length_append, List.length_cons] at hlen ⊢
    omega
  have hmore : bs ++ rest ≠ [] := by
    -- without more branches there would be a single record
    intro hnone
    obtain ⟨rfl, rfl⟩ := List.append_eq_nil_iff.1 hnone
    have hlength := s.length_markedFrom_add role x each [] names
    have hunmarked : s.unmarkedFrom [] names = [] := hrest rfl
    simp only [hmarked, hunmarked, List.length_cons, List.length_nil] at hlength
    omega
  refine ⟨⟨before, n, after, mark, hnames, hothers, hfirst⟩, ?_, ?_⟩
  · refine ⟨_, n, mark, [call role each n], bs ++ (rest ++ tail), hfirst, ?_, rfl⟩
    rw [← List.append_assoc]
    exact List.append_ne_nil_of_left_ne_nil hmore _
  · intro c hc
    rcases List.mem_append.1 hc with hc | hc
    · obtain ⟨-, n, -, mark, -, -, rfl⟩ := hmarks c hc
      exact .inr ⟨mark, _, rfl⟩
    · exact .inl (hquiet c hc)

/-- The branches for records and after them look into nothing unless there is a mark. -/
theorem recordBranches_split {union : String} {names : List String} {records tail : List Branching}
    (h : (s.recordBranches union role x each names).result = .ok records)
    (htail : ∀ b ∈ tail, b.Quiet) :
    (¬ s.HasMark names ∧ ∀ b ∈ records ++ tail, b.Quiet) ∨
      s.HasMark names ∧ MarkTests s x role.source (records ++ tail) := by
  by_cases hlen : 2 ≤ names.length
  · obtain ⟨rest, hrest, rfl⟩ := recordBranches_ok hlen h
    obtain ⟨hnil, hquiet⟩ := hrest.spec
    have hlater := List.forall_mem_append.2 ⟨hquiet, htail⟩
    rw [List.append_assoc]
    cases hmarked : s.markedFrom role x each [] names with
    | nil => exact .inl ⟨fun hmark => markedFrom_ne_nil hmark hmarked, hlater⟩
    | cons b bs => exact .inr (markTests_of_mark hlen hmarked hnil.1 hlater)
  · refine .inl ⟨fun hmark => hlen (two_le_length_of_hasMark hmark), ?_⟩
    refine List.forall_mem_append.2 ⟨fun b hb => ?_, htail⟩
    match names, hlen with
    | [], _ =>
      obtain rfl : [] = records := Except.ok.inj h
      cases hb
    | [m], _ =>
      rw [recordBranches_single h] at hb
      obtain rfl := List.mem_singleton.1 hb
      exact quiet_isObject _ _
    | _ :: _ :: _, hlen => simp at hlen

/-- The branches of one form look into nothing, or only after the opening. -/
theorem memberBranches_split {union : String} {bs : List Branching}
    (h : (s.memberBranches union role each members).result = .ok bs) :
    (¬ s.HasMark (s.memberKinds members).records ∧ ∀ b ∈ bs, b.Quiet) ∨
      s.HasMark (s.memberKinds members).records ∧ ∃ marked,
        MarkTests s (subject each) role.source marked ∧
          bs = s.opening role each members ++ marked := by
  obtain ⟨records, hrecords, rfl⟩ := memberBranches_ok h
  have hpasses : ∀ b ∈ if (s.memberKinds members).passes then
      [Block.leaf (.test Test.always) [Action.same]] else [], b.Quiet := by
    intro b hb
    split_ifs at hb
    · obtain rfl := List.mem_singleton.1 hb
      exact ⟨trivial, by simp [Block.condition, Condition.tests, Test.looksInside]⟩
    · cases hb
  have hopening : ∀ tail, (if each && 1 < members.length then
        [Block.leaf (.test Test.isEmpty) [Action.empty]] else []) ++
        (s.memberKinds members).dateBranches role.direction (subject each) each ++
        (s.memberKinds members).primitiveBranches (subject each) ++ tail =
      s.opening role each members ++ tail := by
    intro tail
    simp only [opening, List.append_assoc]
  rw [List.append_assoc, hopening]
  rcases recordBranches_split hrecords hpasses with ⟨hno, hquiet⟩ | ⟨hmark, hmarked⟩
  · exact .inl ⟨hno, List.forall_mem_append.2 ⟨fun b hb => quiet_of_mem_opening hb, hquiet⟩⟩
  · exact .inr ⟨hmark, _, hmarked, rfl⟩

/-- The tests of one form look into what is no object just on such a value. -/
theorem testsObjects_memberBranches_iff {union : String} {bs : List Branching}
    (h : (s.memberBranches union role each members).result = .ok bs) (env : Runtime) (v : Datum) :
    (∀ y n, .hasMember y n ∈ Block.trace (Test.run env v) bs →
        ∃ d, y.read v = some d ∧ d.isObject = true) ↔ ¬ s.Gap role each members v := by
  rcases memberBranches_split h with ⟨hno, hquiet⟩ | ⟨hmark, marked, hmarked, rfl⟩
  · refine iff_of_true (fun y n ht => ?_) fun hgap => hno hgap.1
    cases Block.looksInside_of_mem_trace hquiet ht
  · have hlen : 1 < members.length :=
      (two_le_length_of_hasMark hmark).trans (List.length_filterMap_le _ _)
    obtain ⟨others, n, mark, body, more, hfirst, hne, rfl⟩ := hmarked.first
    have htrace : ∀ y m, .hasMember y m ∈ Block.trace (Test.run env v) _ ↔
        (∀ b ∈ s.opening role each members, b.condition.run (Test.run env v) = some false) ∧
          .hasMember y m ∈ Block.trace (Test.run env v)
            (.leaf (mark.condition role.source (subject each)) body :: more) :=
      fun y m => Block.mem_trace_append_iff (fun b hb => (quiet_of_mem_opening hb).1) (by simp)
        fun b hb hmem => by cases (quiet_of_mem_opening hb).2 _ hmem
    constructor
    · rintro hobjects ⟨-, hempty, d, hd, hother, hunknown⟩
      have hopening := (opening_false_iff env hlen hd hother).2 ⟨hempty, hunknown⟩
      obtain ⟨name, hname⟩ :=
        Mark.exists_looksInside hfirst role.source (subject each) env v
      have hrun : .hasMember (subject each) name ∈ Block.trace (Test.run env v)
          (.leaf (mark.condition role.source (subject each)) body :: more) := by
        obtain ⟨b, more, rfl⟩ := List.exists_cons_of_ne_nil hne
        rw [Block.trace]
        exact List.mem_append_left _ hname
      obtain ⟨d', hd', hobject⟩ := hobjects _ name ((htrace _ _).2 ⟨hopening, hrun⟩)
      rw [hd] at hd'
      obtain rfl := Option.some.inj hd'
      rw [hother] at hobject
      cases hobject
    · intro hgap y m ht
      obtain ⟨hopening, ht⟩ := (htrace y m).1 ht
      obtain rfl := hmarked.subject_eq ht
      obtain ⟨d, hd⟩ := exists_read_of_opening hlen hopening
      refine ⟨d, hd, ?_⟩
      by_contra hother
      obtain ⟨hempty, hunknown⟩ := (opening_false_iff env hlen hd (by simpa using hother)).1 hopening
      exact hgap ⟨hmark, hempty, d, hd, by simpa using hother, hunknown⟩

/-- Whether a value gets to the branches for arrays. The branches of one form alone are entered
without a test. -/
def entersArrays (members : List Value) (v : Datum) : Bool :=
  !(peers true members).isEmpty && ((peers false members).isEmpty || v.isArray)

theorem simpleBody_nil {union : String} {body : UnionBody}
    (h : (s.simpleBody union role []).result = .ok body) :
    body = .chain [.leaf (.test .always) [.unchecked]] :=
  (Except.ok.inj h).symm

/-- The tests that a union mapper runs are one for the form, where members have both, and those of the
form. -/
theorem mem_tests_iff {u : UnionDecl} {m : UnionMapper} (hu : u.body = .simple members)
    (hne : members ≠ []) (hm : (s.unionMapper role u).result = .ok m) (env : Runtime) (v : Datum) :
    ∃ bs, (s.memberBranches u.name role (entersArrays members v)
        (peers (entersArrays members v) members)).result = .ok bs ∧
      ∀ y n, .hasMember y n ∈ m.tests env v ↔
        .hasMember y n ∈ Block.trace (Test.run env v) bs := by
  obtain ⟨arrays, others, harrays, hothers, hbody⟩ := unionMapper_ok hu hne hm
  by_cases ha : peers true members = []
  · have ho : peers false members ≠ [] := by
      intro ho
      obtain ⟨v, hv⟩ := List.exists_mem_of_ne_nil _ hne
      cases hform : v.isArray with
      | true => exact List.not_mem_nil (ha ▸ mem_peers.2 ⟨hv, hform⟩)
      | false => exact List.not_mem_nil (ho ▸ mem_peers.2 ⟨hv, hform⟩)
    have henters : entersArrays members v = false := by simp [entersArrays, ha]
    rw [ha] at harrays
    obtain rfl := formBranches_nil harrays
    obtain ⟨inner, hinner, rfl⟩ := formBranches_ok ho hothers
    rw [henters, UnionMapper.tests_of_chain hbody, List.nil_append, Block.trace_nested]
    exact ⟨inner, hinner, fun _ _ => Iff.rfl⟩
  · have ha' := List.isEmpty_eq_false_iff.2 ha
    obtain ⟨first, hfirst, rfl⟩ := formBranches_ok ha harrays
    by_cases ho : peers false members = []
    · have henters : entersArrays members v = true := by simp [entersArrays, ha', ho]
      rw [ho] at hothers
      obtain rfl := formBranches_nil hothers
      rw [henters, UnionMapper.tests_of_chain hbody, List.append_nil, Block.trace_nested]
      exact ⟨first, hfirst, fun _ _ => Iff.rfl⟩
    · have ho' := List.isEmpty_eq_false_iff.2 ho
      obtain ⟨second, hsecond, rfl⟩ := formBranches_ok ho hothers
      have henters : entersArrays members v = v.isArray := by
        rw [entersArrays, ha', ho', Bool.not_false, Bool.true_and, Bool.false_or]
      have hrun : Condition.run (Test.run env v) (.test .isArray) = some v.isArray := rfl
      rw [henters, UnionMapper.tests_of_chain hbody, List.singleton_append,
        if_pos rfl, Block.trace_nested_pair hrun]
      cases v.isArray with
      | true => exact ⟨first, hfirst, fun y n => by simp [Condition.trace]⟩
      | false => exact ⟨second, hsecond, fun y n => by simp [Condition.trace]⟩

/-- A test for members is run on what is no object just for a value in the gap of its form. -/
theorem testsObjects_iff {u : UnionDecl} {m : UnionMapper} (hu : u.body = .simple members)
    (hm : (s.unionMapper role u).result = .ok m) (env : Runtime) (v : Datum) :
    m.TestsObjects env v ↔
      ¬ s.Gap role (entersArrays members v) (peers (entersArrays members v) members) v := by
  by_cases hne : members = []
  · subst hne
    have hbody : m.body = .chain [.leaf (.test .always) [.unchecked]] := by
      unfold unionMapper at hm
      rw [hu] at hm
      obtain ⟨-, -, hm⟩ := Journal.bind_result_ok.1 hm
      obtain ⟨body, hb, hm⟩ := Journal.bind_result_ok.1 hm
      rw [← simpleBody_nil hb]
      exact (congrArg UnionMapper.body (Except.ok.inj hm)).symm
    refine iff_of_true (fun y n ht => ?_) fun hgap => ?_
    · rw [UnionMapper.tests_of_chain hbody, Block.trace, Block.traceInside] at ht
      cases ht
    · have hlen := two_le_length_of_hasMark hgap.1
      simp [peers, memberKinds] at hlen
  · obtain ⟨bs, hbs, htests⟩ := mem_tests_iff hu hne hm env v
    rw [← testsObjects_memberBranches_iff hbs env v, UnionMapper.TestsObjects]
    simp only [htests]

end Service

/-- What can be sent as JSON. -/
inductive Datum.Json : Datum → Prop where
  | null : Json .null
  | bool (b : Bool) : Json (.bool b)
  | number (x : ℚ) : Json (.number (.exact x))
  | string (t : String) : Json (.string t)
  | array {items : List Datum} (h : ∀ i ∈ items, Json i) : Json (.array items)
  | object {members : Members} (h : ∀ e ∈ members, Json e.2) : Json (.object members)

def Primitive.Typed (f : Facet) (d : Datum) : Primitive → Prop
  | .string => ∃ t, d = .string t
  | .number | .integer | .long | .float | .double => ∃ x, d = .number x
  | .boolean => ∃ b, d = .bool b
  | .null => d = .null
  | .date | .dateTime =>
    match f with
    | .wire => ∃ t, d = .string t
    | .internal => ∃ t, d = .date t
  | .binary | .untyped => d.Json

namespace Service

mutual
/-- The values of what a member refers to, as its type is rendered in a facet: a constant stands for
itself, and what is declared nowhere may be anything. -/
inductive TypedBase (s : Service) (f : Facet) : Base → Datum → Prop where
  | constant (p : Primitive) (l : Literal) : TypedBase s f (.primitive p (some l)) l.datum
  | primitive {p : Primitive} {d : Datum} (hp : p.Typed f d) : TypedBase s f (.primitive p none) d
  | enum {n : String} {e : EnumDecl} {m : EnumMember} (he : s.resolveName n = .enum e)
    (hm : m ∈ e.members) : TypedBase s f (.named n) (.string m.content)
  | record {n : String} {t : TypeDecl} {x : Members} (ht : s.resolveName n = .type t)
    (hx : t.Shaped f x) : TypedBase s f (.named n) (.object x)
  | union {n : String} {u : UnionDecl} {w : Value} {d : Datum} (hu : s.resolveName n = .union u)
    (hw : w ∈ u.members) (hd : Typed s f w d) : TypedBase s f (.named n) d
  | unresolved {n : String} {d : Datum} (hn : s.resolveName n = .unresolved) (hd : d.Json) :
    TypedBase s f (.named n) d
/-- The values of a member. -/
inductive Typed (s : Service) (f : Facet) : Value → Datum → Prop where
  | null {w : Value} (h : w.isNullable = true) : Typed s f w .null
  | one {w : Value} {d : Datum} (h : w.isArray = false) (hd : TypedBase s f w.base d) : Typed s f w d
  | many {w : Value} {items : List Datum} (h : w.isArray = true)
    (hitems : ∀ i ∈ items, TypedBase s f w.base i) : Typed s f w (.array items)
end

/-- What the tests of its own kind recognise: a primitive that is not of any kind, with a constant of
that kind or none, an enum, or a record. -/
inductive ToldBase (s : Service) (f : Facet) : Base → Prop where
  | primitive {p : Primitive} (hbinary : p ≠ .binary) (huntyped : p ≠ .untyped) :
    ToldBase s f (.primitive p none)
  | constant {p : Primitive} {l : Literal} (hbinary : p ≠ .binary) (huntyped : p ≠ .untyped)
    (hl : p.Typed f l.datum) : ToldBase s f (.primitive p (some l))
  | enum {n : String} {e : EnumDecl} (he : s.resolveName n = .enum e) : ToldBase s f (.named n)
  | record {n : String} {t : TypeDecl} (ht : s.resolveName n = .type t) : ToldBase s f (.named n)

variable {s : Service} {role : Role} {members : List Value} {d : Datum}

theorem recognised_of_primitive {k : MemberKinds} {p : Primitive} (hp : p.Typed role.source d)
    (hbinary : p ≠ .binary) (huntyped : p ≠ .untyped) (hkind : p.isDate = false → p ∈ k.primitives)
    (hdate : p.isDate = true → p ∈ k.dates) :
    d.isObject = true ∨ k.recognises role.direction d = true := by
  have hnumeric : p.isNumeric = true → p.isDate = false → (∃ x, d = .number x) →
      k.recognises role.direction d = true := by
    rintro hn hno ⟨x, rfl⟩
    have hany : k.primitives.any Primitive.isNumeric = true := List.any_eq_true.2 ⟨p, hkind hno, hn⟩
    simp [MemberKinds.recognises, MemberKinds.hasKindOf, hany]
  have hday : p.isDate = true → (match role.source with
        | .wire => ∃ t, d = .string t
        | .internal => ∃ t, d = .date t) →
      d.isObject = true ∨ k.recognises role.direction d = true := by
    intro hp hd
    have hne : k.dates ≠ [] := List.ne_nil_of_mem (hdate hp)
    cases hdirection : role.direction with
    | wireToInternal =>
      have hsource : role.source = .wire := congrArg Direction.source hdirection
      rw [hsource] at hd
      obtain ⟨t, rfl⟩ := hd
      simp [MemberKinds.recognises, hne, Datum.kind?]
    | internalToWire =>
      have hsource : role.source = .internal := congrArg Direction.source hdirection
      rw [hsource] at hd
      obtain ⟨t, rfl⟩ := hd
      exact .inl rfl
  cases p with
  | string =>
    obtain ⟨t, rfl⟩ := hp
    simp [MemberKinds.recognises, MemberKinds.hasKindOf, hkind rfl]
  | boolean =>
    obtain ⟨b, rfl⟩ := hp
    simp [MemberKinds.recognises, MemberKinds.hasKindOf, hkind rfl]
  | null =>
    obtain rfl := hp
    simp [MemberKinds.recognises, MemberKinds.hasKindOf, hkind rfl]
  | number | integer | long | float | double => exact .inr (hnumeric rfl rfl hp)
  | date | dateTime => exact hday rfl hp
  | binary => exact absurd rfl hbinary
  | untyped => exact absurd rfl huntyped

/-- Each value of such a member is an object or recognised among members of its form. -/
theorem ToldBase.recognised {w : Value} (h : s.ToldBase role.source w.base)
    (hd : s.TypedBase role.source w.base d) (hw : w ∈ members) :
    d.isObject = true ∨ (s.memberKinds members).recognises role.direction d = true := by
  have hprimitive : ∀ p c, w.base = .primitive p c → p ≠ .binary → p ≠ .untyped →
      p.Typed role.source d →
      d.isObject = true ∨ (s.memberKinds members).recognises role.direction d = true := by
    intro p c hb hbinary huntyped hp
    refine recognised_of_primitive hp hbinary huntyped (fun hno => ?_) fun hdate => ?_
    · exact List.mem_filterMap.2 ⟨w, hw, by simp [hb, hno]⟩
    · exact List.mem_filterMap.2 ⟨w, hw, by simp [hb, hdate]⟩
  generalize hb : w.base = b at h hd
  cases h with
  | primitive hbinary huntyped =>
    cases hd with
    | primitive hp => exact hprimitive _ _ hb hbinary huntyped hp
  | constant hbinary huntyped hl =>
    cases hd with
    | constant => exact hprimitive _ _ hb hbinary huntyped hl
  | enum he =>
    have htext : .string ∈ (s.memberKinds members).primitives :=
      List.mem_filterMap.2 ⟨w, hw, by simp [hb, he]⟩
    cases hd with
    | enum _ _ => simp [MemberKinds.recognises, MemberKinds.hasKindOf, htext]
    | record ht _ => simp [he] at ht
    | union hu _ _ => simp [he] at hu
    | unresolved hn _ => simp [he] at hn
  | record ht =>
    cases hd with
    | enum he _ => simp [ht] at he
    | record _ _ => exact .inl rfl
    | union hu _ _ => simp [ht] at hu
    | unresolved hn _ => simp [ht] at hn

theorem ToldBase.isArray_eq_false {f : Facet} {b : Base} (h : s.ToldBase f b)
    (hd : s.TypedBase f b d) : d.isArray = false := by
  cases h with
  | @primitive p hbinary huntyped =>
    cases hd with
    | primitive hp =>
      cases p with
      | string | boolean | number | integer | long | float | double =>
        obtain ⟨_, rfl⟩ := hp
        rfl
      | null =>
        obtain rfl := hp
        rfl
      | date | dateTime => cases f <;> obtain ⟨_, rfl⟩ := hp <;> rfl
      | binary => exact absurd rfl hbinary
      | untyped => exact absurd rfl huntyped
  | @constant p l hbinary huntyped hl =>
    cases hd with
    | constant => cases l <;> rfl
  | enum he =>
    cases hd with
    | enum _ _ => rfl
    | record ht _ => simp [he] at ht
    | union hu _ _ => simp [he] at hu
    | unresolved hn _ => simp [he] at hn
  | record ht =>
    cases hd with
    | enum he _ => simp [ht] at he
    | record _ _ => rfl
    | union hu _ _ => simp [ht] at hu
    | unresolved hn _ => simp [ht] at hn

/-- A member that is never null and whose values its own tests recognise. -/
structure Told (s : Service) (f : Facet) (w : Value) : Prop where
  notNull : w.isNullable = false
  base : s.ToldBase f w.base

theorem not_gap_of_told (htold : ∀ w ∈ members, s.Told role.source w) {w : Value}
    (hw : w ∈ members) {v : Datum} (hv : s.Typed role.source w v) :
    ¬ s.Gap role (entersArrays members v) (peers (entersArrays members v) members) v := by
  rintro ⟨-, hempty, d, hread, hother, hunknown⟩
  have hrecognised : ∀ d, s.TypedBase role.source w.base d → ∀ each, w.isArray = each →
      d.isObject = true ∨
        (s.memberKinds (peers each members)).recognises role.direction d = true :=
    fun d hd each heach => (htold w hw).base.recognised hd (mem_peers.2 ⟨hw, heach⟩)
  have hpeers : (peers w.isArray members).isEmpty = false :=
    List.isEmpty_eq_false_iff.2 (List.ne_nil_of_mem (mem_peers.2 ⟨hw, rfl⟩))
  cases hv with
  | null hnull =>
    rw [(htold w hw).notNull] at hnull
    cases hnull
  | one hone hd =>
    rw [hone] at hpeers
    have henters : entersArrays members v = false := by
      simp [entersArrays, hpeers, (htold w hw).base.isArray_eq_false hd]
    rw [henters] at hread hunknown
    obtain rfl := Option.some.inj hread
    have hclash := hrecognised _ hd false hone
    simp [hother, hunknown] at hclash
  | many hmany hitems =>
    rename_i items
    rw [hmany] at hpeers
    have henters : entersArrays members (.array items) = true := by
      rw [entersArrays, hpeers]
      simp [Datum.isArray]
    rw [henters] at hread hunknown
    obtain ⟨first, rest, rfl⟩ := List.exists_cons_of_ne_nil (l := items) fun h => hempty (h ▸ rfl)
    obtain rfl := Option.some.inj hread
    have hclash := hrecognised _ (hitems _ List.mem_cons_self) true hmany
    simp only [List.headD_cons] at hother hunknown
    simp [hother, hunknown] at hclash

/-- A test for members is run on what is no object just for the values in the gap; there is none if all
members are recognised by their own tests. -/
theorem property_tests_on_objects_iff {u : UnionDecl} {m : UnionMapper}
    (hu : u.body = .simple members) (hm : (s.unionMapper role u).result = .ok m) :
    (∀ env v, m.TestsObjects env v ↔
      ¬ s.Gap role (entersArrays members v) (peers (entersArrays members v) members) v) ∧
    ((∀ w ∈ members, s.Told role.source w) →
      ∀ env v, (∃ w ∈ members, s.Typed role.source w v) → m.TestsObjects env v) := by
  refine ⟨testsObjects_iff hu hm, fun htold env v hv => ?_⟩
  obtain ⟨w, hw, hv⟩ := hv
  exact (testsObjects_iff hu hm env v).2 (not_gap_of_told htold hw hv)

/-- Two records told by a mark, the first of which may be null, or text. -/
def pageViewText (nullable : Bool) : UnionDecl where
  name := "page_view_text"
  body := .simple [{ base := .named "page", isNullable := nullable }, { base := .named "view" },
    { base := .primitive .string none }]

def pagesAndText (nullable : Bool) : Service where
  title := "pages_and_text"
  types := [textRecord "page" ["page_size", "cursor"], textRecord "view" ["width", "zoom"]]
  unions := [pageViewText nullable]

theorem pagesAndText_tests_on_objects :
    ∃ m, ((pagesAndText false).unionMapper .serverInbound (pageViewText false)).result = .ok m ∧
      (∀ w ∈ (pageViewText false).members, (pagesAndText false).Told .wire w) ∧
      ∀ env v, (∃ w ∈ (pageViewText false).members, (pagesAndText false).Typed .wire w v) →
        m.TestsObjects env v := by
  have hok : ((pagesAndText false).unionMapper .serverInbound (pageViewText false)).result.isOk =
      true := by cbv
  obtain ⟨m, hm⟩ := Journal.exists_result hok
  have htold : ∀ w ∈ (pageViewText false).members, (pagesAndText false).Told .wire w := by
    simp only [pageViewText, UnionDecl.members, List.forall_mem_cons]
    exact ⟨⟨rfl, .record rfl⟩, ⟨rfl, .record rfl⟩, ⟨rfl, .primitive (by decide) (by decide)⟩,
      List.forall_mem_nil _⟩
  exact ⟨m, hm, htold, (property_tests_on_objects_iff rfl hm).2 htold⟩

/-- Where a member may be null, null gets to the test for a property. -/
theorem null_tested_for_property : (pagesAndText true).check.defects = [] ∧
    ∃ m, ((pagesAndText true).unionMapper .serverInbound (pageViewText true)).result = .ok m ∧
      (∃ w ∈ (pageViewText true).members, (pagesAndText true).Typed .wire w .null) ∧
      ∀ env, ¬ m.TestsObjects env .null := by
  have hok : ((pagesAndText true).unionMapper .serverInbound (pageViewText true)).result.isOk =
      true := by cbv
  have hmark : (pagesAndText true).firstMark ["view"] "page" = some (.property "page_size") := by
    cbv
  have hsound : (pagesAndText true).check.defects = [] := by decide +kernel
  obtain ⟨m, hm⟩ := Journal.exists_result hok
  refine ⟨hsound, m, hm, ⟨_, List.mem_cons_self, .null rfl⟩, fun env h => ?_⟩
  refine (testsObjects_iff rfl hm env .null).1 h ⟨?_, by simp, .null, rfl, rfl, rfl⟩
  exact ⟨[], "page", ["view"], _, rfl, by simp, hmark⟩

end Service

end DtoGen
