import DtoGen.Proofs.Mentions

namespace DtoGen

/-- Mentions of a piece of code as a journal has them: all of them are there, and no helper is there
besides. -/
structure Mirrors (as bs : List Mention) : Prop where
  subset : as ⊆ bs
  helper : ∀ h, .helper h ∈ bs → .helper h ∈ as

namespace Mirrors

variable {as bs cs ds : List Mention}

theorem refl (as : List Mention) : Mirrors as as := ⟨List.Subset.refl _, fun _ h => h⟩

theorem trans (hab : Mirrors as bs) (hbc : Mirrors bs cs) : Mirrors as cs :=
  ⟨List.Subset.trans hab.subset hbc.subset, fun h hh => hab.helper h (hbc.helper h hh)⟩

theorem append (hab : Mirrors as bs) (hcd : Mirrors cs ds) : Mirrors (as ++ cs) (bs ++ ds) := by
  refine ⟨fun m hm => ?_, fun h hh => ?_⟩
  · rcases List.mem_append.1 hm with hm | hm
    · exact List.mem_append_left _ (hab.subset hm)
    · exact List.mem_append_right _ (hcd.subset hm)
  · rcases List.mem_append.1 hh with hh | hh
    · exact List.mem_append_left _ (hab.helper h hh)
    · exact List.mem_append_right _ (hcd.helper h hh)

theorem left (h : ∀ k, .helper k ∉ bs) : Mirrors as (as ++ bs) :=
  ⟨List.subset_append_left _ _, fun k hk => (List.mem_append.1 hk).resolve_right (h k)⟩

theorem of_perm (h : as.Perm bs) : Mirrors as bs := ⟨h.subset, fun _ hh => h.mem_iff.2 hh⟩

end Mirrors

namespace Journal

variable {ε α β : Type} {base : List Mention} {x : Journal ε α} {out : α → List Mention}

/-- After some mentions, the work makes those of what it gives. -/
def Accounts (base : List Mention) (x : Journal ε α) (out : α → List Mention) : Prop :=
  ∀ a, x.result = .ok a → Mirrors (out a) (base ++ x.mentions)

namespace Accounts

theorem record {a : α} {ms : List Mention} (h : Mirrors (out a) (base ++ ms)) :
    Accounts base (record a ms : Journal ε α) out := by
  intro b hb
  obtain rfl : a = b := Except.ok.inj hb
  exact h

theorem fail {e : ε} : Accounts base (fail e : Journal ε α) out := by
  intro b hb
  cases hb

theorem note (ms : List Mention) :
    Accounts base (note ms : Journal ε Unit) fun _ => base ++ ms :=
  record (Mirrors.refl _)

theorem mono {out' : α → List Mention} (h : Accounts base x out)
    (hout : ∀ a, Mirrors (out' a) (out a)) : Accounts base x out' :=
  fun a ha => (hout a).trans (h a ha)

theorem frame (h : Accounts [] x out) (base : List Mention) :
    Accounts base x fun a => base ++ out a :=
  fun a ha => (Mirrors.refl base).append (h a ha)

theorem bind {f : α → Journal ε β} {out' : β → List Mention} (hx : Accounts base x out)
    (hf : ∀ a, x.result = .ok a → Accounts (out a) (f a) out') : Accounts base (x.bind f) out' := by
  intro b hb
  obtain ⟨a, ha, hb⟩ := bind_result_ok.1 hb
  rw [bind_of_ok ha, ← List.append_assoc]
  exact (hf a ha b hb).trans ((hx a ha).append (Mirrors.refl _))

theorem traverse {f : α → Journal ε β} {out : β → List Mention} (h : ∀ a, Accounts [] (f a) out)
    (as : List α) : Accounts [] (traverse f as) (List.flatMap out) := by
  induction as with
  | nil => exact record (Mirrors.refl _)
  | cons a as ih =>
    refine (h a).bind fun b _ => (ih.frame (out b)).bind fun bs _ => record ?_
    rw [List.append_nil, List.flatMap_cons]
    exact Mirrors.refl _

end Accounts

end Journal

theorem Conversion.helper_not_mem_mentions (c : Conversion) (h : Helper) :
    .helper h ∉ c.mentions := by
  rw [mentions_eq]
  simp

theorem Expression.helper_not_mem_mentions (e : Expression) (h : Helper) :
    .helper h ∉ e.mentions := by
  intro hm
  rcases List.mem_append.1 hm with hm | hm
  · cases hc : e.cast with
    | none => simp [hc] at hm
    | some t => cases t <;> simp [hc, ElementType.mentions, Literal.mentions] at hm
  · exact e.conversion.helper_not_mem_mentions h hm

/-- A branch of statements whose condition calls no helper. -/
def Block.Silent (b : Branching) : Prop := b.IsLeaf ∧ ∀ t ∈ b.condition.tests, t.mentions = []

theorem Block.silent_test {t : Test} (ht : t.mentions = []) (body : List Action) :
    Block.Silent (.leaf (.test t) body) := by
  refine ⟨trivial, fun u hu => ?_⟩
  obtain rfl := List.mem_singleton.1 hu
  exact ht

namespace Branching

def statementMentions (bs : List Branching) : List Mention :=
  (Block.statementsOf bs).flatMap Action.mentions

def conditionMentions (bs : List Branching) : List Mention := (Block.shown bs).flatMap Test.mentions

theorem statementMentions_append (as bs : List Branching) :
    statementMentions (as ++ bs) = statementMentions as ++ statementMentions bs := by
  rw [statementMentions, Block.statementsOf_append, List.flatMap_append, statementMentions,
    statementMentions]

theorem conditionMentions_cons_cons {b : Branching} (hb : b.IsLeaf) (c : Branching)
    (bs : List Branching) : conditionMentions (b :: c :: bs) =
      b.condition.tests.flatMap Test.mentions ++ conditionMentions (c :: bs) := by
  cases b with
  | leaf k body => simp [conditionMentions, Block.shown, Block.shownInside]
  | nested k bs => exact hb.elim

theorem conditionMentions_cons_of_silent {b : Branching} (hb : b.Silent) (bs : List Branching) :
    conditionMentions (b :: bs) = conditionMentions bs := by
  cases bs with
  | nil =>
    cases b with
    | leaf k body => rfl
    | nested k bs => exact hb.1.elim
  | cons c bs =>
    rw [conditionMentions_cons_cons hb.1, List.flatMap_eq_nil_iff.2 hb.2, List.nil_append]

theorem conditionMentions_of_silent {bs : List Branching} (h : ∀ b ∈ bs, b.Silent) :
    conditionMentions bs = [] := by
  induction bs with
  | nil => rfl
  | cons b bs ih =>
    obtain ⟨hb, hrest⟩ := List.forall_mem_cons.1 h
    rw [conditionMentions_cons_of_silent hb, ih hrest]

end Branching

theorem Mark.helper_not_mem_mentions (mark : Mark) (h : Helper) : .helper h ∉ mark.mentions := by
  cases mark <;> simp [Mark.mentions, Literal.mentions]

theorem Mark.silent (f : Facet) (x : Subject) (mark : Mark) (body : List Action) :
    Block.Silent (.leaf (mark.condition f x) body) := by
  refine ⟨trivial, fun t ht => ?_⟩
  cases mark with
  | property n =>
    obtain rfl : t = .hasMember x (f.memberName n) := List.mem_singleton.1 ht
    rfl
  | constant n l =>
    rcases List.mem_pair.1 (show t ∈ [Test.hasMember x (f.memberName n),
      .memberIs x (f.memberName n) l] from ht) with rfl | rfl <;> rfl
  | properties ns e =>
    rw [Block.condition, condition, Condition.tests, Condition.testsOf_map] at ht
    obtain ⟨n, -, rfl⟩ := List.mem_map.1 ht
    rfl

namespace Service

open Journal Branching

variable {s : Service} {role : Role} {union : String} {x : Subject} {each : Bool}

theorem silent_isObject (x : Subject) (body : List Action) :
    Block.Silent (.leaf (isObject x) body) := by
  refine ⟨trivial, fun t ht => ?_⟩
  rcases List.mem_pair.1 (show t ∈ [Test.hasKind x .object, .isNotNull x] from ht) with rfl | rfl <;>
    rfl

theorem Rest.silent {us : List String} {rest : List Branching}
    (h : Rest s union role x each us rest) : ∀ b ∈ rest, b.Silent := by
  intro b hb
  cases h with
  | none => cases hb
  | single m =>
    obtain rfl := List.mem_singleton.1 hb
    exact silent_isObject x _
  | merged hlen hm =>
    obtain rfl := List.mem_singleton.1 hb
    exact silent_isObject x _

theorem silent_of_mem_recordBranches {names : List String} {bs : List Branching}
    (h : (s.recordBranches union role x each names).result = .ok bs) : ∀ b ∈ bs, b.Silent := by
  intro b hb
  match names with
  | [] =>
    obtain rfl : [] = bs := Except.ok.inj h
    cases hb
  | [m] =>
    rw [recordBranches_single h] at hb
    obtain rfl := List.mem_singleton.1 hb
    exact silent_isObject x _
  | m :: n :: ns =>
    obtain ⟨rest, hrest, rfl⟩ := recordBranches_ok (by simp) h
    rcases List.mem_append.1 hb with hb | hb
    · obtain ⟨-, -, -, mark, -, -, rfl⟩ := exists_mark_of_mem_markedFrom hb
      exact mark.silent _ x _
    · exact hrest.silent b hb

theorem delegate_accounts (n : String) : Accounts [] (delegate role each n) Action.mentions :=
  .record (Mirrors.refl _)

theorem markMembers_accounts (before names : List String) :
    Accounts [] (s.markMembers role x each before names) fun r => statementMentions r.branches := by
  induction names generalizing before with
  | nil => exact .record (Mirrors.refl _)
  | cons m rest ih =>
    have hnotices : ∀ k, .helper k ∉ (Discrimination.notices s m).map Mention.notice := by simp
    rw [markMembers]
    refine ((Accounts.note _).mono fun _ => Mirrors.left hnotices).bind fun _ _ => ?_
    cases s.firstMark (before ++ rest) m with
    | none =>
      refine (ih (before ++ [m])).bind fun r _ => .record ?_
      rw [List.append_nil]
      exact Mirrors.refl _
    | some mark =>
      refine ((Accounts.note _).mono fun _ => Mirrors.left mark.helper_not_mem_mentions).bind
        fun _ _ => ?_
      refine (delegate_accounts m).bind fun a _ => ?_
      refine ((ih (before ++ [m])).frame a.mentions).bind fun r _ => .record ?_
      rw [List.append_nil]
      have hcons : statementMentions (.leaf (mark.condition role.source x) [a] :: r.branches) =
          a.mentions ++ statementMentions r.branches := rfl
      rw [hcons]
      exact Mirrors.refl _

theorem mergeFields_accounts (conflict : RenderError) (fields : List (String × Field))
    (ps : List Property) :
    Accounts ((fields.map Prod.snd).flatMap Field.mentions)
      (s.mergeFields role conflict fields ps) (List.flatMap Field.mentions) := by
  induction ps generalizing fields with
  | nil =>
    refine .record ?_
    rw [List.append_nil]
    exact Mirrors.refl _
  | cons p ps ih =>
    rw [mergeFields]
    refine (Accounts.note _).bind fun _ _ => ?_
    split
    · have hbase := ih (fields ++ [(p.name,
        s.propertyField role { p with value := p.value.asOptional } Action.mergedObject)])
      simpa using hbase
    · split_ifs
      · -- a field that is there already mentions no helper
        exact fun fs hfs => (ih fields fs hfs).trans
          ((Mirrors.left (Expression.helper_not_mem_mentions _)).append (Mirrors.refl _))
      · exact .fail

theorem mergeMembers_accounts (members : List String) :
    Accounts [] (s.mergeMembers union role each members) Action.mentions := by
  unfold mergeMembers
  simp only
  split_ifs
  · exact .fail
  · refine (s.mergeFields_accounts _ [] _).bind fun fields _ => .record ?_
    exact Mirrors.of_perm (List.perm_append_singleton _ _).symm

theorem recordBranches_accounts (names : List String) :
    Accounts [] (s.recordBranches union role x each names) statementMentions := by
  have hsnoc : ∀ (bs : List Branching) (a : Action),
      statementMentions (bs ++ [.leaf (isObject x) [a]]) = statementMentions bs ++ a.mentions := by
    intro bs a
    rw [statementMentions_append]
    simp [statementMentions, Block.statementsOf, Block.statements]
  unfold recordBranches
  split
  · exact .record (Mirrors.refl _)
  · refine (delegate_accounts _).bind fun a _ => .record ?_
    rw [List.append_nil]
    have hone := hsnoc [] a
    rw [List.nil_append] at hone
    rw [hone]
    exact Mirrors.refl _
  · refine (s.markMembers_accounts [] _).bind fun r _ => ?_
    split
    · refine .record ?_
      rw [List.append_nil]
      exact Mirrors.refl _
    · refine ((delegate_accounts _).frame _).bind fun a _ => .record ?_
      rw [List.append_nil, hsnoc]
      exact Mirrors.refl _
    · refine ((s.mergeMembers_accounts _).frame _).bind fun a _ => .record ?_
      rw [List.append_nil, hsnoc]
      exact Mirrors.refl _

end Service

namespace MemberKinds

open Branching

variable {k : MemberKinds} {direction : Direction} {x : Subject} {each : Bool}

theorem primitiveBranches_silent (k : MemberKinds) (x : Subject) :
    ∀ b ∈ k.primitiveBranches x, b.Silent := by
  intro b hb
  rw [primitiveBranches_eq] at hb
  split_ifs at hb
  · cases hb
  · obtain rfl := List.mem_singleton.1 hb
    refine ⟨trivial, fun t ht => ?_⟩
    have htests := Condition.testsOf_map id (k.primitiveTests x)
    rw [List.map_id] at htests
    rw [Block.condition, Condition.tests] at ht
    replace ht : t ∈ k.primitiveTests x := htests ▸ ht
    simp only [primitiveTests, List.mem_append] at ht
    rcases ht with ((ht | ht) | ht) | ht <;> split_ifs at ht
    all_goals simp_all [Test.mentions]

/-- Where formats are checked, text may be something else, and there is a test for that. -/
theorem exists_primitiveBranches (h : k.checksFormats direction = true) (x : Subject) :
    ∃ c, k.primitiveBranches x = [.leaf c [.same]] := by
  have htext : .string ∈ k.primitives := by simp_all [checksFormats]
  have hne : (k.primitiveTests x).isEmpty = false := by
    refine List.isEmpty_eq_false_iff.2 (List.ne_nil_of_mem (a := .hasKind x .string) ?_)
    simp [primitiveTests, htext]
  rw [primitiveBranches_eq, hne]
  exact ⟨_, rfl⟩

theorem dateCondition_mentions (k : MemberKinds) (direction : Direction) (x : Subject) :
    (k.dateCondition direction x).tests.flatMap Test.mentions = k.helpers direction := by
  unfold dateCondition helpers
  cases direction with
  | internalToWire => simp [checksFormats, Condition.tests, Test.mentions]
  | wireToInternal =>
    simp only
    split_ifs
    · simp only [Condition.tests, Condition.testsOf, Condition.testsOf_map, List.append_nil,
        List.flatMap_append, List.flatMap_map]
      exact List.map_eq_flatMap.symm
    · rfl

theorem conditionMentions_eq (k : MemberKinds) (direction : Direction) (x : Subject) (each : Bool)
    {after : List Branching} (hafter : ∀ b ∈ after, b.Silent) :
    conditionMentions (k.dateBranches direction x each ++ (k.primitiveBranches x ++ after)) =
      k.helpers direction := by
  have hothers : ∀ b ∈ k.primitiveBranches x ++ after, b.Silent :=
    List.forall_mem_append.2 ⟨k.primitiveBranches_silent x, hafter⟩
  by_cases hformats : k.checksFormats direction = true
  · have hdates : k.dates.isEmpty = false := by simp_all [checksFormats]
    obtain ⟨c, hc⟩ := exists_primitiveBranches hformats x
    rw [hc, List.singleton_append] at hothers
    have hleaf : Block.IsLeaf (.leaf (k.dateCondition direction x)
        [Action.convert ⟨dateChange direction (!k.dates.contains .dateTime), each⟩]) := trivial
    rw [dateBranches, hdates, hc, if_neg (by simp), List.singleton_append, List.singleton_append,
      conditionMentions_cons_cons hleaf, Block.condition, dateCondition_mentions,
      conditionMentions_of_silent hothers, List.append_nil]
  · have hnone : k.helpers direction = [] := by simp [helpers, hformats]
    have hdate : ∀ b ∈ k.dateBranches direction x each, b.Silent := by
      intro b hb
      unfold dateBranches at hb
      split_ifs at hb
      · cases hb
      · obtain rfl := List.mem_singleton.1 hb
        refine ⟨trivial, fun t ht => ?_⟩
        have hmentions := k.dateCondition_mentions direction x
        rw [hnone, List.flatMap_eq_nil_iff] at hmentions
        exact hmentions t ht
    rw [hnone]
    exact conditionMentions_of_silent (List.forall_mem_append.2 ⟨hdate, hothers⟩)

/-- Dates and primitives are converted without anything from outside. -/
theorem statementMentions_dateBranches (k : MemberKinds) (direction : Direction) (x : Subject)
    (each : Bool) : statementMentions (k.dateBranches direction x each) = [] := by
  unfold dateBranches dateChange
  split_ifs
  · rfl
  · cases direction <;> rfl

theorem statementMentions_primitiveBranches (k : MemberKinds) (x : Subject) :
    statementMentions (k.primitiveBranches x) = [] := by
  unfold primitiveBranches
  split <;> rfl

end MemberKinds

namespace Service

open Journal Branching

variable {s : Service} {role : Role} {union : String} {each : Bool}

/-- The branches of one form mention in their conditions the formats that are checked, and in their
statements what those of records do. -/
theorem mentions_memberBranches (s : Service) (role : Role) (each : Bool) (members : List Value)
    {records : List Branching} (hrecords : ∀ b ∈ records, b.Silent) :
    Branching.mentions ((if each && 1 < members.length then [.leaf (.test .isEmpty) [.empty]] else []) ++
      (s.memberKinds members).dateBranches role.direction (subject each) each ++
      (s.memberKinds members).primitiveBranches (subject each) ++ records ++
      (if (s.memberKinds members).passes then [.leaf (.test .always) [.same]] else [])) =
    (s.memberKinds members).helpers role.direction ++ statementMentions records := by
  generalize hk : s.memberKinds members = k
  generalize hpass : (if k.passes then [Block.leaf (.test Test.always) [Action.same]] else []) = pass
  have hafter : ∀ b ∈ records ++ pass, b.Silent := by
    refine List.forall_mem_append.2 ⟨hrecords, fun b hb => ?_⟩
    rw [← hpass] at hb
    split_ifs at hb
    · obtain rfl := List.mem_singleton.1 hb
      exact Block.silent_test rfl _
    · cases hb
  have hempty : Block.Silent (.leaf (.test .isEmpty) [.empty]) := Block.silent_test rfl _
  have hconditions := k.conditionMentions_eq role.direction (subject each) each hafter
  have hstatements : statementMentions pass = [] := by
    rw [← hpass]
    split_ifs <;> rfl
  have hall : statementMentions (k.dateBranches role.direction (subject each) each ++
      (k.primitiveBranches (subject each) ++ (records ++ pass))) = statementMentions records := by
    simp only [statementMentions_append, MemberKinds.statementMentions_dateBranches,
      MemberKinds.statementMentions_primitiveBranches, hstatements, List.nil_append, List.append_nil]
  change conditionMentions _ ++ statementMentions _ = _
  simp only [List.append_assoc]
  split_ifs
  · have hfirst : statementMentions [.leaf (.test .isEmpty) [.empty]] = [] := rfl
    rw [statementMentions_append, hfirst, hall, List.singleton_append,
      conditionMentions_cons_of_silent hempty, hconditions, List.nil_append]
  · rw [List.nil_append, hconditions, hall]

theorem memberBranches_accounts (members : List Value) :
    Accounts [] (s.memberBranches union role each members) Branching.mentions := by
  unfold memberBranches
  refine (Accounts.note _).bind fun _ _ => ?_
  refine ((s.recordBranches_accounts _).frame _).bind fun records hrecords => .record ?_
  rw [List.append_nil, List.nil_append]
  have hmentions := s.mentions_memberBranches role each members
    (silent_of_mem_recordBranches hrecords)
  exact hmentions ▸ Mirrors.refl _

theorem formBranches_accounts (members : List Value) :
    Accounts [] (s.formBranches union role each members) Branching.mentions := by
  unfold formBranches
  split
  · exact .record (Mirrors.refl _)
  · refine (s.memberBranches_accounts members).bind fun bs _ => .record ?_
    have hnested : Branching.mentions
        [.nested (.test (if each then .isArray else .isNoArray)) bs] = Branching.mentions bs := by
      simp [Branching.mentions, Block.shown, Block.shownInside, Block.statementsOf, Block.statements]
    rw [hnested, List.append_nil]
    exact Mirrors.refl _

theorem mentions_forms {as bs : List Branching}
    (ha : as = [] ∨ ∃ inner, as = [.nested (.test .isArray) inner]) :
    Mirrors (Branching.mentions (as ++ bs)) (Branching.mentions as ++ Branching.mentions bs) := by
  rcases ha with rfl | ⟨inner, rfl⟩
  · exact Mirrors.refl _
  · cases bs with
    | nil => simpa [Branching.mentions, Block.shown, Block.statementsOf] using Mirrors.refl _
    | cons b bs =>
      -- the test for an array calls nothing
      have hboth : Branching.mentions ([.nested (.test .isArray) inner] ++ b :: bs) =
          conditionMentions inner ++ (conditionMentions (b :: bs) ++
            (statementMentions inner ++ statementMentions (b :: bs))) := by
        simp [Branching.mentions, conditionMentions, statementMentions, Block.shown,
          Block.shownInside, Block.statementsOf, Block.statements, Block.condition, Condition.tests,
          Test.mentions]
      have hinner : Branching.mentions [.nested (.test .isArray) inner] =
          conditionMentions inner ++ statementMentions inner := by
        simp [Branching.mentions, conditionMentions, statementMentions, Block.shown,
          Block.shownInside, Block.statementsOf, Block.statements]
      rw [hboth, hinner, List.append_assoc]
      exact .of_perm (List.perm_append_comm_assoc _ _ _ |>.append_left _)

theorem simpleBody_accounts (members : List Value) :
    Accounts [] (s.simpleBody union role members) UnionBody.mentions := by
  unfold simpleBody
  refine (s.formBranches_accounts _).bind fun arrays harrays => ?_
  refine ((s.formBranches_accounts _).frame _).bind fun others hothers => ?_
  split_ifs with hempty
  · obtain rfl := List.isEmpty_iff.1 hempty
    obtain rfl := formBranches_nil harrays
    obtain rfl := formBranches_nil hothers
    exact .record (Mirrors.refl _)
  · refine .record ?_
    rw [List.append_nil]
    refine mentions_forms ?_
    by_cases hnone : members.filter (·.isArray) = []
    · rw [hnone] at harrays
      exact .inl (formBranches_nil harrays)
    · obtain ⟨inner, -, rfl⟩ := formBranches_ok hnone harrays
      exact .inr ⟨inner, rfl⟩

theorem switchCases_accounts (discriminator : String) (members : List Reference) :
    Accounts [] (s.switchCases union role discriminator members)
      fun cs => cs.map fun c => .mapper c.mapper := by
  unfold switchCases
  simp only [List.map_eq_flatMap]
  refine Accounts.traverse (fun r => ?_) members
  cases s.discriminatorValue? discriminator r.name with
  | none => exact .fail
  | some l =>
    have hnumerals : ∀ k, .helper k ∉ l.mentions := by simp [Literal.mentions]
    exact .record (Mirrors.left hnumerals)

/-- A union mapper mentions what was mentioned while it was built, and calls each helper that was. -/
theorem unionMapper_accounts (s : Service) (role : Role) (u : UnionDecl) :
    Accounts [] (s.unionMapper role u) UnionMapper.mentions := by
  unfold unionMapper
  refine (Accounts.note _).bind fun _ _ => ?_
  split
  · refine ((s.simpleBody_accounts _).frame _).bind fun body _ => .record ?_
    rw [List.append_nil]
    exact Mirrors.refl _
  · refine ((s.switchCases_accounts _ _).frame _).bind fun cs _ => .record ?_
    rw [List.append_nil]
    exact Mirrors.refl _

end Service

end DtoGen
