import DtoGen.Proofs.Collection
import DtoGen.Proofs.Constant
import DtoGen.Proofs.Execution
import DtoGen.Proofs.UnionMapper

namespace DtoGen

/-- Constants that stand alone: neither in an array, nor beside null, nor a `nan`. -/
def TypeDecl.PlainConstants (t : TypeDecl) : Prop :=
  ∀ p ∈ t.properties, ∀ c, p.value.constant? = some c →
    p.value.isNullable = false ∧ p.value.isArray = false ∧ c.isNan = false

namespace Discrimination

theorem decisive_of_plain {t : TypeDecl} {others : List TypeDecl} {name : String} {c : Literal}
    (hm : .constant name c ∈ constantMarks t others) (ht : t.PlainConstants)
    (hos : ∀ o ∈ others, o.PlainConstants) : Decisive t others name c := by
  obtain ⟨⟨p, hp, hname, hreq, hc⟩, -⟩ := mem_constantMarks hm
  obtain ⟨hnull, harr, hnan⟩ := ht p hp c hc
  refine ⟨⟨p, hp, hname, hreq, hc, harr, fun h => by simp [hnull] at h⟩, hnan, ?_⟩
  intro _ o ho q hq _ hqc
  obtain ⟨l, hl⟩ := Option.isSome_iff_exists.1 hqc
  exact (hos o ho q hq l hl).1

/-- Among records with plain constants, a mark is found on every instance of the member and on no
instance of another record. -/
theorem holds_of_mark {s : Service} {member : String} {others : List String} {t : TypeDecl}
    (ht : s.type? member = some t) (hplain : t.PlainConstants)
    (hos : ∀ o ∈ records s others, o.PlainConstants) {m : Mark}
    (hm : m ∈ marks s member others) :
    (∀ x, t.Instance x → m.holds .wire x = true) ∧
      ∀ o ∈ records s others, ∀ x, o.Instance x → m.holds .wire x = false := by
  cases hp : m.presence? with
  | some names =>
    obtain ⟨hreq, hmiss⟩ := presence_mark ht hm hp
    refine ⟨fun x hx => (Mark.holds_iff_of_presence hp).2 fun n hn => hx.required n (hreq n hn),
      fun o ho x hx => ?_⟩
    obtain ⟨hclosed, hex⟩ := hmiss o ho
    rw [Mark.holds_eq_false_iff_of_presence hp]
    exact (TypeDecl.forall_shaped_missing_iff hclosed).2 hex x hx.toShaped
  | none =>
    obtain ⟨n, c, rfl⟩ : ∃ n c, m = .constant n c := by cases m <;> simp_all [Mark.presence?]
    have hcm := constant_mark ht hm
    obtain ⟨hyes, hno⟩ := decides_of_decisive hcm (decisive_of_plain hcm hplain hos)
    refine ⟨fun x hx => ?_, fun o ho x hx => ?_⟩
    · obtain ⟨d, hd, heq⟩ := hyes x hx
      simpa [Mark.holds, Facet.memberName, hd] using heq
    · cases hd : x.lookup n with
      | none => simp [Mark.holds, Facet.memberName, hd]
      | some d => simpa [Mark.holds, Facet.memberName, hd] using hno o ho x hx d hd

end Discrimination

namespace Service

def IsPlainRecord (s : Service) (n : String) : Prop :=
  ∃ t, s.type? n = some t ∧ t.PlainConstants

theorem plain_of_mem_collectRecords {s : Service} {names : List String}
    (h : ∀ n ∈ names, s.IsPlainRecord n) {o : TypeDecl} (ho : o ∈ s.collectRecords names) :
    o.PlainConstants := by
  obtain ⟨n, hn, ht⟩ := List.mem_filterMap.1 ho
  have hmem : n ∈ names := by
    refine mem_of_mem_closure (fun m hm => ?_) hn
    obtain ⟨t, ht, -⟩ := h m hm
    simp [nestedMembers, ht]
  obtain ⟨t, ht', hplain⟩ := h n hmem
  obtain rfl : t = o := by simpa [ht'] using ht
  exact hplain

section Marks

variable {s : Service} {n : String} {t : TypeDecl} {x : Members}

theorem firstMark_holds (ht : s.type? n = some t) (hplain : t.PlainConstants) (hx : t.Instance x)
    {others : List String} (hos : ∀ m ∈ others, s.IsPlainRecord m) {mark : Mark}
    (h : s.firstMark others n = some mark) : mark.holds .wire x = true := by
  refine (Discrimination.holds_of_mark ht hplain ?_ (List.mem_of_mem_head? h)).1 x hx
  exact fun o ho => plain_of_mem_collectRecords hos (mem_records_collectRecords.1 ho)

theorem firstMark_holds_other (ht : s.type? n = some t) (hx : t.Instance x) {others : List String}
    (hn : n ∈ others) (hos : ∀ m ∈ others, s.IsPlainRecord m) {member : String}
    (hm : s.IsPlainRecord member) {mark : Mark} (h : s.firstMark others member = some mark) :
    mark.holds .wire x = false := by
  obtain ⟨o, ho, hplain⟩ := hm
  refine (Discrimination.holds_of_mark ho hplain ?_ (List.mem_of_mem_head? h)).2 t ?_ x hx
  · exact fun o ho => plain_of_mem_collectRecords hos (mem_records_collectRecords.1 ho)
  · exact mem_records_collectRecords.2 (mem_collectRecords hn ht)

/-- A member that was seen before has no mark: it cannot be told from itself. -/
theorem mem_unmarkedFrom_of_mem_before (ht : s.type? n = some t) (hplain : t.PlainConstants)
    (hx : t.Instance x) {before names : List String} (hb : n ∈ before) (hn : n ∈ names)
    (hall : ∀ m ∈ before ++ names, s.IsPlainRecord m) : n ∈ s.unmarkedFrom before names := by
  induction names generalizing before with
  | nil => simp at hn
  | cons m rest ih =>
    have hrest : n ∈ rest → n ∈ s.unmarkedFrom (before ++ [m]) rest := fun h =>
      ih (List.mem_append_left _ hb) h (by simpa using hall)
    unfold unmarkedFrom
    cases hmark : s.firstMark (before ++ rest) m with
    | none =>
      rcases List.mem_cons.1 hn with rfl | hn
      · simp
      · exact List.mem_cons_of_mem m (hrest hn)
    | some mark =>
      rcases List.mem_cons.1 hn with rfl | hn
      · -- a mark would have to hold of the instance and to fail on it
        have hos : ∀ k ∈ before ++ rest, s.IsPlainRecord k := fun k hk => hall k (by grind)
        have htrue := firstMark_holds ht hplain hx hos hmark
        have hfalse := firstMark_holds_other ht hx (List.mem_append_left _ hb) hos
          ⟨t, ht, hplain⟩ hmark
        simp [htrue] at hfalse
      · exact hrest hn

end Marks

theorem mem_of_mem_unmarkedFrom {s : Service} {n : String} {before names : List String}
    (h : n ∈ s.unmarkedFrom before names) : n ∈ names := by
  induction names generalizing before with
  | nil => simp [unmarkedFrom] at h
  | cons m rest ih =>
    unfold unmarkedFrom at h
    split at h
    · exact List.mem_cons.2 ((List.mem_cons.1 h).imp_right ih)
    · exact List.mem_cons_of_mem m (ih h)

section Run

variable {s : Service} {role : Role} {subj : Subject} {each : Bool} {env : Runtime} {v : Datum}
  {n : String} {t : TypeDecl} {x : Members}

/-- The marks of members other than one already seen are not found on its instances. -/
theorem markedFrom_condition_false (hrole : role.direction = .wireToInternal)
    (hread : subj.read v = some (.object x)) (ht : s.type? n = some t) (hx : t.Instance x)
    {before names : List String} (hb : n ∈ before)
    (hall : ∀ m ∈ before ++ names, s.IsPlainRecord m) {b : Branching}
    (h : b ∈ s.markedFrom role subj each before names)
    (hf : ∀ t ∈ b.condition.tests, t.Faithful) :
    b.condition.run (Test.run env v) = some false := by
  induction names generalizing before with
  | nil => simp [markedFrom] at h
  | cons m rest ih =>
    have hrest : b ∈ s.markedFrom role subj each (before ++ [m]) rest →
        b.condition.run (Test.run env v) = some false :=
      ih (List.mem_append_left _ hb) (by simpa using hall)
    unfold markedFrom at h
    cases hmark : s.firstMark (before ++ rest) m with
    | none => exact hrest (by simpa [hmark] using h)
    | some mark =>
      rw [hmark] at h
      rcases List.mem_cons.1 h with rfl | h
      · have hsource : role.source = .wire := congrArg Direction.source hrole
        have hfalse := firstMark_holds_other ht hx (List.mem_append_left rest hb)
          (fun k hk => hall k (by grind)) (hall m (by simp)) hmark
        rw [Block.condition] at hf ⊢
        rw [Mark.condition_run hread hf, hsource, hfalse]
      · exact hrest h

/-- On an instance of a member the chain skips to the rest if the member has no mark, and else calls
its mapper. -/
theorem run_markedFrom (hrole : role.direction = .wireToInternal)
    (hread : subj.read v = some (.object x)) (ht : s.type? n = some t) (hplain : t.PlainConstants)
    (hx : t.Instance x) {before names : List String} (hn : n ∈ names)
    (hall : ∀ m ∈ before ++ names, s.IsPlainRecord m) (rest : List Branching)
    (hf : ∀ t ∈ Block.written (s.markedFrom role subj each before names ++ rest), t.Faithful) :
    (n ∈ s.unmarkedFrom before names → rest ≠ [] →
      Block.run (Test.run env v) (s.markedFrom role subj each before names ++ rest) =
        Block.run (Test.run env v) rest) ∧
    (n ∉ s.unmarkedFrom before names →
      Block.run (Test.run env v) (s.markedFrom role subj each before names ++ rest) =
        some [call role each n]) := by
  have hsource : role.source = .wire := congrArg Direction.source hrole
  -- on the members not yet seen: the branches before that of `n` fail, and those after it do not matter
  induction names generalizing before with
  | nil => simp at hn
  | cons m names ih =>
    have hall' : ∀ k ∈ (before ++ [m]) ++ names, s.IsPlainRecord k := by simpa using hall
    have hos : ∀ k ∈ before ++ names, s.IsPlainRecord k := fun k hk => hall k (by grind)
    unfold markedFrom at hf
    unfold markedFrom unmarkedFrom
    cases hmark : s.firstMark (before ++ names) m with
    | none =>
      rw [hmark] at hf
      by_cases hin : n ∈ names
      · obtain ⟨ihskip, ihcall⟩ := ih hin hall' hf
        refine ⟨fun hu => ihskip ?_, fun hu => ihcall fun h => hu (List.mem_cons_of_mem m h)⟩
        rcases List.mem_cons.1 hu with rfl | hu
        · exact mem_unmarkedFrom_of_mem_before ht hplain hx (by simp) hin hall'
        · exact hu
      · obtain rfl : n = m := by simpa [hin] using hn
        refine ⟨fun _ hne => ?_, fun hu => absurd (List.mem_cons_self) hu⟩
        refine Block.run_append_of_false (fun b hb => ?_) hne
        refine markedFrom_condition_false hrole hread ht hx (by simp) hall' hb fun u hu => hf u ?_
        exact Block.tests_subset_written hb hne hu
    | some mark =>
      rw [hmark, List.cons_append] at hf
      -- the condition is written only where another block follows
      have hcond : s.markedFrom role subj each (before ++ [m]) names ++ rest ≠ [] →
          (Block.leaf (mark.condition role.source subj) [call role each m]).condition.run
            (Test.run env v) = some (mark.holds .wire x) := by
        intro hne
        rw [Block.condition, Mark.condition_run hread fun u hu => hf u ?_, hsource]
        rw [Block.written_cons hne]
        exact List.mem_append_left _ (List.mem_append_left _ hu)
      by_cases hin : n ∈ names
      · have hfalse := firstMark_holds_other ht hx (List.mem_append_right before hin) hos
          (hall m (by simp)) hmark
        rw [hfalse] at hcond
        obtain ⟨ihskip, ihcall⟩ := ih hin hall' fun u hu => hf u (Block.written_subset_cons _ _ hu)
        refine ⟨fun hu hne => ?_, fun hu => ?_⟩
        · have hne' : s.markedFrom role subj each (before ++ [m]) names ++ rest ≠ [] := by simp [hne]
          rw [List.cons_append, Block.run_cons_false (hcond hne') hne']
          exact ihskip hu hne
        · have hcall := ihcall hu
          have hne := Block.ne_nil_of_run hcall
          rw [List.cons_append, Block.run_cons_false (hcond hne) hne]
          exact hcall
      · obtain rfl : n = m := by simpa [hin] using hn
        rw [firstMark_holds ht hplain hx hos hmark] at hcond
        refine ⟨fun hu => absurd (mem_of_mem_unmarkedFrom hu) hin, fun _ => ?_⟩
        rw [List.cons_append, Block.run_cons_of_true hcond, Block.enter]

theorem unmarked_single (s : Service) (n : String) : n ∉ s.unmarked [n] ∨ s.unmarked [n] = [n] := by
  simp only [unmarked, unmarkedFrom]
  split <;> simp

/-- What is done with an instance of a member: its own mapper is called if it has a mark or is the
only member without one, else the members without a mark are merged. -/
inductive Chosen (s : Service) (union : String) (role : Role) (each : Bool) (names : List String)
    (n : String) : Action → Prop where
  | own (h : n ∉ s.unmarked names ∨ s.unmarked names = [n]) :
    Chosen s union role each names n (call role each n)
  | merged {fields : List Field} (hn : n ∈ s.unmarked names) (hne : s.unmarked names ≠ [n])
    (hm : (s.mergeMembers union role each (s.unmarked names)).result = .ok (.merge fields)) :
    Chosen s union role each names n (.merge fields)

theorem run_recordBranches {union : String} {names : List String} {bs : List Branching}
    (hrole : role.direction = .wireToInternal)
    (hbs : (s.recordBranches union role subj each names).result = .ok bs)
    (hread : subj.read v = some (.object x)) (hn : n ∈ names)
    (hall : ∀ m ∈ names, s.IsPlainRecord m) (ht : s.type? n = some t) (hx : t.Instance x)
    (hf : ∀ t ∈ Block.written bs, t.Faithful) :
    ∃ a, Block.run (Test.run env v) bs = some [a] ∧ Chosen s union role each names n a := by
  have hplain : t.PlainConstants := by
    obtain ⟨t', ht', hplain⟩ := hall n hn
    obtain rfl : t' = t := by simpa [ht'] using ht
    exact hplain
  by_cases hlen : 2 ≤ names.length
  · obtain ⟨rest, hrest, rfl⟩ := recordBranches_ok hlen hbs
    have hskip : n ∈ s.unmarked names → rest ≠ [] →
        Block.run (Test.run env v) (s.markedFrom role subj each [] names ++ rest) =
          Block.run (Test.run env v) rest :=
      (run_markedFrom hrole hread ht hplain hx hn (by simpa using hall) rest hf).1
    have hcall : n ∉ s.unmarked names →
        Block.run (Test.run env v) (s.markedFrom role subj each [] names ++ rest) =
          some [call role each n] :=
      (run_markedFrom hrole hread ht hplain hx hn (by simpa using hall) rest hf).2
    by_cases hu : n ∈ s.unmarked names
    · generalize hus : s.unmarked names = us at hrest hu
      cases hrest with
      | none => simp at hu
      | single m =>
        obtain rfl : n = m := by simpa using hu
        refine ⟨call role each n, ?_, .own (Or.inr hus)⟩
        rw [hskip (hus ▸ hu) (by simp), Block.run_leaf]
      | merged hlen hm =>
        refine ⟨_, ?_, .merged (hus ▸ hu) ?_ (hus ▸ hm)⟩
        · rw [hskip (hus ▸ hu) (by simp), Block.run_leaf]
        · rw [hus]
          rintro rfl
          simp at hlen
    · exact ⟨_, hcall hu, .own (Or.inl hu)⟩
  · obtain rfl : names = [n] := by
      obtain _ | ⟨m, _ | ⟨k, ms⟩⟩ := names
      · simp at hn
      · simpa [eq_comm] using hn
      · simp at hlen
    refine ⟨call role each n, ?_, .own (unmarked_single s n)⟩
    rw [recordBranches_single hbs, Block.run_leaf]

end Run

end Service

end DtoGen
