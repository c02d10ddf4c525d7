import DtoGen.Proofs.Constant
import DtoGen.Proofs.Switch

namespace DtoGen

namespace Discrimination

section Order

variable {names : List String} {sets sets' others others' : List (List String)}

theorem hitsAll_perm (h : sets.Perm sets') : hitsAll sets = hitsAll sets' :=
  funext fun _ => h.all_eq

theorem best?_perm (h : sets.Perm sets') : best? names sets = best? names sets' := by
  have hscore : score sets = score sets' := funext fun _ => h.countP_eq _
  have hbetter : better sets = better sets' := by
    funext b n
    simp only [better, hscore]
  rw [best?, best?, hbetter]

/-- The sets that a name leaves unmet may come in another order, but the same name is chosen next. -/
theorem greedyChoice_perm (h : sets.Perm sets') :
    greedyChoice names sets = greedyChoice names sets' := by
  induction sets using greedyChoice.induct names generalizing sets' with
  | case1 sets hs =>
    obtain rfl := List.isEmpty_iff.1 hs
    rw [h.nil_eq]
  | case2 sets hs hb =>
    have hb' : best? names sets' = none := by rw [← best?_perm h, hb]
    have hs : sets ≠ [] := by simpa using hs
    have hs' : sets' ≠ [] := fun hnil => hs (hnil ▸ h).eq_nil
    rw [greedyChoice_eq_none hs hb, greedyChoice_eq_none hs' hb']
  | case3 sets hs n hb hlt ih =>
    have hb' : best? names sets' = some n := by rw [← best?_perm h, hb]
    have hrest : (unmet n sets).Perm (unmet n sets') := h.filter _
    rw [greedyChoice_eq_map hb, greedyChoice_eq_map hb', ih hrest]

theorem distinguishingSubset_perm (h : others.Perm others') :
    distinguishingSubset names others = distinguishingSubset names others' := by
  have hsets : (complements names others).Perm (complements names others') := h.map _
  have hgreedy : greedyHit names (complements names others) =
      greedyHit names (complements names others') := by
    rw [greedyHit, greedyHit, greedyChoice_perm hsets]
  have hsmallest : smallestHit names (complements names others) =
      smallestHit names (complements names others') := by
    rw [smallestHit, smallestHit, hitsAll_perm hsets]
  rw [distinguishingSubset_eq, distinguishingSubset_eq, hsets.any_eq, hsets.isEmpty_eq, hgreedy,
    hsmallest]

end Order

section Others

variable {t : TypeDecl} {others others' : List TypeDecl}

theorem propertyMarks_perm (h : others.Perm others') :
    propertyMarks t others = propertyMarks t others' := by
  have hdeclared : ∀ n, others.any (·.declares n) = others'.any (·.declares n) := fun n => h.any_eq
  rw [propertyMarks, propertyMarks, h.any_eq]
  simp only [hdeclared]

theorem constantMarks_perm (h : others.Perm others') :
    constantMarks t others = constantMarks t others' := by
  have hexcluded : ∀ c : String × Literal,
      others.all (excludedBy c.1 c.2) = others'.all (excludedBy c.1 c.2) := fun c => h.all_eq
  rw [constantMarks, constantMarks, h.any_eq]
  simp only [hexcluded]

theorem setMarks_perm (h : others.Perm others') : setMarks t others = setMarks t others' := by
  unfold setMarks
  simp only [distinguishingSubset_perm (h.map _)]

end Others

/-- The marks of a member, with their order and all that they say, do not depend on the order in which
the others are listed. -/
theorem marks_perm (s : Service) (member : String) {others others' : List String}
    (h : others.Perm others') : marks s member others = marks s member others' := by
  have hrecords : (records s others).Perm (records s others') := h.filterMap _
  unfold marks
  cases s.type? member with
  | none => rfl
  | some t =>
    dsimp only
    rw [propertyMarks_perm hrecords, constantMarks_perm hrecords, setMarks_perm hrecords]

/-- A record with more names than can be tried, and two that have about half of them each. -/
def halves : Service where
  title := "halves"
  types :=
    [Service.textRecord "whole" (firstHalf ++ "i" :: secondHalf),
     Service.textRecord "left" (firstHalf ++ ["i"]), Service.textRecord "right" ("i" :: secondHalf)]
where
  firstHalf := ["a", "b", "c", "d", "e", "f", "g", "h"]
  secondHalf := ["j", "k", "l", "m", "n", "o", "p", "q"]

theorem halves_marks : ["left", "right"].Perm ["right", "left"] ∧
    marks halves "whole" ["left", "right"] = marks halves "whole" ["right", "left"] ∧
    .properties ["a", "j"] false ∈ marks halves "whole" ["right", "left"] := by
  have hperm : ["left", "right"].Perm ["right", "left"] := .swap _ _ _
  refine ⟨hperm, marks_perm halves "whole" hperm, ?_⟩
  have hmarks : marks halves "whole" ["right", "left"] = [.properties ["a", "j"] false] := by
    decide +kernel
  rw [hmarks]
  exact List.mem_singleton_self _

end Discrimination

theorem Literal.strictEq_self_of_datum_eq {c : Literal} {d : Datum} (hc : c.isNan = false)
    (h : d = c.datum) : d.strictEq c.datum = true := by
  rw [h, datum_strictEq_self, hc]
  rfl

/-- All that is found in one object is found in the other. -/
def Members.Extends (y x : Members) : Prop := ∀ k d, x.lookup k = some d → y.lookup k = some d

/-- A mark that is found on an object is found on all larger ones. -/
theorem Mark.holds_of_extends {x y : Members} (hxy : y.Extends x) {f : Facet} {m : Mark}
    (h : m.holds f x = true) : m.holds f y = true := by
  have hhas : ∀ k, x.has k = true → y.has k = true := by
    intro k hk
    obtain ⟨d, hd⟩ := Members.has_iff.1 hk
    exact Members.has_iff.2 ⟨d, hxy k d hd⟩
  cases m with
  | property n => exact hhas _ h
  | constant n c =>
    simp only [holds, Option.any_eq_true] at h ⊢
    obtain ⟨d, hd, heq⟩ := h
    exact ⟨d, hxy _ d hd, heq⟩
  | properties ns e =>
    simp only [holds, List.all_eq_true] at h ⊢
    exact fun n hn => hhas _ (h n hn)

theorem Members.lookup_map {ns : List String} {f : String → Datum} {k : String} {d : Datum} :
    List.lookup k (ns.map fun n => (n, f n)) = some d ↔ k ∈ ns ∧ f k = d := by
  constructor
  · intro h
    obtain ⟨n, hn, he⟩ := List.mem_map.1 (Assoc.mem_of_lookup h)
    obtain ⟨rfl, rfl⟩ := Prod.mk.inj he
    exact ⟨hn, rfl⟩
  · rintro ⟨hk, rfl⟩
    exact Assoc.lookup_map_of_mem (fun _ _ heq => heq) hk

namespace TypeDecl

/-- No constant stands in an array or beside null. -/
def Plain (t : TypeDecl) : Prop :=
  ∀ p ∈ t.properties, p.value.constant?.isSome = true →
    p.value.isArray = false ∧ p.value.isNullable = false

def NanFree (t : TypeDecl) : Prop :=
  ∀ p ∈ t.properties, ∀ c ∈ p.value.constant?, c.isNan = false

def Allows (ps : List Property) (name : String) (d : Datum) : Prop :=
  ∀ p ∈ ps, p.name = name → ∀ c, p.value.constant? = some c → d = c.datum

/-- Two constants under a name that stand for different values. -/
def Conflict (ps : List Property) (name : String) : Prop :=
  ∃ p ∈ ps, ∃ q ∈ ps, p.name = name ∧ q.name = name ∧ ∃ c d, p.value.constant? = some c ∧
    q.value.constant? = some d ∧ c.datum ≠ d.datum

theorem exists_allows_iff {ps : List Property} {name : String} :
    (∃ d, Allows ps name d) ↔ ¬ Conflict ps name := by
  constructor
  · rintro ⟨d, hd⟩ ⟨p, hp, q, hq, hpn, hqn, c, e, hc, he, hne⟩
    exact hne ((hd p hp hpn c hc).symm.trans (hd q hq hqn e he))
  · intro h
    by_cases hsome : ∃ p ∈ ps, p.name = name ∧ ∃ c, p.value.constant? = some c
    · obtain ⟨p, hp, hpn, c, hc⟩ := hsome
      refine ⟨c.datum, fun q hq hqn e he => ?_⟩
      by_contra hne
      exact h ⟨p, hp, q, hq, hpn, hqn, c, e, hc, he, hne⟩
    · exact ⟨.null, fun p hp hpn c hc => absurd ⟨p, hp, hpn, c, hc⟩ hsome⟩

theorem Allows.mono {ps qs : List Property} {name : String} {d : Datum} (h : Allows qs name d)
    (hsub : ∀ p ∈ ps, p ∈ qs) : Allows ps name d :=
  fun p hp => h p (hsub p hp)

theorem instance_iff {t : TypeDecl} (hplain : t.Plain) {x : Members} :
    t.Instance x ↔ t.Shaped .wire x ∧ ∀ n d, x.lookup n = some d → Allows t.properties n d := by
  have hholds : ∀ p ∈ t.properties, ∀ c, p.value.constant? = some c → ∀ d,
      p.value.Holds c d ↔ d = c.datum := by
    intro p hp c hc d
    obtain ⟨harray, hnull⟩ := hplain p hp (by simp [hc])
    simp [Value.Holds, harray, hnull]
  constructor
  · rintro ⟨hshaped, hconstants⟩
    refine ⟨hshaped, fun n d hd p hp hpn c hc => ?_⟩
    exact (hholds p hp c hc d).1 (hconstants p hp c hc d (hpn ▸ hd))
  · rintro ⟨hshaped, hallowed⟩
    refine ⟨hshaped, fun p hp c hc d hd => ?_⟩
    exact (hholds p hp c hc d).2 (hallowed p.name d hd p hp rfl c hc)

/-- Any allowed values under the required names, and under others that may be there. -/
theorem instance_map {t : TypeDecl} (hplain : t.Plain) {ns : List String} {f : String → Datum}
    (hrequired : ∀ n ∈ t.requiredNames, n ∈ ns)
    (hdeclared : t.mapClause = none → ∀ n ∈ ns, t.declares n = true)
    (hallowed : ∀ n ∈ ns, Allows t.properties n (f n)) :
    t.Instance (ns.map fun n => (n, f n)) := by
  rw [instance_iff hplain]
  refine ⟨⟨fun n hn => ?_, fun hc k hk => ?_⟩, fun n d hd => ?_⟩
  · exact Members.has_iff.2 ⟨f n, Members.lookup_map.2 ⟨hrequired n hn, rfl⟩⟩
  · obtain ⟨d, hd⟩ := Members.has_iff.1 hk
    exact declares_iff.1 (hdeclared hc k (Members.lookup_map.1 hd).1)
  · obtain ⟨hn, rfl⟩ := Members.lookup_map.1 hd
    exact hallowed n hn

theorem not_conflict_of_unrepeated {t : TypeDecl} (h : t.Unrepeated) (name : String) :
    ¬ Conflict t.properties name := by
  rintro ⟨p, hp, q, hq, hpn, hqn, c, d, hc, hd, hne⟩
  obtain rfl := List.inj_on_of_nodup_map h hp hq (hpn.trans hqn.symm)
  exact hne (by rw [Option.some.inj (hc.symm.trans hd)])

theorem lookup_constantsOf {ps : List Property} (hn : (ps.map (·.name)).Nodup) {p : Property}
    (hp : p ∈ ps) {c : Literal} (hc : p.value.constant? = some c) :
    (constantsOf ps).lookup p.name = some c := by
  have hmem : (p.name, c) ∈ ps.filterMap fun p => p.value.constant?.map fun l => (p.name, l) :=
    List.mem_filterMap.2 ⟨p, hp, by simp [hc]⟩
  refine Assoc.lookup_ofList_of_mem (fun e he e' he' hkey => ?_) hmem
  obtain ⟨q, hq, heq⟩ := List.mem_filterMap.1 he
  obtain ⟨q', hq', heq'⟩ := List.mem_filterMap.1 he'
  obtain ⟨l, hl, rfl⟩ := Option.map_eq_some_iff.1 heq
  obtain ⟨l', hl', rfl⟩ := Option.map_eq_some_iff.1 heq'
  obtain rfl := List.inj_on_of_nodup_map hn hq hq' hkey
  exact Option.some.inj (hl.symm.trans hl')

theorem declares_of_mem_requiredNames {t : TypeDecl} {n : String} (h : n ∈ t.requiredNames) :
    t.declares n = true := by
  obtain ⟨p, hp, -, hpn⟩ := mem_requiredNames.1 h
  exact declares_iff.2 ⟨p, hp, hpn⟩

end TypeDecl

namespace Discrimination

/-- Tests that together hold of every instance of a record and of no instance of the others. -/
structure Separates (tests : List Mark) (t : TypeDecl) (others : List TypeDecl) : Prop where
  holds : ∀ x, t.Instance x → ∀ m ∈ tests, m.holds .wire x = true
  fails : ∀ o ∈ others, ∀ x, o.Instance x → ∃ m ∈ tests, m.holds .wire x = false

/-- Another record lacks a name that is required, or constants under such a name differ, or it has no
instance at all. -/
inductive RuledOut (t o : TypeDecl) : Prop
  | lacks (name : String) (hn : name ∈ t.requiredNames) (hclosed : o.mapClause = none)
      (hlacks : o.declares name = false)
  | differs (name : String) (hn : name ∈ t.requiredNames)
      (hdiffers : TypeDecl.Conflict (t.properties ++ o.properties) name)
  | void (name : String) (hn : name ∈ o.requiredNames)
      (hvoid : TypeDecl.Conflict o.properties name)

def allTests (t : TypeDecl) : List Mark :=
  t.requiredNames.map .property ++
    (t.properties.filter fun p => p.name ∈ t.requiredNames).filterMap fun p =>
      p.value.constant?.map fun c => .constant p.name c

theorem mem_allTests {t : TypeDecl} {m : Mark} : m ∈ allTests t ↔
    (∃ n ∈ t.requiredNames, m = .property n) ∨
      ∃ p ∈ t.properties, p.name ∈ t.requiredNames ∧
        ∃ c, p.value.constant? = some c ∧ m = .constant p.name c := by
  simp [allTests, and_assoc, eq_comm]

theorem holds_allTests {t : TypeDecl} (hplain : t.Plain) (hnan : t.NanFree) {x : Members}
    (hx : t.Instance x) : ∀ m ∈ allTests t, m.holds .wire x = true := by
  intro m hm
  rcases mem_allTests.1 hm with ⟨n, hn, rfl⟩ | ⟨p, hp, hn, c, hc, rfl⟩
  · exact hx.required n hn
  · obtain ⟨d, hd⟩ := Members.has_iff.1 (hx.required p.name hn)
    have hdatum := ((TypeDecl.instance_iff hplain).1 hx).2 p.name d hd p hp rfl c hc
    have heq := Literal.strictEq_self_of_datum_eq (hnan p hp c hc) hdatum
    simp [Mark.holds, hd, heq]

section Separation

variable {t : TypeDecl} {others : List TypeDecl}

/-- A record that is ruled out has no instance with all that the member requires. -/
theorem exists_fails_of_ruledOut {o : TypeDecl} (ho : o.Plain) (h : RuledOut t o)
    {x : Members} (hx : o.Instance x) : ∃ m ∈ allTests t, m.holds .wire x = false := by
  have hinstance := (TypeDecl.instance_iff ho).1 hx
  by_contra! hall
  simp only [ne_eq, Bool.not_eq_false] at hall
  have hhas : ∀ n ∈ t.requiredNames, x.has n = true := fun n hn =>
    hall _ (mem_allTests.2 (.inl ⟨n, hn, rfl⟩))
  cases h with
  | lacks n hn hclosed hlacks =>
    have hdeclared := TypeDecl.declares_iff.2 (hinstance.1.declared hclosed n (hhas n hn))
    simp [hlacks] at hdeclared
  | differs n hn hdiffers =>
    -- what stands under the name is what all the constants say
    obtain ⟨d, hd⟩ := Members.has_iff.1 (hhas n hn)
    refine TypeDecl.exists_allows_iff.1 ⟨d, fun p hp hpn c hc => ?_⟩ hdiffers
    rcases List.mem_append.1 hp with hp | hp
    · have htest := hall _ (mem_allTests.2 (.inr ⟨p, hp, hpn ▸ hn, c, hc, rfl⟩))
      subst hpn
      have heq : d.strictEq c.datum = true := by
        simpa [Mark.holds, Facet.memberName, hd] using htest
      exact Datum.eq_of_strictEq heq
    · exact hinstance.2 n d hd p hp hpn c hc
  | void n hn hvoid =>
    obtain ⟨d, hd⟩ := Members.has_iff.1 (hinstance.1.required n hn)
    exact TypeDecl.exists_allows_iff.1 ⟨d, hinstance.2 n d hd⟩ hvoid

/-- A record that is not ruled out has an instance that holds an instance of the member. -/
theorem exists_extends_of_not_ruledOut (ht : t.Plain) {o : TypeDecl} (ho : o.Plain)
    (h : ¬ RuledOut t o) : ∃ x y, t.Instance x ∧ o.Instance y ∧ y.Extends x := by
  have hmember : ∀ n ∈ t.requiredNames, ∃ d, TypeDecl.Allows (t.properties ++ o.properties) n d :=
    fun n hn => TypeDecl.exists_allows_iff.2 fun hc => h (.differs n hn hc)
  have hother : ∀ n ∈ o.requiredNames, ∃ d, TypeDecl.Allows o.properties n d :=
    fun n hn => TypeDecl.exists_allows_iff.2 fun hc => h (.void n hn hc)
  -- one choice of values for both, where the member comes first
  have hchoice : ∀ n, ∃ d,
      (n ∈ t.requiredNames → TypeDecl.Allows (t.properties ++ o.properties) n d) ∧
        (n ∈ o.requiredNames → TypeDecl.Allows o.properties n d) := by
    intro n
    by_cases hn : n ∈ t.requiredNames
    · obtain ⟨d, hd⟩ := hmember n hn
      exact ⟨d, fun _ => hd, fun _ => hd.mono fun p hp => List.mem_append_right _ hp⟩
    · by_cases hno : n ∈ o.requiredNames
      · obtain ⟨d, hd⟩ := hother n hno
        exact ⟨d, fun hn' => absurd hn' hn, fun _ => hd⟩
      · exact ⟨.null, fun hn' => absurd hn' hn, fun hno' => absurd hno' hno⟩
  choose f hf using hchoice
  refine ⟨t.requiredNames.map fun n => (n, f n),
    (t.requiredNames ++ o.requiredNames).map fun n => (n, f n), ?_, ?_, ?_⟩
  · refine TypeDecl.instance_map ht (fun n hn => hn)
      (fun _ n hn => TypeDecl.declares_of_mem_requiredNames hn) fun n hn => ?_
    exact ((hf n).1 hn).mono fun p hp => List.mem_append_left _ hp
  · refine TypeDecl.instance_map ho (fun n hn => List.mem_append_right _ hn) (fun hc n hn => ?_)
      fun n hn => ?_
    · rcases List.mem_append.1 hn with hn | hn
      · by_contra hlacks
        exact h (.lacks n hn hc (by simpa using hlacks))
      · exact TypeDecl.declares_of_mem_requiredNames hn
    · rcases List.mem_append.1 hn with hn | hn
      · exact ((hf n).1 hn).mono fun p hp => List.mem_append_right _ hp
      · exact (hf n).2 hn
  · intro k d hd
    obtain ⟨hk, rfl⟩ := Members.lookup_map.1 hd
    exact Members.lookup_map.2 ⟨List.mem_append_left _ hk, rfl⟩

theorem separates_allTests (ht : t.Plain) (hnan : t.NanFree) (hos : ∀ o ∈ others, o.Plain)
    (h : ∀ o ∈ others, RuledOut t o) : Separates (allTests t) t others where
  holds _ hx := holds_allTests ht hnan hx
  fails o ho _ hx := exists_fails_of_ruledOut (hos o ho) (h o ho) hx

/-- Some tests tell a record from the others just if each of these is ruled out. -/
theorem exists_separates_iff (ht : t.Plain) (hnan : t.NanFree) (hos : ∀ o ∈ others, o.Plain) :
    (∃ tests, Separates tests t others) ↔ ∀ o ∈ others, RuledOut t o := by
  constructor
  · rintro ⟨tests, hholds, hfails⟩ o ho
    by_contra h
    obtain ⟨x, y, hx, hy, hxy⟩ := exists_extends_of_not_ruledOut ht (hos o ho) h
    obtain ⟨m, hm, hfalse⟩ := hfails o ho y hy
    simp [Mark.holds_of_extends hxy (hholds x hx m hm)] at hfalse
  · exact fun h => ⟨allTests t, separates_allTests ht hnan hos h⟩

end Separation

section Unrepeated

variable {t o : TypeDecl} {others : List TypeDecl}

/-- Where another record takes up all that is required, it has instances with the keys of an instance of
the member. -/
theorem exists_instances_of_taking_all (ht : t.Plain) (ho : o.Plain) (htn : t.Unrepeated)
    (hon : o.Unrepeated) (h : ∀ n ∈ t.requiredNames, n ∈ takenNames t.requiredNames o) :
    ∃ x y, t.Instance x ∧ o.Instance y ∧ (∀ k, x.has k = true → k ∈ t.requiredNames) ∧
      ∀ k, x.has k = true → y.has k = true := by
  have hmember : ∀ n, ∃ d, TypeDecl.Allows t.properties n d := fun n =>
    TypeDecl.exists_allows_iff.2 (TypeDecl.not_conflict_of_unrepeated htn n)
  have hother : ∀ n, ∃ d, TypeDecl.Allows o.properties n d := fun n =>
    TypeDecl.exists_allows_iff.2 (TypeDecl.not_conflict_of_unrepeated hon n)
  choose f hf using hmember
  choose g hg using hother
  have hkeys : ∀ k, Members.has (t.requiredNames.map fun n => (n, f n)) k = true →
      k ∈ t.requiredNames := by
    intro k hk
    obtain ⟨d, hd⟩ := Members.has_iff.1 hk
    exact (Members.lookup_map.1 hd).1
  refine ⟨t.requiredNames.map fun n => (n, f n),
    (t.requiredNames ++ o.requiredNames).map fun n => (n, g n), ?_, ?_, hkeys, fun k hk => ?_⟩
  · exact TypeDecl.instance_map ht (fun n hn => hn) (fun _ n hn => TypeDecl.declares_of_mem_requiredNames hn)
      fun n _ => hf n
  · refine TypeDecl.instance_map ho (fun n hn => List.mem_append_right _ hn) (fun hc n hn => ?_)
      fun n _ => hg n
    rcases List.mem_append.1 hn with hn | hn
    · have htaken := h n hn
      rw [takenNames, if_neg (by simp [isOpen, hc])] at htaken
      obtain ⟨p, hp, hpn⟩ := List.mem_map.1 htaken
      exact TypeDecl.declares_iff.2 ⟨p, hp, hpn⟩
    · exact TypeDecl.declares_of_mem_requiredNames hn
  · exact Members.has_iff.2 ⟨g k, Members.lookup_map.2 ⟨List.mem_append_left _ (hkeys k hk), rfl⟩⟩

/-- Tests for keys alone do not tell a member from a record that takes up all that it requires. -/
theorem exists_constant_test (ht : t.Plain) (ho : o.Plain) (htn : t.Unrepeated) (hon : o.Unrepeated)
    (h : ∀ n ∈ t.requiredNames, n ∈ takenNames t.requiredNames o) {tests : List Mark}
    (hsep : Separates tests t others) (hmem : o ∈ others) : ∃ m ∈ tests, m.presence? = none := by
  obtain ⟨x, y, hx, hy, -, hxy⟩ := exists_instances_of_taking_all ht ho htn hon h
  by_contra! hall
  obtain ⟨m, hm, hfalse⟩ := hsep.fails o hmem y hy
  obtain ⟨names, hnames⟩ := Option.ne_none_iff_exists'.1 (hall m hm)
  have hfound := (Mark.holds_iff_of_presence hnames).1 (hsep.holds x hx m hm)
  rw [(Mark.holds_iff_of_presence hnames).2 fun n hn => hxy _ (hfound n hn)] at hfalse
  exact absurd hfalse (by decide)

/-- A test for a constant that holds of all instances is one for a constant of a required property. -/
theorem exists_required_constant (ht : t.Plain) (htn : t.Unrepeated) {name : String} {c : Literal}
    (h : ∀ x, t.Instance x → (Mark.constant name c).holds .wire x = true) :
    ∃ p ∈ t.properties, p.name = name ∧ p.value.isRequired = true ∧
      ∃ l, p.value.constant? = some l ∧ l.datum.strictEq c.datum = true := by
  have hfound : ∀ x, t.Instance x → ∃ d, x.lookup name = some d ∧ d.strictEq c.datum = true :=
    fun x hx => (Option.any_eq_true _ _).1 (h x hx)
  obtain ⟨x, -, hx, -, hkeys, -⟩ := exists_instances_of_taking_all ht ht htn htn fun n hn => by
    obtain ⟨p, hp, -, hpn⟩ := TypeDecl.mem_requiredNames.1 hn
    unfold takenNames
    split
    · exact hn
    · exact List.mem_map.2 ⟨p, hp, hpn⟩
  obtain ⟨d, hd, -⟩ := hfound x hx
  obtain ⟨p, hp, hreq, rfl⟩ := TypeDecl.mem_requiredNames.1 (hkeys name (Members.has_iff.2 ⟨d, hd⟩))
  refine ⟨p, hp, rfl, hreq, ?_⟩
  cases hc : p.value.constant? with
  | none =>
    -- without a constant an array may stand there
    obtain ⟨x, hx, hxp⟩ := TypeDecl.exists_instance htn hp (.array []) (by simp [hc])
    obtain ⟨d, hd, heq⟩ := hfound x hx
    obtain rfl : Datum.array [] = d := by simpa [hxp] using hd
    simp [strictEq_array] at heq
  | some l =>
    have hholds : p.value.Holds l l.datum := by
      obtain ⟨harray, -⟩ := ht p hp (by simp [hc])
      exact .inr (by simp [harray])
    obtain ⟨x, hx, hxp⟩ := TypeDecl.exists_instance htn hp l.datum fun c' hc' => by
      obtain rfl : l = c' := by simpa [hc] using hc'
      exact hholds
    obtain ⟨d, hd, heq⟩ := hfound x hx
    obtain rfl : l.datum = d := by simpa [hxp] using hd
    exact ⟨l, rfl, heq⟩

/-- Among closed records a constant that tells the member from the others is found. -/
theorem constantMarks_ne_nil (ht : t.Plain) (htn : t.Unrepeated)
    (hos : ∀ o ∈ others, o.Plain ∧ o.Unrepeated ∧ o.mapClause = none) {name : String} {c : Literal}
    (hsep : Separates [.constant name c] t others) : constantMarks t others ≠ [] := by
  obtain ⟨p, hp, rfl, hreq, l, hl, hequal⟩ := exists_required_constant ht htn fun x hx =>
    hsep.holds x hx _ (List.mem_singleton.2 rfl)
  have hopen : ¬ others.any isOpen = true := by
    rw [List.any_eq_true]
    rintro ⟨o, ho, hopen⟩
    simp [isOpen, (hos o ho).2.2] at hopen
  have hmem : (p.name, l) ∈ t.requiredConstants := by
    have hsub : ((t.properties.filter (·.value.isRequired)).map (·.name)).Nodup :=
      htn.sublist (List.filter_sublist.map _)
    exact Assoc.mem_of_lookup (TypeDecl.lookup_constantsOf hsub (List.mem_filter.2 ⟨hp, hreq⟩) hl)
  have hexcluded : ∀ o ∈ others, excludedBy p.name l o = true := by
    intro o ho
    obtain ⟨hplain, hon, -⟩ := hos o ho
    rw [excludedBy_iff]
    by_contra! hkept
    obtain ⟨q, hq, hqn⟩ := TypeDecl.declares_iff.1 (by simpa using hkept.1)
    -- what the test looks for may stand in the other record
    have hallowed : ∃ d, d = l.datum ∧ ∀ c', q.value.constant? = some c' → q.value.Holds c' d := by
      refine ⟨_, rfl, fun c' hc' => ?_⟩
      have hlookup := hkept.2 c' (hqn ▸ TypeDecl.lookup_constantsOf hon hq hc')
      rw [ne_eq, Bool.not_eq_false, ← Literal.strictEq_datum] at hlookup
      obtain ⟨harray, -⟩ := hplain q hq (by simp [hc'])
      exact .inr (by simpa [harray] using Datum.eq_of_strictEq hlookup)
    obtain ⟨d, rfl, hallowed⟩ := hallowed
    obtain ⟨y, hy, hyq⟩ := TypeDecl.exists_instance hon hq _ hallowed
    obtain ⟨m, hm, hfalse⟩ := hsep.fails o ho y hy
    obtain rfl := List.mem_singleton.1 hm
    rw [hqn] at hyq
    simp [Mark.holds, Facet.memberName, hyq, hequal] at hfalse
  rw [constantMarks, if_neg hopen]
  have hkept : (p.name, l) ∈ t.requiredConstants.filter fun c => others.all (excludedBy c.1 c.2) :=
    List.mem_filter.2 ⟨hmem, List.all_eq_true.2 hexcluded⟩
  exact List.ne_nil_of_mem (List.mem_map_of_mem hkept)

theorem holds_constant_eq_false (ho : o.Plain) {q : Property} (hq : q ∈ o.properties) {c d : Literal}
    (hd : q.value.constant? = some d) (hne : c.datum ≠ d.datum) {x : Members} (hx : o.Instance x) :
    (Mark.constant q.name c).holds .wire x = false := by
  rw [← Bool.not_eq_true]
  intro hfound
  obtain ⟨e, he, heq⟩ := (Option.any_eq_true _ _).1 hfound
  have hallowed := ((TypeDecl.instance_iff ho).1 hx).2 q.name e he q hq rfl d hd
  exact hne ((Datum.eq_of_strictEq heq).symm.trans hallowed)

theorem exists_single_test (ht : t.Plain) (hnan : t.NanFree) (ho : o.Plain) (htn : t.Unrepeated)
    (hon : o.Unrepeated) (h : RuledOut t o) (hall : ∀ o' ∈ others, o' = o) :
    ∃ m, Separates [m] t others := by
  -- it is one of the tests for all that the member requires
  suffices hone : ∃ m ∈ allTests t, ∀ x, o.Instance x → m.holds .wire x = false by
    obtain ⟨m, hm, hfails⟩ := hone
    refine ⟨m, fun x hx m' hm' => ?_, fun o' ho' x hx => ?_⟩
    · obtain rfl := List.mem_singleton.1 hm'
      exact holds_allTests ht hnan hx _ hm
    · obtain rfl := hall o' ho'
      exact ⟨m, List.mem_singleton.2 rfl, hfails x hx⟩
  cases h with
  | lacks n hn hclosed hlacks =>
    refine ⟨.property n, mem_allTests.2 (.inl ⟨n, hn, rfl⟩), fun x hx => ?_⟩
    rw [← Bool.not_eq_true]
    intro hhas
    have hdeclared := TypeDecl.declares_iff.2 (hx.declared hclosed n hhas)
    simp [hlacks] at hdeclared
  | differs n hn hdiffers =>
    obtain ⟨p, hp, q, hq, rfl, hqn, c, d, hc, hd, hne⟩ :
        ∃ p ∈ t.properties, ∃ q ∈ o.properties, p.name = n ∧ q.name = n ∧ ∃ c d,
          p.value.constant? = some c ∧ q.value.constant? = some d ∧ c.datum ≠ d.datum := by
      obtain ⟨p, hp, q, hq, hpn, hqn, c, d, hc, hd, hne⟩ := hdiffers
      rcases List.mem_append.1 hp with hp | hp <;> rcases List.mem_append.1 hq with hq | hq
      · exact absurd ⟨p, hp, q, hq, hpn, hqn, c, d, hc, hd, hne⟩
          (TypeDecl.not_conflict_of_unrepeated htn n)
      · exact ⟨p, hp, q, hq, hpn, hqn, c, d, hc, hd, hne⟩
      · exact ⟨q, hq, p, hp, hqn, hpn, d, c, hd, hc, hne.symm⟩
      · exact absurd ⟨p, hp, q, hq, hpn, hqn, c, d, hc, hd, hne⟩
          (TypeDecl.not_conflict_of_unrepeated hon n)
    refine ⟨.constant p.name c, mem_allTests.2 (.inr ⟨p, hp, hn, c, hc, rfl⟩), fun x hx => ?_⟩
    rw [← hqn]
    exact holds_constant_eq_false ho hq hd hne hx
  | void n hn hvoid => exact absurd hvoid (TypeDecl.not_conflict_of_unrepeated hon n)

end Unrepeated

/-- Where a member has no marks, some tests tell it from the others just if each of them lacks a name that
the member requires or differs from it in a constant. Unless names are repeated, a constant is among those
tests; and if moreover the others are closed, it takes more than one test and there are several others. -/
theorem unmarked_separable_iff (s : Service) (member : String) (others : List String) (t : TypeDecl)
    (ht : s.type? member = some t) (hne : records s others ≠ []) (hplain : t.Plain)
    (hnan : t.NanFree) (hos : ∀ o ∈ records s others, o.Plain) (hempty : marks s member others = []) :
    ((∃ tests, Separates tests t (records s others)) ↔ ∀ o ∈ records s others, RuledOut t o) ∧
      (t.Unrepeated → (∀ o ∈ records s others, o.Unrepeated) →
        ∀ tests, Separates tests t (records s others) →
          (∃ m ∈ tests, m.presence? = none) ∧
          ((∀ o ∈ records s others, o.mapClause = none) → 2 ≤ tests.length ∧
            ∃ o ∈ records s others, ∃ o' ∈ records s others, o ≠ o')) := by
  have hiff := exists_separates_iff hplain hnan hos
  refine ⟨hiff, fun htn hon => ?_⟩
  obtain ⟨taking, htaking, htakes⟩ := exists_taking_all ht hne (by simp [hempty])
  have hconstant : ∀ tests, Separates tests t (records s others) → ∃ m ∈ tests, m.presence? = none :=
    fun tests hsep => exists_constant_test hplain (hos _ htaking) htn (hon _ htaking) htakes hsep htaking
  have hseveral : (∀ o ∈ records s others, o.mapClause = none) → ∀ tests,
      Separates tests t (records s others) → 2 ≤ tests.length := by
    intro hclosed tests hsep
    obtain ⟨m, hm, hpresence⟩ := hconstant tests hsep
    match tests, hm with
    | [_], .head _ =>
      cases m with
      | constant n c =>
        have hmarks := constantMarks_ne_nil hplain htn
          (fun o ho => ⟨hos o ho, hon o ho, hclosed o ho⟩) hsep
        simp only [marks, ht, List.append_eq_nil_iff] at hempty
        exact absurd hempty.1.2 hmarks
      | property n => cases hpresence
      | properties ns e => cases hpresence
    | _ :: _ :: _, _ => simp
  refine fun tests hsep => ⟨hconstant tests hsep, fun hclosed => ⟨hseveral hclosed tests hsep, ?_⟩⟩
  by_contra! hsame
  obtain ⟨m, hm⟩ := exists_single_test hplain hnan (hos _ htaking) htn (hon _ htaking)
    (hiff.1 ⟨tests, hsep⟩ _ htaking) fun o ho => (hsame o ho _ htaking)
  exact absurd (hseveral hclosed [m] hm) (by simp)

def textProperty (name : String) (constant : Option String) : Property where
  name := name
  value := { base := .primitive .string (constant.map .string) }

/-- The first record has a key that the second one lacks, and another kind than the third and the last. -/
def kinds : Service where
  title := "kinds"
  types :=
    [{ name := "a", properties := [textProperty "kind" (some "a"), textProperty "size" none] },
     { name := "b", properties := [textProperty "kind" (some "a")] },
     { name := "c", properties := [textProperty "kind" (some "c"), textProperty "size" none] },
     { name := "bag"
       properties := [textProperty "kind" (some "bag")]
       mapClause := some
        { key := { base := .primitive .string none }, value := { base := .primitive .string none } } }]

theorem kinds_ruledOut : ∃ t, kinds.type? "a" = some t ∧ t.Plain ∧ t.NanFree ∧ t.Unrepeated ∧
    ∀ o ∈ records kinds ["b", "c", "bag"], o.Plain ∧ o.Unrepeated ∧ RuledOut t o := by
  have hrecords : records kinds ["b", "c", "bag"] = kinds.types.tail := by decide
  have hplain : ∀ o ∈ kinds.types, o.Plain ∧ o.Unrepeated := by
    simp only [TypeDecl.Plain, TypeDecl.Unrepeated]
    decide
  refine ⟨_, rfl, (hplain _ (by decide)).1, ?_, (hplain _ (by decide)).2, fun o ho => ?_⟩
  · simp only [TypeDecl.NanFree]
    decide
  · rw [hrecords] at ho
    obtain ⟨hop, hon⟩ := hplain o (List.mem_of_mem_tail ho)
    refine ⟨hop, hon, ?_⟩
    simp only [kinds, List.tail_cons, List.mem_cons, List.not_mem_nil, or_false] at ho
    rcases ho with rfl | rfl | rfl
    · exact .lacks "size" (by decide) rfl (by decide)
    · refine .differs "kind" (by decide) ⟨textProperty "kind" (some "a"), by decide,
        textProperty "kind" (some "c"), by decide, rfl, rfl, _, _, rfl, rfl, ?_⟩
      simp [Literal.datum]
    · refine .differs "kind" (by decide) ⟨textProperty "kind" (some "a"), by decide,
        textProperty "kind" (some "bag"), by decide, rfl, rfl, _, _, rfl, rfl, ?_⟩
      simp [Literal.datum]

theorem kinds_unmarked_separable : ∃ t, kinds.type? "a" = some t ∧
    marks kinds "a" ["b", "c"] = [] ∧ (∃ tests, Separates tests t (records kinds ["b", "c"])) ∧
    ∀ tests, Separates tests t (records kinds ["b", "c"]) → 2 ≤ tests.length := by
  obtain ⟨t, ht, hplain, hnan, hun, hall⟩ := kinds_ruledOut
  have hos : ∀ o ∈ records kinds ["b", "c"], o.Plain ∧ o.Unrepeated ∧ RuledOut t o :=
    fun o ho => hall o (List.mem_append_left (records kinds ["bag"]) ho)
  have hempty : marks kinds "a" ["b", "c"] = [] := by decide
  obtain ⟨hiff, hmore⟩ := unmarked_separable_iff kinds "a" ["b", "c"] t ht (by decide) hplain hnan
    (fun o ho => (hos o ho).1) hempty
  refine ⟨t, ht, hempty, hiff.2 fun o ho => (hos o ho).2.2, fun tests hsep => ?_⟩
  exact ((hmore hun fun o ho => (hos o ho).2.1) tests hsep).2 (by decide) |>.1

/-- Neither tests of both kinds together are tried, nor a constant that a record with a map clause gives
another value to. -/
theorem kinds_separated_unmarked : ∃ t, kinds.type? "a" = some t ∧ t.Plain ∧ t.NanFree ∧
    (∀ o ∈ records kinds ["b", "c", "bag"], o.Plain) ∧
    marks kinds "a" ["b", "c"] = [] ∧
    Separates [.property "kind", .property "size", .constant "kind" (.string "a")] t
      (records kinds ["b", "c"]) ∧
    marks kinds "a" ["bag"] = [] ∧
    Separates [.constant "kind" (.string "a")] t (records kinds ["bag"]) := by
  obtain ⟨t, ht, hplain, hnan, -, hall⟩ := kinds_ruledOut
  obtain rfl := Option.some.inj ht
  have hos : ∀ o ∈ records kinds ["b", "c"], o.Plain ∧ RuledOut _ o := fun o ho =>
    (hall o (List.mem_append_left (records kinds ["bag"]) ho)).imp_right And.right
  refine ⟨_, rfl, hplain, hnan, fun o ho => (hall o ho).1, by decide, ?_, by decide, ?_⟩
  · exact separates_allTests hplain hnan (fun o ho => (hos o ho).1) fun o ho => (hos o ho).2
  · refine ⟨fun x hx m hm => holds_allTests hplain hnan hx m ?_, fun o ho x hx => ⟨_, .head _, ?_⟩⟩
    · obtain rfl := List.mem_singleton.1 hm
      decide
    · have hbag := (hall o (List.mem_append_right (records kinds ["b", "c"]) ho)).1
      obtain rfl := List.mem_singleton.1 ho
      exact holds_constant_eq_false hbag (q := textProperty "kind" (some "bag")) (by decide) rfl
        (by simp [Literal.datum]) hx

end Discrimination

end DtoGen
