import DtoGen.Proofs.Instance
import DtoGen.Proofs.Selection

namespace DtoGen

namespace Mark

/-- The names whose presence a mark tests, unless it looks at a value. -/
def presence? : Mark → Option (List String)
  | .property n => some [n]
  | .constant _ _ => none
  | .properties ns _ => some ns

/-- Whether a mark is found on an object whose keys are spelled as in a facet. -/
def holds (f : Facet) (x : Members) : Mark → Bool
  | .property n => x.has (f.memberName n)
  | .constant n l => (x.lookup (f.memberName n)).any fun d => d.strictEq l.datum
  | .properties ns _ => ns.all fun n => x.has (f.memberName n)

theorem holds_iff_of_presence {m : Mark} {names : List String} (h : m.presence? = some names)
    {f : Facet} {x : Members} : m.holds f x = true ↔ ∀ n ∈ names, x.has (f.memberName n) = true := by
  cases m with
  | property n =>
    obtain rfl := Option.some.inj h
    simp [holds]
  | constant n c => simp [presence?] at h
  | properties ns e =>
    obtain rfl := Option.some.inj h
    simp [holds]

theorem holds_eq_false_iff_of_presence {m : Mark} {names : List String}
    (h : m.presence? = some names) {f : Facet} {x : Members} :
    m.holds f x = false ↔ ∃ n ∈ names, x.has (f.memberName n) = false := by
  rw [← Bool.not_eq_true, holds_iff_of_presence h]
  simp

end Mark

namespace TypeDecl

/-- Keys that no instance of a closed record has together are those of which one is not declared. -/
theorem forall_shaped_missing_iff {o : TypeDecl} {f : Facet} {names : List String}
    (hc : o.mapClause = none) :
    (∀ x, o.Shaped f x → ∃ n ∈ names, x.has (f.memberName n) = false) ↔
      ∃ n ∈ names, ∀ p ∈ o.properties, f.memberName p.name ≠ f.memberName n := by
  constructor
  · intro h
    obtain ⟨n, hn, hmiss⟩ := h _ (shaped_ofKeys [] fun _ => rfl)
    refine ⟨n, hn, fun p hp he => ?_⟩
    rw [← Bool.not_eq_true, Members.has_ofKeys, List.append_nil, ← he] at hmiss
    exact hmiss (List.mem_map_of_mem hp)
  · rintro ⟨n, hn, hne⟩ x hx
    refine ⟨n, hn, ?_⟩
    by_contra hhas
    obtain ⟨p, hp, he⟩ := hx.declared hc _ (by simpa using hhas)
    exact hne p hp he

end TypeDecl

namespace Discrimination

theorem isOpen_eq_false_iff {t : TypeDecl} : isOpen t = false ↔ t.mapClause = none := by
  simp [isOpen]

theorem mem_propertyMarks {t : TypeDecl} {others : List TypeDecl} {m : Mark}
    (h : m ∈ propertyMarks t others) :
    ∃ n, m = .property n ∧ n ∈ t.requiredNames ∧
      ∀ o ∈ others, o.mapClause = none ∧ ∀ p ∈ o.properties, p.name ≠ n := by
  unfold propertyMarks at h
  split_ifs at h with hopen
  · simp at h
  · obtain ⟨n, hn, rfl⟩ := List.mem_map.1 h
    obtain ⟨hreq, hno⟩ := List.mem_filter.1 hn
    refine ⟨n, rfl, hreq, fun o ho => ⟨?_, fun p hp he => ?_⟩⟩
    · rw [← isOpen_eq_false_iff]
      by_contra hc
      exact hopen (List.any_eq_true.2 ⟨o, ho, by simpa using hc⟩)
    · have hdecl : others.any (·.declares n) = true :=
        List.any_eq_true.2 ⟨o, ho, TypeDecl.declares_iff.2 ⟨p, hp, he⟩⟩
      simp [hdecl] at hno

/-- The names that a record takes up, for the search for a set of names that none takes up whole. -/
def takenNames (names : List String) (o : TypeDecl) : List String :=
  if isOpen o then names else o.properties.map (·.name)

def chosenNames (t : TypeDecl) (others : List TypeDecl) : List String :=
  distinguishingSubset t.requiredNames (others.map (takenNames t.requiredNames))

theorem mem_setMarks_iff {t : TypeDecl} {others : List TypeDecl} {m : Mark} :
    m ∈ setMarks t others ↔
      chosenNames t others ≠ [] ∧ m = .properties (chosenNames t others) (isExact t) := by
  have hchosen : distinguishingSubset t.requiredNames (others.map fun o =>
      if isOpen o then t.requiredNames else o.properties.map (·.name)) = chosenNames t others := rfl
  unfold setMarks
  simp only [hchosen]
  cases chosenNames t others <;> simp

/-- A mark by presence names properties that the member requires, and of each other record, which is
closed, it names one that is not declared there. -/
theorem presence_mark {s : Service} {member : String} {others : List String} {t : TypeDecl}
    (ht : s.type? member = some t) {m : Mark} (hm : m ∈ marks s member others)
    {names : List String} (hp : m.presence? = some names) :
    (∀ n ∈ names, n ∈ t.requiredNames) ∧
      ∀ o ∈ records s others, o.mapClause = none ∧
        ∃ n ∈ names, ∀ p ∈ o.properties, p.name ≠ n := by
  simp only [marks, ht, List.mem_append] at hm
  rcases hm with (hm | hm) | hm
  · obtain ⟨n, rfl, hreq, hno⟩ := mem_propertyMarks hm
    obtain rfl : [n] = names := by simpa [Mark.presence?] using hp
    refine ⟨by simpa using hreq, fun o ho => ?_⟩
    exact ⟨(hno o ho).1, n, by simp, (hno o ho).2⟩
  · unfold constantMarks at hm
    split_ifs at hm
    · simp at hm
    · obtain ⟨c, -, rfl⟩ := List.mem_map.1 hm
      simp [Mark.presence?] at hp
  · obtain ⟨hne, rfl⟩ := mem_setMarks_iff.1 hm
    obtain ⟨hsub, hesc⟩ := distinguishingSubset_spec hne
    obtain rfl := Option.some.inj hp
    refine ⟨hsub, fun o ho => ?_⟩
    obtain ⟨n, hn, hnot⟩ := hesc _ (List.mem_map_of_mem ho)
    have hclosed : isOpen o = false := by
      by_contra hopen
      have hopen' : isOpen o = true := by simpa using hopen
      rw [takenNames, if_pos hopen'] at hnot
      exact hnot (hsub n hn)
    rw [takenNames, if_neg (by simp [hclosed])] at hnot
    refine ⟨isOpen_eq_false_iff.1 hclosed, n, hn, fun p hp he => hnot ?_⟩
    exact List.mem_map.2 ⟨p, hp, he⟩

/-- Without a mark by presence some other record may take up all that the member requires. -/
theorem exists_taking_all {s : Service} {member : String} {others : List String} {t : TypeDecl}
    (ht : s.type? member = some t) (hne : records s others ≠ [])
    (hno : ∀ m ∈ marks s member others, m.presence? = none) :
    ∃ o ∈ records s others, ∀ n ∈ t.requiredNames, n ∈ takenNames t.requiredNames o := by
  have hnil : chosenNames t (records s others) = [] := by
    by_contra hsub
    have hm : .properties (chosenNames t (records s others)) (isExact t) ∈ marks s member others := by
      simp only [marks, ht, List.mem_append]
      exact Or.inr (mem_setMarks_iff.2 ⟨hsub, rfl⟩)
    simpa [Mark.presence?] using hno _ hm
  rw [chosenNames, distinguishingSubset_eq_nil_iff (by simpa using hne)] at hnil
  obtain ⟨taken, hmem, hall⟩ := hnil
  obtain ⟨o, ho, rfl⟩ := List.mem_map.1 hmem
  exact ⟨o, ho, hall⟩

theorem exists_shaped_of_taking_all {o : TypeDecl} {names : List String}
    (h : ∀ n ∈ names, n ∈ takenNames names o) :
    ∃ x, o.Shaped .wire x ∧ ∀ n ∈ names, x.has n = true := by
  by_cases hopen : isOpen o = true
  · have hclause : o.mapClause ≠ none := by simpa [isOpen, Option.isSome_iff_ne_none] using hopen
    refine ⟨_, TypeDecl.shaped_ofKeys names fun hc => absurd hc hclause, fun n hn => ?_⟩
    exact Members.has_ofKeys.2 (List.mem_append_right _ hn)
  · refine ⟨_, TypeDecl.shaped_ofKeys [] fun _ => rfl, fun n hn => ?_⟩
    have hmem := h n hn
    rw [takenNames, if_neg hopen] at hmem
    exact Members.has_ofKeys.2 (List.mem_append_left _ hmem)

/-- A mark by presence holds of every instance of the member and of no instance of another record.
If there is none, some other record has an instance with all that the member requires. -/
theorem presence_marks_sound_and_complete (s : Service) (member : String) (others : List String)
    (t : TypeDecl) (ht : s.type? member = some t) :
    (∀ m ∈ marks s member others, ∀ names, m.presence? = some names →
      (∀ x, t.Shaped .wire x → ∀ n ∈ names, x.has n = true) ∧
        ∀ o ∈ records s others, ∀ x, o.Shaped .wire x → ∃ n ∈ names, x.has n = false) ∧
      (records s others ≠ [] → (∀ m ∈ marks s member others, m.presence? = none) →
        ∃ o ∈ records s others, ∃ x, o.Shaped .wire x ∧ ∀ n ∈ t.requiredNames, x.has n = true) := by
  refine ⟨fun m hm names hp => ?_, fun hne hno => ?_⟩
  · obtain ⟨hreq, hmiss⟩ := presence_mark ht hm hp
    refine ⟨fun x hx n hn => hx.required n (hreq n hn), fun o ho => ?_⟩
    exact (TypeDecl.forall_shaped_missing_iff (hmiss o ho).1).2 (hmiss o ho).2
  · obtain ⟨o, ho, hall⟩ := exists_taking_all ht hne hno
    exact ⟨o, ho, exists_shaped_of_taking_all hall⟩

/-- The first record is told from the others only by two of its properties together. -/
def overlapping : Service where
  title := "overlapping"
  types :=
    [{ name := "both"
       properties :=
        [{ name := "p", value := { base := .primitive .string none } },
         { name := "q", value := { base := .primitive .string none } }] },
     { name := "left", properties := [{ name := "p", value := { base := .primitive .string none } }] },
     { name := "right"
       properties := [{ name := "q", value := { base := .primitive .string none, isOptional := true } }] }]

theorem overlapping_presence_marks :
    (∃ t, overlapping.type? "both" = some t ∧
      .properties ["p", "q"] true ∈ marks overlapping "both" ["left", "right"] ∧
      (∀ x, t.Shaped .wire x → ∀ n ∈ ["p", "q"], x.has n = true) ∧
      ∀ o ∈ records overlapping ["left", "right"], ∀ x, o.Shaped .wire x →
        ∃ n ∈ ["p", "q"], x.has n = false) ∧
    ∃ t, overlapping.type? "left" = some t ∧
      ∃ o ∈ records overlapping ["both", "right"], ∃ x, o.Shaped .wire x ∧
        ∀ n ∈ t.requiredNames, x.has n = true := by
  have hmark : .properties ["p", "q"] true ∈ marks overlapping "both" ["left", "right"] := by decide
  have hnone : ∀ m ∈ marks overlapping "left" ["both", "right"], m.presence? = none := by decide
  have hboth := presence_marks_sound_and_complete overlapping "both" ["left", "right"] _ rfl
  have hleft := presence_marks_sound_and_complete overlapping "left" ["both", "right"] _ rfl
  exact ⟨⟨_, rfl, hmark, hboth.1 _ hmark _ rfl⟩, _, rfl, hleft.2 (by decide) hnone⟩

end Discrimination

end DtoGen
