import DtoGen.Discrimination
import Mathlib.Tactic.Common

namespace DtoGen

theorem nodup_eraseDups {α : Type} [BEq α] [LawfulBEq α] : ∀ as : List α, as.eraseDups.Nodup
  | [] => by simp
  | a :: as => by
    have := List.length_filter_le (fun b => !b == a) as
    rw [List.eraseDups_cons, List.nodup_cons, List.mem_eraseDups]
    exact ⟨by simp, nodup_eraseDups _⟩
termination_by as => as.length

namespace Discrimination

theorem hitsAll_iff {sets : List (List String)} {choice : List String} :
    hitsAll sets choice = true ↔ ∀ s ∈ sets, ∃ n ∈ choice, n ∈ s := by
  simp [hitsAll]

/-- The selections of `k` elements are the sublists of that length. -/
theorem mem_selections_iff {α : Type} {k : Nat} {xs ys : List α} :
    ys ∈ selections k xs ↔ ys.Sublist xs ∧ ys.length = k := by
  induction k, xs using selections.induct generalizing ys with
  | case1 xs =>
    simp only [selections, List.mem_singleton, List.length_eq_zero_iff]
    constructor
    · rintro rfl
      exact ⟨List.nil_sublist _, rfl⟩
    · exact fun h => h.2
  | case2 k =>
    simp only [selections, List.not_mem_nil, List.sublist_nil, false_iff]
    rintro ⟨rfl, h⟩
    simp at h
  | case3 k x xs ih ih' =>
    simp only [selections, List.mem_append, List.mem_map, ih, ih', List.sublist_cons_iff]
    constructor
    · rintro (⟨zs, ⟨hs, hl⟩, rfl⟩ | ⟨hs, hl⟩)
      · exact ⟨Or.inr ⟨zs, rfl, hs⟩, by simp [hl]⟩
      · exact ⟨Or.inl hs, hl⟩
    · rintro ⟨hs | ⟨zs, rfl, hs⟩, hl⟩
      · exact Or.inr ⟨hs, hl⟩
      · exact Or.inl ⟨zs, ⟨hs, by simpa using hl⟩, rfl⟩

theorem smallestHit_spec {names : List String} {sets : List (List String)}
    (h : smallestHit names sets ≠ []) :
    (smallestHit names sets).Sublist names ∧ hitsAll sets (smallestHit names sets) = true := by
  unfold smallestHit at h ⊢
  cases hf : (List.range names.length).findSome? fun k =>
      (selections (k + 1) names).find? (hitsAll sets) with
  | none => simp [hf] at h
  | some choice =>
    obtain ⟨k, -, hk⟩ := List.exists_of_findSome?_eq_some hf
    have hm := (mem_selections_iff.1 (List.mem_of_find?_eq_some hk)).1
    exact ⟨hm, List.find?_some hk⟩

/-- The search fails only if all the names together miss a set. -/
theorem smallestHit_ne_nil {names : List String} {sets : List (List String)} (hn : names ≠ [])
    (h : hitsAll sets names = true) : smallestHit names sets ≠ [] := by
  obtain ⟨n, ns, rfl⟩ := List.exists_cons_of_ne_nil hn
  unfold smallestHit
  cases hf : (List.range (n :: ns).length).findSome? fun k =>
      (selections (k + 1) (n :: ns)).find? (hitsAll sets) with
  | none =>
    -- the last round tries all the names at once
    have hall := List.findSome?_eq_none_iff.1 hf ns.length (by simp)
    have hself : n :: ns ∈ selections (ns.length + 1) (n :: ns) :=
      mem_selections_iff.2 ⟨List.Sublist.refl _, rfl⟩
    exact absurd h (List.find?_eq_none.1 hall _ hself)
  | some choice =>
    obtain ⟨k, -, hk⟩ := List.exists_of_findSome?_eq_some hf
    have hl := (mem_selections_iff.1 (List.mem_of_find?_eq_some hk)).2
    intro hc
    simp only [Option.getD_some] at hc
    simp [hc] at hl

theorem foldl_better_some (sets : List (List String)) (names : List String) (b : String) :
    ∃ n, names.foldl (better sets) (some b) = some n ∧ (n = b ∨ n ∈ names) := by
  induction names generalizing b with
  | nil => exact ⟨b, rfl, Or.inl rfl⟩
  | cons x xs ih =>
    by_cases hx : score sets b < score sets x
    · obtain ⟨n, hn, hm⟩ := ih x
      exact ⟨n, by simpa [better, hx] using hn, Or.inr (by simpa using hm)⟩
    · obtain ⟨n, hn, hm⟩ := ih b
      refine ⟨n, by simpa [better, hx] using hn, ?_⟩
      exact hm.imp_right (List.mem_cons_of_mem x)

theorem mem_of_best? {names : List String} {sets : List (List String)} {n : String}
    (h : best? names sets = some n) : n ∈ names := by
  unfold best? at h
  induction names with
  | nil => simp at h
  | cons x xs ih =>
    by_cases hx : 0 < score sets x
    · obtain ⟨m, hm, hx'⟩ := foldl_better_some sets xs x
      simp only [List.foldl_cons, better, hx, if_true, hm, Option.some.injEq] at h
      subst h
      simpa using hx'
    · simp only [List.foldl_cons, better, hx, if_false] at h
      exact List.mem_cons_of_mem x (ih h)

theorem best?_ne_none {names : List String} {sets : List (List String)} {n : String}
    (hn : n ∈ names) (hs : 0 < score sets n) : best? names sets ≠ none := by
  unfold best?
  induction names with
  | nil => simp at hn
  | cons x xs ih =>
    by_cases hx : 0 < score sets x
    · obtain ⟨m, hm, -⟩ := foldl_better_some sets xs x
      simp [better, hx, hm]
    · have hne : n ≠ x := by
        rintro rfl
        exact hx hs
      simpa [better, hx] using ih (by simpa [hne] using hn)

theorem score_pos_iff {sets : List (List String)} {n : String} :
    0 < score sets n ↔ ∃ s ∈ sets, n ∈ s := by
  simp [score, List.countP_pos_iff]

theorem greedyChoice_eq_none {names : List String} {sets : List (List String)} (hs : sets ≠ [])
    (h : best? names sets = none) : greedyChoice names sets = none := by
  rw [greedyChoice, if_neg (by simpa using hs)]
  split
  · rfl
  · simp_all

theorem greedyChoice_eq_map {names : List String} {sets : List (List String)} {n : String}
    (h : best? names sets = some n) :
    greedyChoice names sets = (greedyChoice names (unmet n sets)).map (n :: ·) := by
  have hs : ¬ sets.isEmpty = true := by
    intro hs
    simpa [List.isEmpty_iff.1 hs] using length_unmet_lt h
  rw [greedyChoice, if_neg hs]
  split
  · simp_all
  · rename_i m hm
    obtain rfl : n = m := by simpa [h] using hm
    rfl

theorem greedyChoice_subset {names c : List String} {sets : List (List String)}
    (h : greedyChoice names sets = some c) : c ⊆ names := by
  induction sets using greedyChoice.induct names generalizing c with
  | case1 sets hs =>
    rw [List.isEmpty_iff.1 hs, greedyChoice] at h
    obtain rfl : [] = c := by simpa using h
    exact List.nil_subset names
  | case2 sets hs hb =>
    rw [greedyChoice_eq_none (by simpa using hs) hb] at h
    cases h
  | case3 sets hs m hb hlt ih =>
    rw [greedyChoice_eq_map hb] at h
    obtain ⟨rest, hrest, rfl⟩ := Option.map_eq_some_iff.1 h
    exact List.cons_subset.2 ⟨mem_of_best? hb, ih hrest⟩

/-- If the names together meet every set, then names are chosen that do so too. -/
theorem exists_greedyChoice {names : List String} {sets : List (List String)}
    (h : hitsAll sets names = true) :
    ∃ c, greedyChoice names sets = some c ∧ hitsAll sets c = true := by
  induction sets using greedyChoice.induct names with
  | case1 sets hs =>
    obtain rfl := List.isEmpty_iff.1 hs
    exact ⟨[], by rw [greedyChoice, if_pos hs], rfl⟩
  | case2 sets hs hb =>
    obtain ⟨s, rest, rfl⟩ := List.exists_cons_of_ne_nil (by simpa using hs)
    obtain ⟨n, hn, hm⟩ := hitsAll_iff.1 h s (by simp)
    exact absurd hb (best?_ne_none hn (score_pos_iff.2 ⟨s, by simp, hm⟩))
  | case3 sets hs m hb hlt ih =>
    rw [hitsAll_iff] at h
    obtain ⟨c, hc, hrest⟩ := ih (hitsAll_iff.2 fun s hm => h s (List.mem_filter.1 hm).1)
    refine ⟨m :: c, by rw [greedyChoice_eq_map hb, hc, Option.map_some], ?_⟩
    rw [hitsAll_iff] at hrest ⊢
    intro s hm
    by_cases hin : m ∈ s
    · exact ⟨m, by simp, hin⟩
    · obtain ⟨n, hn, hns⟩ := hrest s (List.mem_filter.2 ⟨hm, by simpa using hin⟩)
      exact ⟨n, List.mem_cons_of_mem m hn, hns⟩

theorem greedyHit_subset (names : List String) (sets : List (List String)) :
    greedyHit names sets ⊆ names := by
  unfold greedyHit
  cases greedyChoice names sets with
  | none => exact List.nil_subset names
  | some c => exact fun n hn => by simpa using (List.mem_filter.1 hn).1

theorem mem_greedyHit_iff {names c : List String} {sets : List (List String)} {n : String}
    (hc : greedyChoice names sets = some c) : n ∈ greedyHit names sets ↔ n ∈ c := by
  simp only [greedyHit, hc, List.mem_filter, List.mem_reverse, List.mem_eraseDups,
    List.contains_iff_mem, and_iff_right_iff_imp]
  exact fun hn => greedyChoice_subset hc hn

theorem hitsAll_greedyHit {names : List String} {sets : List (List String)}
    (h : hitsAll sets names = true) : hitsAll sets (greedyHit names sets) = true := by
  obtain ⟨c, hc, hhits⟩ := exists_greedyChoice h
  rw [hitsAll_iff] at hhits ⊢
  simpa only [mem_greedyHit_iff hc] using hhits

/-- What each of the other sets leaves out of the names. -/
def complements (names : List String) (others : List (List String)) : List (List String) :=
  others.map fun o => names.filter fun n => !o.contains n

theorem distinguishingSubset_eq (names : List String) (others : List (List String)) :
    distinguishingSubset names others =
      if (complements names others).any List.isEmpty then []
      else if (complements names others).isEmpty then names.take 1
      else if names.length ≤ exactSearchLimit then smallestHit names (complements names others)
      else greedyHit names (complements names others) := rfl

theorem hitsAll_complements {names : List String} {others : List (List String)}
    {choice : List String} (hc : ∀ n ∈ choice, n ∈ names) :
    hitsAll (complements names others) choice = true ↔ ∀ o ∈ others, ∃ n ∈ choice, n ∉ o := by
  rw [hitsAll_iff]
  constructor
  · intro h o ho
    obtain ⟨n, hn, hm⟩ := h _ (List.mem_map_of_mem ho)
    exact ⟨n, hn, by simpa using (List.mem_filter.1 hm).2⟩
  · intro h s hs
    obtain ⟨o, ho, rfl⟩ := List.mem_map.1 hs
    obtain ⟨n, hn, hm⟩ := h o ho
    exact ⟨n, hn, List.mem_filter.2 ⟨hc n hn, by simpa using hm⟩⟩

theorem any_isEmpty_complements {names : List String} {others : List (List String)} :
    (complements names others).any List.isEmpty = true ↔ ∃ o ∈ others, ∀ n ∈ names, n ∈ o := by
  simp [complements, List.any_map, List.filter_eq_nil_iff]

theorem isEmpty_complements {names : List String} {others : List (List String)} :
    (complements names others).isEmpty = true ↔ others = [] := by
  simp [complements]

/-- The names chosen are among those given, and no set to be escaped holds all of them. -/
theorem distinguishingSubset_spec {names : List String} {others : List (List String)}
    (h : distinguishingSubset names others ≠ []) :
    (∀ n ∈ distinguishingSubset names others, n ∈ names) ∧
      ∀ o ∈ others, ∃ n ∈ distinguishingSubset names others, n ∉ o := by
  rw [distinguishingSubset_eq] at h ⊢
  split_ifs at h ⊢ with hany hnil hlen
  · exact absurd rfl h
  · rw [isEmpty_complements] at hnil
    subst hnil
    exact ⟨fun n hn => List.mem_of_mem_take hn, by simp⟩
  · obtain ⟨hsub, hhit⟩ := smallestHit_spec h
    have hmem : ∀ n ∈ smallestHit names (complements names others), n ∈ names :=
      fun n hn => hsub.subset hn
    exact ⟨hmem, (hitsAll_complements hmem).1 hhit⟩
  · have hmem : ∀ n ∈ greedyHit names (complements names others), n ∈ names :=
      fun n hn => greedyHit_subset names _ hn
    -- the greedy search begins only where every set can be escaped
    refine ⟨hmem, (hitsAll_complements hmem).1 (hitsAll_greedyHit ?_)⟩
    apply (hitsAll_complements fun _ => id).2
    intro o ho
    by_contra! hc
    exact hany (any_isEmpty_complements.2 ⟨o, ho, hc⟩)

/-- With something to be escaped, no selection is found just if one set holds all the names. -/
theorem distinguishingSubset_eq_nil_iff {names : List String} {others : List (List String)}
    (ho : others ≠ []) :
    distinguishingSubset names others = [] ↔ ∃ o ∈ others, ∀ n ∈ names, n ∈ o := by
  obtain ⟨first, rest, rfl⟩ := List.exists_cons_of_ne_nil ho
  constructor
  · intro h
    by_contra! hno
    have hhit : hitsAll (complements names (first :: rest)) names = true :=
      (hitsAll_complements fun _ => id).2 hno
    have hnames : names ≠ [] := by
      rintro rfl
      obtain ⟨n, hn, -⟩ := hno first (by simp)
      simp at hn
    have hany : ¬(complements names (first :: rest)).any List.isEmpty = true := by
      rw [any_isEmpty_complements]
      push Not
      exact hno
    rw [distinguishingSubset_eq, if_neg hany, if_neg (mt isEmpty_complements.1 ho)] at h
    split_ifs at h with hlen
    · exact smallestHit_ne_nil hnames hhit h
    · have hg := hitsAll_greedyHit hhit
      rw [h] at hg
      simp [hitsAll, complements] at hg
  · intro h
    rw [distinguishingSubset_eq, if_pos (any_isEmpty_complements.2 h)]

end Discrimination

end DtoGen
