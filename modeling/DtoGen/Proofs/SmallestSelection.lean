import DtoGen.Proofs.Selection
import Mathlib.Data.Finset.Card
import Mathlib.Data.List.FinRange
import Mathlib.Data.List.Sort

namespace DtoGen.Discrimination

/-- Selections from a list in increasing order are listed in lexicographic order. -/
theorem pairwise_selections {n k : Nat} {xs : List (Fin n)} (h : xs.Pairwise (· < ·)) :
    (selections k xs).Pairwise (List.Lex (· < ·)) := by
  induction k, xs using selections.induct with
  | case1 xs => simp [selections]
  | case2 k => simp [selections]
  | case3 k x xs ih ih' =>
    obtain ⟨hx, hxs⟩ := List.pairwise_cons.1 h
    rw [selections, List.pairwise_append]
    have hfirst : ((selections k xs).map (x :: ·)).Pairwise (List.Lex (· < ·)) :=
      List.pairwise_map.2 ((ih hxs).imp .cons)
    refine ⟨hfirst, ih' hxs, fun ys hys zs hzs => ?_⟩
    -- a selection with the first element comes before all that leave it out
    obtain ⟨ys, -, rfl⟩ := List.mem_map.1 hys
    obtain ⟨hsub, hlen⟩ := mem_selections_iff.1 hzs
    obtain ⟨z, zs, rfl⟩ := List.exists_cons_of_ne_nil (List.ne_nil_of_length_eq_add_one hlen)
    exact .rel (hx z (hsub.subset List.mem_cons_self))

theorem selections_map {α β : Type} (f : α → β) (k : Nat) (xs : List α) :
    selections k (xs.map f) = (selections k xs).map (List.map f) := by
  induction k, xs using selections.induct with
  | case1 xs => simp [selections]
  | case2 k => simp [selections]
  | case3 k x xs ih ih' =>
    simp only [List.map_cons, selections, ih, ih', List.map_append, List.map_map]
    rfl

def pick (names : List String) (positions : List (Fin names.length)) : List String :=
  positions.map names.get

/-- The first selection that passes a test is the one with the least positions. -/
theorem exists_first_positions {names : List String} {k : Nat} {p : List String → Bool}
    {choice : List String} (h : (selections k names).find? p = some choice) :
    ∃ is : List (Fin names.length), is.Pairwise (· < ·) ∧ choice = pick names is ∧
      ∀ js : List (Fin names.length), js.Pairwise (· < ·) → js.length = k →
        p (pick names js) = true → is = js ∨ List.Lex (· < ·) is js := by
  have hnames : selections k names =
      (selections k (List.finRange names.length)).map (pick names) := by
    conv_lhs => rw [← List.map_get_finRange names]
    exact selections_map _ _ _
  rw [hnames, List.find?_map, Option.map_eq_some_iff] at h
  obtain ⟨is, his, rfl⟩ := h
  obtain ⟨-, before, after, hlist, hbefore⟩ := List.find?_eq_some_iff_append.1 his
  have hsorted : (selections k (List.finRange names.length)).Pairwise (List.Lex (· < ·)) :=
    pairwise_selections (List.pairwise_lt_finRange names.length)
  have hmem : is ∈ selections k (List.finRange names.length) := by simp [hlist]
  refine ⟨is, (List.pairwise_lt_finRange _).sublist (mem_selections_iff.1 hmem).1, rfl, ?_⟩
  intro js hjs hlen hp
  have hmem : js ∈ selections k (List.finRange names.length) := by
    have hsub : js.Subperm (List.finRange names.length) :=
      hjs.nodup.subperm fun j _ => List.mem_finRange j
    exact mem_selections_iff.2
      ⟨List.sublist_of_subperm_of_pairwise hsub hjs (List.pairwise_lt_finRange _), hlen⟩
  rw [hlist] at hmem hsorted
  rcases List.mem_append.1 hmem with hmem | hmem
  · simpa [hp] using hbefore js hmem
  · rcases List.mem_cons.1 hmem with rfl | hmem
    · exact .inl rfl
    · have hafter := (List.pairwise_append.1 hsorted).2.1
      exact .inr (List.rel_of_pairwise_cons hafter hmem)

/-- The search ends at the first length at which a selection meets every set. -/
theorem smallestHit_first {names : List String} {sets : List (List String)}
    (h : smallestHit names sets ≠ []) :
    (selections (smallestHit names sets).length names).find? (hitsAll sets) =
        some (smallestHit names sets) ∧
      ∀ choice : List String, choice.Sublist names → choice ≠ [] →
        choice.length < (smallestHit names sets).length → hitsAll sets choice = false := by
  unfold smallestHit at h ⊢
  cases hf : (List.range names.length).findSome? fun k =>
      (selections (k + 1) names).find? (hitsAll sets) with
  | none => simp [hf] at h
  | some found =>
    obtain ⟨before, k, after, hrange, hk, hbefore⟩ := List.findSome?_eq_some_iff.1 hf
    have hlen : found.length = k + 1 := (mem_selections_iff.1 (List.mem_of_find?_eq_some hk)).2
    rw [Option.getD_some, hlen]
    refine ⟨hk, fun choice hsub hne hlt => ?_⟩
    obtain ⟨j, hj⟩ := Nat.exists_eq_succ_of_ne_zero (mt List.length_eq_zero_iff.1 hne)
    -- lengths are tried in order, so the length of the choice was tried before
    have hmem : j ∈ before := by
      have hsorted : (before ++ k :: after).Pairwise (· < ·) := hrange ▸ List.pairwise_lt_range
      have hj' : j ∈ before ++ k :: after := by
        rw [← hrange, List.mem_range]
        have hle := hsub.length_le
        omega
      rcases List.mem_append.1 hj' with hj' | hj'
      · exact hj'
      · have hge : k ≤ j := by
          rcases List.mem_cons.1 hj' with rfl | hj'
          · exact Nat.le_refl _
          · exact Nat.le_of_lt (List.rel_of_pairwise_cons (List.pairwise_append.1 hsorted).2.1 hj')
        omega
    have hnone := List.find?_eq_none.1 (hbefore j hmem) choice (mem_selections_iff.2 ⟨hsub, hj⟩)
    simpa using hnone

/-- Some name of the set is left out by each of the others. -/
def Escapes (others : List (List String)) (s : Finset String) : Prop :=
  ∀ o ∈ others, ∃ n ∈ s, n ∉ o

instance (others : List (List String)) (s : Finset String) : Decidable (Escapes others s) :=
  inferInstanceAs (Decidable (∀ o ∈ others, ∃ n ∈ s, n ∉ o))

theorem escapes_iff_hitsAll {names choice : List String} {others : List (List String)}
    (h : choice ⊆ names) :
    Escapes others choice.toFinset ↔ hitsAll (complements names others) choice = true := by
  rw [hitsAll_complements h]
  simp [Escapes]

/-- A set of names is listed by a selection of the names. -/
theorem exists_sublist_toFinset {names : List String} {s : Finset String} (h : ∀ n ∈ s, n ∈ names) :
    ∃ choice : List String, choice.Sublist names ∧ choice.toFinset = s ∧ choice.length = s.card := by
  have hset : (names.dedup.filter (· ∈ s)).toFinset = s := by
    ext n
    simpa using h n
  refine ⟨_, List.filter_sublist.trans (List.dedup_sublist names), hset, ?_⟩
  rw [← List.toFinset_card_of_nodup ((List.nodup_dedup names).filter _), hset]

theorem eraseDups_sublist (names : List String) : names.eraseDups.Sublist names := by
  induction hn : names.length using Nat.strong_induction_on generalizing names with
  | _ k ih =>
    cases names with
    | nil => simp
    | cons n names =>
      rw [List.eraseDups_cons]
      have hlt : (names.filter fun m => !m == n).length < k :=
        hn ▸ Nat.lt_succ_of_le (List.length_filter_le _ _)
      exact ((ih _ hlt _ rfl).trans List.filter_sublist).cons_cons n

theorem greedyHit_sublist (names : List String) (sets : List (List String)) :
    (greedyHit names sets).Sublist names := by
  have hlast := (eraseDups_sublist names.reverse).reverse
  rw [List.reverse_reverse] at hlast
  unfold greedyHit
  cases greedyChoice names sets with
  | none => exact List.nil_sublist names
  | some c => exact List.filter_sublist.trans hlast

theorem distinguishingSubset_sublist (names : List String) (others : List (List String)) :
    (distinguishingSubset names others).Sublist names := by
  rw [distinguishingSubset_eq]
  split_ifs
  · exact List.nil_sublist _
  · exact List.take_sublist 1 names
  · by_cases h : smallestHit names (complements names others) = []
    · rw [h]
      exact List.nil_sublist _
    · exact (smallestHit_spec h).1
  · exact greedyHit_sublist names _

theorem distinguishingSubset_nil (names : List String) :
    distinguishingSubset names [] = names.take 1 := rfl

theorem distinguishingSubset_eq_smallestHit {names : List String} {others : List (List String)}
    (hlen : names.length ≤ exactSearchLimit) (ho : others ≠ [])
    (h : distinguishingSubset names others ≠ []) :
    distinguishingSubset names others = smallestHit names (complements names others) := by
  rw [distinguishingSubset_eq] at h ⊢
  split_ifs at h ⊢ with hany hnil
  · exact absurd rfl h
  · exact absurd (isEmpty_complements.1 hnil) ho
  · rfl

/-- Of few names no smaller set escapes; where there is nothing to escape, the empty set is left out. -/
theorem not_escapes_of_card_lt {names : List String} {others : List (List String)}
    (hlen : names.length ≤ exactSearchLimit) {s : Finset String} (hs : others = [] → s.Nonempty)
    (hnames : ∀ n ∈ s, n ∈ names) (hlt : s.card < (distinguishingSubset names others).length) :
    ¬Escapes others s := by
  have hne : distinguishingSubset names others ≠ [] := List.ne_nil_of_length_pos (by omega)
  cases ho : others with
  | nil =>
    rw [ho, distinguishingSubset_nil, List.length_take] at hlt
    have hpos := (hs ho).card_pos
    omega
  | cons o os =>
    rw [← ho]
    rw [distinguishingSubset_eq_smallestHit hlen (ho ▸ List.cons_ne_nil o os) hne] at hlt hne
    obtain ⟨choice, hsub, rfl, hcard⟩ := exists_sublist_toFinset hnames
    rw [escapes_iff_hitsAll hsub.subset, Bool.not_eq_true]
    by_cases hc : choice = []
    · simp [hc, ho, hitsAll, complements]
    · exact (smallestHit_first hne).2 choice hsub hc (hcard ▸ hlt)

/-- Of few names the selection has the first positions among those of its length that escape. -/
theorem exists_first_escaping {names : List String} {others : List (List String)}
    (hlen : names.length ≤ exactSearchLimit) (h : distinguishingSubset names others ≠ []) :
    ∃ is : List (Fin names.length), is.Pairwise (· < ·) ∧
      distinguishingSubset names others = pick names is ∧
      ∀ js : List (Fin names.length), js.Pairwise (· < ·) → js.length = is.length →
        Escapes others (pick names js).toFinset → is = js ∨ List.Lex (· < ·) is js := by
  have hfound : (selections (distinguishingSubset names others).length names).find?
      (hitsAll (complements names others)) = some (distinguishingSubset names others) := by
    cases ho : others with
    | nil =>
      rw [ho, distinguishingSubset_nil] at h
      obtain ⟨n, ns, rfl⟩ := List.exists_cons_of_ne_nil (mt (congrArg (List.take 1)) h)
      simp [distinguishingSubset_nil, selections, hitsAll, complements]
    | cons o os =>
      rw [← ho, distinguishingSubset_eq_smallestHit hlen (ho ▸ List.cons_ne_nil o os) h]
      rw [distinguishingSubset_eq_smallestHit hlen (ho ▸ List.cons_ne_nil o os) h] at h
      exact (smallestHit_first h).1
  obtain ⟨is, his, heq, hfirst⟩ := exists_first_positions hfound
  refine ⟨is, his, heq, fun js hjs hl hesc => hfirst js hjs ?_ ?_⟩
  · rw [hl, heq, pick, List.length_map]
  · refine (escapes_iff_hitsAll fun n hn => ?_).1 hesc
    obtain ⟨i, -, rfl⟩ := List.mem_map.1 hn
    exact List.get_mem names i

/-- The selection keeps the order of the names and escapes all the others unless one of them holds every
name; with nothing to escape it is the first name. Of at most 16 names no smaller set escapes, but for the
empty one with nothing to escape, and no selection of that length with earlier positions does. -/
theorem distinguishingSubset_smallest_first (names : List String) (others : List (List String)) :
    (distinguishingSubset names others).Sublist names ∧
      (others ≠ [] →
        (distinguishingSubset names others = [] ↔ ∃ o ∈ others, ∀ n ∈ names, n ∈ o) ∧
          (distinguishingSubset names others ≠ [] →
            Escapes others (distinguishingSubset names others).toFinset)) ∧
      (others = [] → distinguishingSubset names others = names.take 1) ∧
      (names.length ≤ 16 → distinguishingSubset names others ≠ [] →
        (∀ s : Finset String, (∀ n ∈ s, n ∈ names) →
          s.card < (distinguishingSubset names others).length → (others = [] → s.Nonempty) →
            ¬Escapes others s) ∧
        ∃ is : List (Fin names.length), is.Pairwise (· < ·) ∧
          distinguishingSubset names others = pick names is ∧
          ∀ js : List (Fin names.length), js.Pairwise (· < ·) → js.length = is.length →
            Escapes others (pick names js).toFinset → is = js ∨ List.Lex (· < ·) is js) := by
  refine ⟨distinguishingSubset_sublist names others, fun ho => ⟨?_, fun h => ?_⟩, ?_, ?_⟩
  · exact distinguishingSubset_eq_nil_iff ho
  · simpa [Escapes] using (distinguishingSubset_spec h).2
  · rintro rfl
    exact distinguishingSubset_nil names
  · refine fun hlen h => ⟨fun s hnames hlt hs => ?_, exists_first_escaping hlen h⟩
    exact not_escapes_of_card_lt hlen hs hnames hlt

theorem three_names_selection :
    distinguishingSubset ["p", "q", "r", "p"] [["p"], ["q"], ["r"]] = ["p", "q"] ∧
      ["p", "q"].Sublist ["p", "q", "r", "p"] ∧
      Escapes [["p"], ["q"], ["r"]] ["p", "q"].toFinset ∧
      ¬Escapes [["p"], ["q"], ["r"]] {"r"} ∧
      ∃ is : List (Fin 4), ["p", "q"] = pick ["p", "q", "r", "p"] is ∧
        (is = [0, 2] ∨ List.Lex (· < ·) is [0, 2]) := by
  have hsel : distinguishingSubset ["p", "q", "r", "p"] [["p"], ["q"], ["r"]] = ["p", "q"] := by decide
  obtain ⟨hsub, hother, -, hfew⟩ :=
    distinguishingSubset_smallest_first ["p", "q", "r", "p"] [["p"], ["q"], ["r"]]
  rw [hsel] at hsub hother hfew
  obtain ⟨hsmall, is, his, heq, hfirst⟩ := hfew (by decide) (by decide)
  have hlen : is.length = 2 := by simpa [pick] using (congrArg List.length heq).symm
  refine ⟨hsel, hsub, (hother (by decide)).2 (by decide), ?_, is, heq, ?_⟩
  · exact hsmall {"r"} (by simp) (by simp) (by simp)
  · exact hfirst [0, 2] (by decide) hlen.symm (by decide)

/-- With nothing to escape the empty set does escape, and yet the first name is selected. -/
theorem first_name_not_smallest :
    distinguishingSubset ["a"] [] ≠ [] ∧ ["a"].length ≤ 16 ∧
      (∀ n ∈ (∅ : Finset String), n ∈ ["a"]) ∧
      (∅ : Finset String).card < (distinguishingSubset ["a"] []).length ∧ Escapes [] ∅ := by
  decide

end DtoGen.Discrimination
