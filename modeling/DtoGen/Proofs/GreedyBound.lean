import DtoGen.Proofs.SmallestSelection
import Mathlib.Algebra.Order.BigOperators.Group.Finset
import Mathlib.Algebra.Order.Field.Basic
import Mathlib.NumberTheory.Harmonic.Defs
import Mathlib.Tactic.Linarith

namespace DtoGen.Discrimination

variable {names : List String} {sets others : List (List String)} {H : Finset String}

def topScore (sets : List (List String)) (best : Option String) : Nat := best.elim 0 (score sets)

theorem topScore_better (sets : List (List String)) (best : Option String) (n : String) :
    topScore sets (better sets best n) = max (topScore sets best) (score sets n) := by
  cases best with
  | none =>
    by_cases hn : 0 < score sets n <;> simp [better, topScore, hn]
    omega
  | some b =>
    by_cases hn : score sets b < score sets n <;> simp [better, topScore, hn] <;> omega

theorem le_topScore_foldl (sets : List (List String)) (names : List String) (best : Option String) :
    topScore sets best ≤ topScore sets (names.foldl (better sets) best) ∧
      ∀ n ∈ names, score sets n ≤ topScore sets (names.foldl (better sets) best) := by
  induction names generalizing best with
  | nil => simp
  | cons x xs ih =>
    obtain ⟨hbest, hxs⟩ := ih (better sets best x)
    rw [topScore_better] at hbest
    rw [List.foldl_cons, List.forall_mem_cons]
    exact ⟨by omega, by omega, hxs⟩

theorem score_le_of_best? {n b : String} (h : best? names sets = some b) (hn : n ∈ names) :
    score sets n ≤ score sets b := by
  have hle := (le_topScore_foldl sets names none).2 n hn
  rw [best?] at h
  rwa [h] at hle

theorem length_unmet_add_score (n : String) (sets : List (List String)) :
    (unmet n sets).length + score sets n = sets.length := by
  rw [unmet, ← List.countP_eq_length_filter, score, Nat.add_comm]
  have hsplit := List.length_eq_countP_add_countP (p := fun s : List String => s.contains n) (l := sets)
  simpa using hsplit.symm

/-- Names that meet every set together meet as many as there are. -/
theorem length_le_sum_score (h : ∀ s ∈ sets, ∃ n ∈ H, n ∈ s) :
    sets.length ≤ ∑ n ∈ H, score sets n := by
  induction sets with
  | nil => simp
  | cons s sets ih =>
    obtain ⟨⟨n, hn, hs⟩, hsets⟩ := List.forall_mem_cons.1 h
    have hone : 1 ≤ ∑ n ∈ H, if s.contains n then 1 else 0 := by
      have hle := Finset.single_le_sum (f := fun n => if s.contains n then 1 else 0)
        (fun _ _ => Nat.zero_le _) hn
      simpa [hs] using hle
    have hsum : ∑ n ∈ H, score (s :: sets) n =
        ∑ n ∈ H, score sets n + ∑ n ∈ H, if s.contains n then 1 else 0 := by
      simp only [score, List.countP_cons, Finset.sum_add_distrib]
    have hrest := ih hsets
    rw [hsum, List.length_cons]
    omega

/-- So the best name meets at least the share of the sets that falls to each of them. -/
theorem length_le_card_mul_score {b : String} (hb : best? names sets = some b)
    (hnames : ∀ n ∈ H, n ∈ names) (h : ∀ s ∈ sets, ∃ n ∈ H, n ∈ s) :
    sets.length ≤ H.card * score sets b := by
  calc sets.length ≤ ∑ n ∈ H, score sets n := length_le_sum_score h
    _ ≤ H.card • score sets b :=
      Finset.sum_le_card_nsmul _ _ _ fun n hn => score_le_of_best? hb (hnames n hn)
    _ = H.card * score sets b := by rw [nsmul_eq_mul, Nat.cast_id]

theorem harmonic_nonneg (m : ℕ) : 0 ≤ harmonic m :=
  Finset.sum_nonneg fun _ _ => by positivity

/-- Each of the `d` terms between two harmonic numbers is at least the last one. -/
theorem harmonic_add_share_le (k d : ℕ) :
    harmonic k + (d : ℚ) / (k + d : ℕ) ≤ harmonic (k + d) := by
  induction d with
  | zero => simp
  | succ d ih =>
    have hshrink : (d : ℚ) / (k + (d + 1) : ℕ) ≤ (d : ℚ) / (k + d : ℕ) := by
      rcases Nat.eq_zero_or_pos (k + d) with hzero | hpos
      · obtain rfl : d = 0 := by omega
        simp
      · apply div_le_div_of_nonneg_left (by positivity) (by exact_mod_cast hpos)
        exact_mod_cast Nat.le_succ (k + d)
    calc harmonic k + ((d + 1 : ℕ) : ℚ) / (k + (d + 1) : ℕ)
        = harmonic k + (d : ℚ) / (k + (d + 1) : ℕ) + ((k + (d + 1) : ℕ) : ℚ)⁻¹ := by
          rw [Nat.cast_succ, add_div, one_div, add_assoc]
      _ ≤ harmonic (k + d) + ((k + d + 1 : ℕ) : ℚ)⁻¹ := by
          rw [Nat.add_assoc]
          linarith
      _ = harmonic (k + (d + 1)) := by rw [← Nat.add_assoc, harmonic_succ]

/-- A chosen name is paid for by the sets that it meets, in equal shares; what a set pays is bounded by
the number of sets that were left when it was met. -/
theorem length_greedyChoice_le (hnames : ∀ n ∈ H, n ∈ names) (h : ∀ s ∈ sets, ∃ n ∈ H, n ∈ s)
    {c : List String} (hc : greedyChoice names sets = some c) :
    (c.length : ℚ) ≤ H.card * harmonic sets.length := by
  have hnonneg : ∀ m : ℕ, 0 ≤ (H.card : ℚ) * harmonic m := fun m =>
    mul_nonneg (Nat.cast_nonneg _) (harmonic_nonneg m)
  induction sets using greedyChoice.induct names generalizing c with
  | case1 sets hs =>
    rw [List.isEmpty_iff.1 hs, greedyChoice] at hc
    obtain rfl : [] = c := by simpa using hc
    exact_mod_cast hnonneg _
  | case2 sets hs hb =>
    rw [greedyChoice_eq_none (by simpa using hs) hb] at hc
    cases hc
  | case3 sets hs b hb hlt ih =>
    rw [greedyChoice_eq_map hb] at hc
    obtain ⟨rest, hchosen, rfl⟩ := Option.map_eq_some_iff.1 hc
    have hrest := ih (fun s hs => h s (List.mem_filter.1 hs).1) hchosen
    have hshare := length_le_card_mul_score hb hnames h
    have hlength := length_unmet_add_score b sets
    have hpos : (0 : ℚ) < sets.length := by exact_mod_cast (by omega : 0 < sets.length)
    -- the names of `H` meet the sets that are left, so their shares of the best name make up one
    have hone : 1 ≤ (H.card : ℚ) * (score sets b / sets.length) := by
      rw [← mul_div_assoc, one_le_div hpos]
      exact_mod_cast hshare
    have hgap := harmonic_add_share_le (unmet b sets).length (score sets b)
    rw [hlength] at hgap
    calc ((b :: rest).length : ℚ) = rest.length + 1 := by rw [List.length_cons, Nat.cast_succ]
      _ ≤ H.card * harmonic (unmet b sets).length + H.card * (score sets b / sets.length) :=
          add_le_add hrest hone
      _ = H.card * (harmonic (unmet b sets).length + score sets b / sets.length) := by
          rw [mul_add]
      _ ≤ H.card * harmonic sets.length := by
          gcongr

theorem nodup_greedyHit (names : List String) (sets : List (List String)) :
    (greedyHit names sets).Nodup := by
  unfold greedyHit
  cases greedyChoice names sets with
  | none => exact List.nodup_nil
  | some c => exact (List.nodup_reverse.2 (nodup_eraseDups _)).filter _

theorem length_greedyHit_le {c : List String} (hc : greedyChoice names sets = some c) :
    (greedyHit names sets).length ≤ c.length :=
  ((nodup_greedyHit names sets).subperm fun _ hn => (mem_greedyHit_iff hc).1 hn).length_le

theorem distinguishingSubset_eq_greedyHit (hmany : 16 < names.length) (hothers : others ≠ [])
    (hescape : ∀ o ∈ others, ∃ n ∈ names, n ∉ o) :
    distinguishingSubset names others = greedyHit names (complements names others) := by
  have hany : ¬ (complements names others).any List.isEmpty = true := by
    rw [any_isEmpty_complements]
    push Not
    exact hescape
  have hlimit : ¬ names.length ≤ exactSearchLimit := by simpa [exactSearchLimit] using hmany
  rw [distinguishingSubset_eq, if_neg hany, if_neg (mt isEmpty_complements.1 hothers), if_neg hlimit]

/-- Of more than 16 names the selection escapes all the other sets, takes no name twice, and takes no more
than the harmonic number of these sets times the names of any set that escapes them as well. -/
theorem greedy_selection_bounded (names : List String) (others : List (List String))
    (H : Finset String) (hmany : 16 < names.length) (hothers : others ≠ [])
    (hnames : ∀ n ∈ H, n ∈ names) (hescapes : Escapes others H) :
    Escapes others (distinguishingSubset names others).toFinset ∧
      (distinguishingSubset names others).Nodup ∧
      ((distinguishingSubset names others).length : ℚ) ≤ H.card * harmonic others.length := by
  have hescape : ∀ o ∈ others, ∃ n ∈ names, n ∉ o := by
    intro o ho
    obtain ⟨n, hn, hno⟩ := hescapes o ho
    exact ⟨n, hnames n hn, hno⟩
  have hmeets : ∀ s ∈ complements names others, ∃ n ∈ H, n ∈ s := by
    intro s hs
    obtain ⟨o, ho, rfl⟩ := List.mem_map.1 hs
    obtain ⟨n, hn, hno⟩ := hescapes o ho
    exact ⟨n, hn, List.mem_filter.2 ⟨hnames n hn, by simpa using hno⟩⟩
  have hlength : (complements names others).length = others.length := List.length_map _
  have hhits : hitsAll (complements names others) names = true :=
    (hitsAll_complements fun _ => id).2 hescape
  obtain ⟨c, hc, -⟩ := exists_greedyChoice hhits
  have hbound := length_greedyChoice_le hnames hmeets hc
  rw [distinguishingSubset_eq_greedyHit hmany hothers hescape]
  refine ⟨?_, nodup_greedyHit _ _, ?_⟩
  · rw [escapes_iff_hitsAll (greedyHit_sublist names _).subset]
    exact hitsAll_greedyHit hhits
  · rw [← hlength]
    exact le_trans (by exact_mod_cast length_greedyHit_le hc) hbound

def common : List String :=
  ["a", "b", "c", "d", "e", "f", "g", "h", "i", "j", "k", "l", "m", "n"]

/-- Six sets: `left` escapes the first three and `right` the others, `lure` four of them. -/
def lured : List (List String) :=
  ["right" :: common, "right" :: common, "right" :: "lure" :: common, "left" :: common,
    "left" :: common, "left" :: "lure" :: common]

/-- Two names would do, but three are selected. -/
theorem lured_selection_bounded :
    16 < ("left" :: "right" :: "lure" :: common).length ∧ lured ≠ [] ∧
      Escapes lured {"left", "right"} ∧
      distinguishingSubset ("left" :: "right" :: "lure" :: common) lured = ["left", "right", "lure"] ∧
      (["left", "right", "lure"].length : ℚ) ≤ 2 * harmonic 6 := by
  have hselected : distinguishingSubset ("left" :: "right" :: "lure" :: common) lured =
      ["left", "right", "lure"] := by decide +kernel
  have hescapes : Escapes lured {"left", "right"} := by decide
  obtain ⟨-, -, hbound⟩ := greedy_selection_bounded ("left" :: "right" :: "lure" :: common) lured
    {"left", "right"} (by decide) (by decide) (by decide) hescapes
  rw [hselected] at hbound
  exact ⟨by decide, by decide, hescapes, hselected, hbound⟩

end DtoGen.Discrimination
