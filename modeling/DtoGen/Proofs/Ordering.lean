import DtoGen.Mapping.Record
import DtoGen.Proofs.Defects
import Mathlib.Data.List.Perm.Basic

namespace DtoGen

namespace Text

theorem isSurrogate_iff {n : Nat} : isSurrogate n = true ↔ 0xd800 ≤ n ∧ n ≤ 0xdfff := by
  simp only [isSurrogate, isHighSurrogate, isLowSurrogate, Bool.or_eq_true, Bool.and_eq_true,
    decide_eq_true_eq]
  omega

theorem isSurrogate_toNat (c : Char) : isSurrogate c.toNat = false := by
  have hvalid : c.toNat < 0xd800 ∨ 0xdfff < c.toNat ∧ c.toNat < 0x110000 := c.valid
  rw [Bool.eq_false_iff, ne_eq, isSurrogate_iff]
  omega

/-- A character counts as itself, or as the surrogate that it stands for. -/
theorem codePoint_eq (c : Char) : codePoint c = c.toNat ∨
    isSurrogate (codePoint c) = true ∧ c.toNat = standInShift + codePoint c := by
  cases hs : surrogate? c with
  | none => exact .inl (codePoint_of_surrogate?_eq_none hs)
  | some n =>
    have hcode : codePoint c = n := by rw [codePoint, hs, Option.getD_some]
    simp only [surrogate?] at hs
    split_ifs at hs with hsurrogate
    obtain rfl := Option.some.inj hs
    rw [hcode]
    refine .inr ⟨hsurrogate, ?_⟩
    rw [isSurrogate_iff] at hsurrogate
    generalize standInShift = k at *
    omega

/-- No two characters count as one code: a stand-in counts as a surrogate, which is no character. -/
theorem codePoint_injective : Function.Injective codePoint := by
  intro c d h
  refine Char.toNat_inj.1 ?_
  rcases codePoint_eq c with hc | ⟨hsc, hc⟩ <;> rcases codePoint_eq d with hd | ⟨hsd, hd⟩
  · rw [← hc, ← hd, h]
  · rw [← h, hc, isSurrogate_toNat] at hsd
    cases hsd
  · rw [h, hd, isSurrogate_toNat] at hsc
    cases hsc
  · rw [hc, hd, h]

theorem leChars_total (as bs : List Char) : (leChars as bs || leChars bs as) = true := by
  induction as generalizing bs with
  | nil => simp [leChars]
  | cons a as ih =>
    cases bs with
    | nil => simp [leChars]
    | cons b bs =>
      rw [leChars, leChars]
      by_cases hab : codePoint a = codePoint b
      · simpa [hab] using ih bs
      · rw [if_neg hab, if_neg (Ne.symm hab), Bool.or_eq_true, decide_eq_true_eq, decide_eq_true_eq]
        omega

theorem leChars_trans {as bs cs : List Char} (hab : leChars as bs = true)
    (hbc : leChars bs cs = true) : leChars as cs = true := by
  induction as generalizing bs cs with
  | nil => rfl
  | cons a as ih =>
    cases bs with
    | nil => cases hab
    | cons b bs =>
      cases cs with
      | nil => cases hbc
      | cons c cs =>
        -- the first codes that differ decide, in either comparison
        rw [leChars] at hab hbc ⊢
        split_ifs at hab hbc ⊢ with h₁ h₂ h₃
        · exact ih hab hbc
        all_goals simp only [decide_eq_true_eq] at *; omega

theorem leChars_antisymm {as bs : List Char} (hab : leChars as bs = true)
    (hba : leChars bs as = true) : as = bs := by
  induction as generalizing bs with
  | nil =>
    cases bs with
    | nil => rfl
    | cons b bs => cases hba
  | cons a as ih =>
    cases bs with
    | nil => cases hab
    | cons b bs =>
      rw [leChars] at hab hba
      by_cases hcode : codePoint a = codePoint b
      · rw [if_pos hcode] at hab
        rw [if_pos hcode.symm] at hba
        rw [codePoint_injective hcode, ih hab hba]
      · rw [if_neg hcode, decide_eq_true_eq] at hab
        rw [if_neg (Ne.symm hcode), decide_eq_true_eq] at hba
        omega

theorem le_antisymm {a b : String} (hab : le a b = true) (hba : le b a = true) : a = b :=
  String.toList_injective (leChars_antisymm hab hba)

end Text

section Named

variable {α : Type} {nameOf : α → String} {as bs : List α}

theorem pairwise_sortByName (nameOf : α → String) (as : List α) :
    (sortByName nameOf as).Pairwise fun a b => Text.le (nameOf a) (nameOf b) = true := by
  refine List.pairwise_mergeSort (fun a b c hab hbc => ?_) (fun a b => ?_) as
  · exact Text.leChars_trans hab hbc
  · exact Text.leChars_total _ _

/-- Elements with different names have one order by name. -/
theorem eq_of_pairwise_le (h : as.Perm bs) (hnames : (as.map nameOf).Nodup)
    (has : as.Pairwise fun a b => Text.le (nameOf a) (nameOf b) = true)
    (hbs : bs.Pairwise fun a b => Text.le (nameOf a) (nameOf b) = true) : as = bs :=
  List.Perm.eq_of_pairwise (fun _ _ ha hb hab hba =>
    List.inj_on_of_nodup_map hnames ha (h.mem_iff.2 hb) (Text.le_antisymm hab hba)) has hbs h

theorem sortByName_eq_of_perm (h : as.Perm bs) (hnames : (as.map nameOf).Nodup) :
    sortByName nameOf as = sortByName nameOf bs := by
  have hperm : (sortByName nameOf as).Perm (sortByName nameOf bs) :=
    (sortByName_perm _ as).trans (h.trans (sortByName_perm _ bs).symm)
  refine eq_of_pairwise_le hperm ?_ (pairwise_sortByName nameOf as) (pairwise_sortByName nameOf bs)
  exact ((sortByName_perm nameOf as).map nameOf).nodup_iff.2 hnames

theorem lastNamed_eq_of_perm (h : as.Perm bs) (hnames : (as.map nameOf).Nodup) (n : String) :
    lastNamed nameOf n as = lastNamed nameOf n bs := by
  refine Option.ext fun a => ?_
  rw [lastNamed_eq_some_iff hnames, lastNamed_eq_some_iff ((h.map nameOf).nodup_iff.1 hnames),
    h.mem_iff]

end Named

theorem closure_eq_of_perm {next : String → List String} {pool pool' work : List String}
    (h : pool.Perm pool') : closure next pool work = closure next pool' work := by
  induction pool, work using closure.induct next generalizing pool' with
  | case1 pool => rw [closure, closure]
  | case2 pool m rest hm ih =>
    rw [closure, closure, if_pos hm, if_pos (h.mem_iff.1 hm), ih (h.erase m)]
  | case3 pool m rest hm ih =>
    rw [closure, closure, if_neg hm, if_neg (mt h.mem_iff.2 hm), ih h]

namespace Locals

theorem fresh_congr {taken taken' : List String} (h : ∀ n, n ∈ taken ↔ n ∈ taken') (name : String) :
    fresh taken name = fresh taken' name := by
  fun_induction fresh taken name with
  | case1 name hmem ih =>
    rw [ih]
    conv_rhs => rw [fresh, dif_pos ((h name).1 hmem)]
  | case2 name hmem => rw [fresh, dif_neg (mt (h name).2 hmem)]

theorem assign_congr {taken taken' : List String} (h : ∀ n, n ∈ taken ↔ n ∈ taken')
    (names : List String) (table : List (String × String)) :
    assign taken names table = assign taken' names table := by
  induction names generalizing taken taken' table with
  | nil => rfl
  | cons n ns ih =>
    rw [assign, assign, fresh_congr h]
    split_ifs
    · exact ih h table
    · refine ih (fun m => ?_) _
      rw [List.mem_cons, List.mem_cons, h m]

end Locals

end DtoGen
