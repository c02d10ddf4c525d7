import DtoGen.Layout
import Mathlib.Data.List.Basic
import Mathlib.Data.List.TakeWhile
import Mathlib.Tactic.Common

namespace DtoGen.Layout

open Text

def Blank (s : List Char) : Prop := ∀ c ∈ s, isBlank c = true

theorem Blank.nil : Blank [] := by simp [Blank]

theorem Blank.append {s t : List Char} (hs : Blank s) (ht : Blank t) : Blank (s ++ t) :=
  List.forall_mem_append.2 ⟨hs, ht⟩

/-- The same text but for blanks: where some stand others may stand, and at the end none at all. -/
inductive Respaced : List Char → List Char → Prop where
  | trailing {b b' : List Char} (hb : Blank b) (hb' : Blank b') : Respaced b b'
  | keep (c : Char) {t f : List Char} (h : Respaced t f) : Respaced (c :: t) (c :: f)
  | gap {b b' t f : List Char} (hb : Blank b) (hne : b ≠ []) (hb' : Blank b') (hne' : b' ≠ [])
    (h : Respaced t f) : Respaced (b ++ t) (b' ++ f)

namespace Respaced

theorem symm {t f : List Char} (h : Respaced t f) : Respaced f t := by
  induction h with
  | trailing hb hb' => exact .trailing hb' hb
  | keep c _ ih => exact .keep c ih
  | gap hb hne hb' hne' _ ih => exact .gap hb' hne' hb hne ih

theorem append_left {t f : List Char} (s : List Char) (h : Respaced t f) : Respaced (s ++ t) (s ++ f) := by
  induction s with
  | nil => exact h
  | cons c s ih => exact .keep c ih

theorem append_blank {t f b : List Char} (h : Respaced t f) (hb : Blank b) : Respaced t (f ++ b) := by
  induction h with
  | trailing ht hf => exact .trailing ht (hf.append hb)
  | keep c _ ih => exact .keep c ih
  | gap ht hne hf hne' _ ih =>
    rw [List.append_assoc]
    exact .gap ht hne hf hne' ih

theorem of_cons {c : Char} {t f : List Char} (h : Respaced (c :: t) f) (hc : isBlank c = false) :
    ∃ f', f = c :: f' ∧ Respaced t f' := by
  generalize hs : c :: t = s at h
  cases h with
  | trailing hb _ =>
    have := hb c (by simp [← hs])
    simp [hc] at this
  | keep d h =>
    obtain ⟨rfl, rfl⟩ := List.cons.inj hs
    exact ⟨_, rfl, h⟩
  | @gap b b' u f hb hne _ _ _ =>
    obtain ⟨d, b, rfl⟩ := List.exists_cons_of_ne_nil hne
    obtain ⟨rfl, -⟩ := List.cons.inj hs
    have := hb c List.mem_cons_self
    simp [hc] at this

/-- What stands before such a character and what stands from it on change apart from each other. -/
theorem of_append {x : List Char} {c : Char} {t f : List Char} (h : Respaced (x ++ c :: t) f)
    (hc : isBlank c = false) : ∃ x' f', f = x' ++ c :: f' ∧ Respaced x x' ∧ Respaced t f' := by
  generalize hs : x ++ c :: t = s at h
  induction h generalizing x with
  | trailing hb _ =>
    have := hb c (by simp [← hs])
    simp [hc] at this
  | @keep d u f h ih =>
    cases x with
    | nil =>
      obtain ⟨rfl, rfl⟩ := List.cons.inj hs
      exact ⟨[], f, rfl, .trailing .nil .nil, h⟩
    | cons e x =>
      obtain ⟨rfl, hrest⟩ := List.cons.inj hs
      obtain ⟨x', f', rfl, hx, hf⟩ := ih hrest
      exact ⟨e :: x', f', rfl, .keep e hx, hf⟩
  | @gap b b' u f hb hne hb' hne' h ih =>
    rcases List.append_eq_append_iff.1 hs with ⟨z, rfl, hz⟩ | ⟨z, rfl, rfl⟩
    · cases z with
      | nil =>
        obtain ⟨x', f', rfl, hx, hf⟩ := ih (x := []) hz
        refine ⟨b' ++ x', f', (List.append_assoc _ _ _).symm, ?_, hf⟩
        simpa using Respaced.gap hb hne hb' hne' hx
      | cons d z =>
        obtain ⟨rfl, -⟩ := List.cons.inj hz
        have := hb c (by simp)
        simp [hc] at this
    · obtain ⟨x', f', rfl, hx, hf⟩ := ih rfl
      exact ⟨b' ++ x', f', (List.append_assoc _ _ _).symm, .gap hb hne hb' hne' hx, hf⟩

end Respaced

theorem isBlank_of_isBreak {c : Char} (h : isBreak c = true) : isBlank c = true := by
  simp only [isBreak, isBlank, Bool.or_eq_true, Bool.and_eq_true, decide_eq_true_eq, beq_iff_eq] at h ⊢
  omega

theorem lines_ne_nil {t : List Char} (h : t ≠ []) : lines t ≠ [] := by
  fun_cases lines t with
  | case1 => exact absurd rfl h
  | case2 | case3 => simp
  | case4 c rest => cases lines rest <;> simp [consHead]

theorem exists_of_lines_eq_cons {t l : List Char} {ls : List (List Char)} (h : lines t = l :: ls) :
    (t = l ∧ ls = []) ∨
      ∃ b t', t = l ++ (b ++ t') ∧ b ≠ [] ∧ Blank b ∧ lines t' = ls := by
  fun_induction lines t generalizing l ls with
  | case1 => cases h
  | case2 rest ih =>
    obtain ⟨rfl, rfl⟩ := List.cons.inj h
    exact .inr ⟨['\r', '\n'], rest, rfl, by simp, by simp [Blank, isBlank], rfl⟩
  | case3 c rest _ hb ih =>
    obtain ⟨rfl, rfl⟩ := List.cons.inj h
    exact .inr ⟨[c], rest, rfl, by simp, by simpa [Blank] using isBlank_of_isBreak hb, rfl⟩
  | case4 c rest _ hb ih =>
    cases hl : lines rest with
    | nil =>
      have hrest : rest = [] := by
        by_contra hne
        exact lines_ne_nil hne hl
      rw [hl, consHead] at h
      obtain ⟨rfl, rfl⟩ := List.cons.inj h
      exact .inl ⟨by rw [hrest], rfl⟩
    | cons p ps =>
      rw [hl, consHead] at h
      obtain ⟨rfl, rfl⟩ := List.cons.inj h
      rcases ih hl with ⟨rfl, rfl⟩ | ⟨b, t', rfl, hne, hblank, htail⟩
      · exact .inl ⟨rfl, rfl⟩
      · exact .inr ⟨b, t', rfl, hne, hblank, htail⟩

theorem exists_trim (s : List Char) : ∃ x y, s = x ++ (trim s ++ y) ∧ Blank x ∧ Blank y := by
  have hleft : s = s.takeWhile isBlank ++ trimLeft s := (List.takeWhile_append_dropWhile).symm
  have hright : trimLeft s = trim s ++ ((trimLeft s).reverse.takeWhile isBlank).reverse := by
    rw [trim, trimRight, ← List.reverse_append, List.takeWhile_append_dropWhile, List.reverse_reverse]
  refine ⟨_, _, hleft.trans (congrArg _ hright), fun c hc => ?_, fun c hc => ?_⟩
  · exact List.mem_takeWhile_imp hc
  · exact List.mem_takeWhile_imp (List.mem_reverse.1 hc)

theorem blank_indent (depth : Nat) : Blank (List.replicate (2 * depth) ' ') := by
  intro c hc
  rw [List.eq_of_mem_replicate hc]
  rfl

theorem exists_place (depth : Nat) (line : List Char) :
    ∃ b, (place depth line).1 = b ++ line ∧ Blank b := by
  unfold place
  dsimp only
  split_ifs
  · refine ⟨List.replicate (2 * depth) ' ' ++ [' '], by simp [indent], ?_⟩
    exact (blank_indent depth).append (by simp [Blank, isBlank])
  · exact ⟨_, rfl, blank_indent depth⟩
  · exact ⟨_, rfl, blank_indent _⟩

theorem blank_of_trim {s : List Char} (h : trim s = []) : Blank s := by
  obtain ⟨x, y, hs, hx, hy⟩ := exists_trim s
  rw [hs, h]
  exact hx.append hy

theorem joinLines_cons_cons (a b : List Char) (ls : List (List Char)) :
    joinLines (a :: b :: ls) = a ++ '\n' :: joinLines (b :: ls) := by
  simp [joinLines, List.intercalate]

theorem joinLines_singleton (a : List Char) : joinLines [a] = a := by simp [joinLines, List.intercalate]

/-- The same text but for blanks, which may also differ at the front. -/
def Relaid (t f : List Char) : Prop :=
  ∃ b u b' g, t = b ++ u ∧ f = b' ++ g ∧ Blank b ∧ Blank b' ∧ Respaced u g

theorem Relaid.blank_append {t f b : List Char} (hb : Blank b) (h : Relaid t f) : Relaid (b ++ t) f := by
  obtain ⟨c, u, c', g, rfl, rfl, hc, hc', hu⟩ := h
  exact ⟨b ++ c, u, c', g, (List.append_assoc _ _ _).symm, rfl, hb.append hc, hc', hu⟩

theorem Relaid.append_blank {t f b : List Char} (hb : Blank b) (h : Relaid t f) : Relaid t (b ++ f) := by
  obtain ⟨c, u, c', g, rfl, rfl, hc, hc', hu⟩ := h
  exact ⟨c, u, b ++ c', g, rfl, (List.append_assoc _ _ _).symm, hc, hb.append hc', hu⟩

theorem Relaid.append_blank_left {t f b : List Char} (hb : Blank b) (h : Relaid t f) :
    Relaid (t ++ b) f := by
  obtain ⟨c, u, c', g, rfl, rfl, hc, hc', hu⟩ := h
  exact ⟨c, u ++ b, c', g, List.append_assoc _ _ _, rfl, hc, hc', (hu.symm.append_blank hb).symm⟩

theorem Relaid.line {x i line y z f : List Char} (hx : Blank x) (hi : Blank i)
    (h : Respaced (y ++ z) f) : Relaid (x ++ (line ++ y) ++ z) (i ++ (line ++ f)) := by
  refine ⟨x, line ++ (y ++ z), i, line ++ f, by simp, rfl, hx, hi, h.append_left line⟩

/-- What placed lines are to the text they were taken from: the same but for blanks, or nothing. -/
def Places (t : List Char) (ls : List (List Char)) : Prop :=
  (Blank t ∧ ls = []) ∨ (ls ≠ [] ∧ Relaid t (joinLines ls))

theorem Places.blank_append {t b : List Char} {ls : List (List Char)} (hb : Blank b) (h : Places t ls) :
    Places (b ++ t) ls :=
  h.imp (fun h => ⟨hb.append h.1, h.2⟩) fun h => ⟨h.1, h.2.blank_append hb⟩

theorem relaid_cons {x line y i b t : List Char} {ls : List (List Char)} (hx : Blank x) (hy : Blank y)
    (hi : Blank i) (hb : Blank b) (hne : b ≠ []) (h : Places t ls) :
    Relaid (x ++ (line ++ y) ++ (b ++ t)) (joinLines ((i ++ line) :: ls)) := by
  rcases h with ⟨ht, rfl⟩ | ⟨hls, c, u, c', g, rfl, hg, hc, hc', hu⟩
  · rw [joinLines_singleton, ← List.append_nil (i ++ line), List.append_assoc i]
    exact .line hx hi (.trailing (hy.append (hb.append ht)) .nil)
  · obtain ⟨p, ps, rfl⟩ := List.exists_cons_of_ne_nil hls
    have hgap : Respaced ((y ++ (b ++ c)) ++ u) (('\n' :: c') ++ g) :=
      .gap (hy.append (hb.append hc)) (by simp [hne]) (List.forall_mem_cons.2 ⟨rfl, hc'⟩) (by simp) hu
    have hline : Relaid (x ++ (line ++ y) ++ (b ++ (c ++ u))) (i ++ (line ++ (('\n' :: c') ++ g))) :=
      .line hx hi (by simpa using hgap)
    rwa [joinLines_cons_cons, hg, List.append_assoc i]

theorem places_placeAll (ls : List (List Char)) (depth : Nat) (gap : Bool) :
    ∀ t, lines t = ls → Places t (placeAll depth gap ls) := by
  induction ls generalizing depth gap with
  | nil =>
    intro t h
    refine .inl ⟨?_, rfl⟩
    by_contra hne
    refine lines_ne_nil (t := t) ?_ h
    rintro rfl
    exact hne .nil
  | cons l ls ih =>
    intro t h
    rw [placeAll]
    obtain ⟨x, y, hline, hx, hy⟩ := exists_trim l
    generalize trim l = line at *
    subst hline
    by_cases hl : line = []
    · subst hl
      have hblank : Blank (x ++ ([] ++ y)) := hx.append hy
      rcases exists_of_lines_eq_cons h with ⟨rfl, rfl⟩ | ⟨b, t', rfl, -, hb, ht'⟩
      · exact .inl ⟨hblank, rfl⟩
      · exact ((ih depth true t' ht').blank_append hb).blank_append hblank
    · have hempty : line.isEmpty = false := by simpa using hl
      obtain ⟨i, hi, hindent⟩ := exists_place depth line
      have hplaced : Relaid t (joinLines ((place depth line).1 ::
          placeAll (place depth line).2 false ls)) := by
        rw [hi]
        rcases exists_of_lines_eq_cons h with ⟨rfl, rfl⟩ | ⟨b, t', rfl, hne, hb, ht'⟩
        · rw [placeAll, joinLines_singleton, ← List.append_nil (i ++ line), List.append_assoc i,
            ← List.append_nil (x ++ (line ++ y))]
          exact .line hx hindent (.trailing (hy.append .nil) .nil)
        · exact relaid_cons hx hy hindent hb hne (ih _ false t' ht')
      simp only [hempty, Bool.false_eq_true, if_false]
      cases gap with
      | true =>
        refine .inr ⟨by simp, ?_⟩
        rw [if_pos rfl, joinLines_cons_cons]
        exact Relaid.append_blank (b := ['\n']) (by simp [Blank, isBlank]) hplaced
      | false => exact .inr ⟨by simp, hplaced⟩

theorem exists_dropWhile_lines (ls : List (List Char)) : ∀ t, lines t = ls →
    ∃ b t', t = b ++ t' ∧ Blank b ∧ lines t' = ls.dropWhile fun l => (trim l).isEmpty := by
  induction ls with
  | nil => exact fun t h => ⟨[], t, rfl, .nil, h⟩
  | cons l ls ih =>
    intro t h
    rw [List.dropWhile_cons]
    split_ifs with hl
    · have hblank := blank_of_trim (by simpa using hl)
      rcases exists_of_lines_eq_cons h with ⟨rfl, rfl⟩ | ⟨b, t', rfl, -, hb, ht'⟩
      · exact ⟨t, [], by simp, hblank, rfl⟩
      · obtain ⟨c, u, rfl, hc, hu⟩ := ih t' ht'
        exact ⟨l ++ (b ++ c), u, by simp, hblank.append (hb.append hc), hu⟩
    · exact ⟨[], t, rfl, .nil, h⟩

theorem relaid_reindent {ls : List String} (h : ¬ Blank (joinLines (ls.map String.toList))) :
    Relaid (joinLines (ls.map String.toList)) (reindent ls).toList := by
  obtain ⟨b, t, ht, hb, hlines⟩ := exists_dropWhile_lines _ (joinLines (ls.map String.toList)) rfl
  rcases places_placeAll _ 0 false t hlines with ⟨hblank, -⟩ | ⟨-, hrelaid⟩
  · rw [ht] at h
    exact absurd (hb.append hblank) h
  · obtain ⟨c, u, c', g, hc, hg, hcb, hcb', hu⟩ := hrelaid.blank_append hb
    refine ⟨c, u, c', g ++ ['\n'], ht.trans hc, ?_, hcb, hcb', hu.append_blank (by simp [Blank, isBlank])⟩
    rw [reindent, reindentLines, String.toList_ofList, hg, List.append_assoc]

end DtoGen.Layout
