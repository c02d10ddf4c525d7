import DtoGen.Proofs.Respacing
import Mathlib.Data.List.Chain
import Mathlib.Data.List.DropRight

namespace DtoGen.Layout

open Text

structure Trimmed (s : List Char) : Prop where
  head : ∀ c, s.head? = some c → isBlank c = false
  last : ∀ c, s.getLast? = some c → isBlank c = false

theorem trimmed_trim (s : List Char) : Trimmed (trim s) where
  head c hc := by
    obtain ⟨y, hy⟩ : trim s <+: trimLeft s := List.rdropWhile_prefix isBlank (trimLeft s)
    have hhead : (trimLeft s).head? = some c := by rw [← hy, List.head?_append, hc, Option.some_or]
    rw [trimLeft, ← List.find?_not_eq_head?_dropWhile] at hhead
    simpa using List.find?_some hhead
  last c hc := by
    rw [trim, trimRight, List.getLast?_reverse, ← List.find?_not_eq_head?_dropWhile] at hc
    simpa using List.find?_some hc

theorem Trimmed.trimRight_eq {s : List Char} (h : Trimmed s) : trimRight s = s := by
  refine List.rdropWhile_eq_self_iff.2 fun hne => ?_
  simpa using h.last _ (List.getLast?_eq_some_getLast hne)

theorem Trimmed.trimLeft_append {s : List Char} (h : Trimmed s) (hne : s ≠ []) (t : List Char) :
    trimLeft (s ++ t) = s ++ t := by
  cases s with
  | nil => exact absurd rfl hne
  | cons c s => exact List.dropWhile_cons_of_neg (by simpa using h.head c rfl)

theorem Trimmed.trim_eq {s : List Char} (h : Trimmed s) : trim s = s := by
  by_cases hne : s = []
  · rw [hne]
    rfl
  · have hleft := h.trimLeft_append hne []
    rw [List.append_nil] at hleft
    rw [trim, hleft, h.trimRight_eq]

theorem trim_append_of_blank {b : List Char} (hb : Blank b) (s : List Char) : trim (b ++ s) = trim s := by
  have hleft : trimLeft (b ++ s) = trimLeft s := List.dropWhile_append_of_pos hb
  rw [trim, hleft, trim]

theorem mem_of_mem_trim {s : List Char} {c : Char} (h : c ∈ trim s) : c ∈ s := by
  obtain ⟨x, y, hs, -, -⟩ := exists_trim s
  rw [hs]
  simp [h]

theorem trim_ne_nil_iff {s : List Char} : trim s ≠ [] ↔ ∃ c ∈ s, isBlank c = false := by
  constructor
  · intro h
    obtain ⟨c, t, ht⟩ := List.exists_cons_of_ne_nil h
    refine ⟨c, mem_of_mem_trim (by simp [ht]), ?_⟩
    exact (trimmed_trim s).head c (by simp [ht])
  · rintro ⟨c, hc, hblank⟩ h
    have := blank_of_trim h c hc
    simp [hblank] at this

def OneLine (s : List Char) : Prop := ∀ c ∈ s, isBreak c = false

instance : DecidablePred OneLine := List.decidableBAll fun c => isBreak c = false

theorem OneLine.nil : OneLine [] := List.forall_mem_nil _

theorem oneLine_of_mem_lines {t l : List Char} (h : l ∈ lines t) : OneLine l := by
  fun_induction lines t generalizing l with
  | case1 => cases h
  | case2 rest ih =>
    rcases List.mem_cons.1 h with rfl | h
    · exact .nil
    · exact ih h
  | case3 c rest _ hc ih =>
    rcases List.mem_cons.1 h with rfl | h
    · exact .nil
    · exact ih h
  | case4 c rest _ hc ih =>
    have hc : isBreak c = false := by simpa using hc
    cases hl : lines rest with
    | nil =>
      rw [hl, consHead, List.mem_singleton] at h
      subst h
      simpa [OneLine] using hc
    | cons p ps =>
      rw [hl, consHead] at h
      rcases List.mem_cons.1 h with rfl | h
      · exact List.forall_mem_cons.2 ⟨hc, ih (by simp [hl])⟩
      · exact ih (by simp [hl, h])

theorem lines_cons_of_not_isBreak {c : Char} (hc : isBreak c = false) (t : List Char) :
    lines (c :: t) = consHead c (lines t) := by
  rw [lines, if_neg (by simp [hc])]
  rintro rest rfl -
  simp [isBreak] at hc

theorem lines_newline (t : List Char) : lines ('\n' :: t) = [] :: lines t := by
  rw [lines, if_pos (by decide)]
  simp

theorem lines_append_newline {a : List Char} (ha : OneLine a) (t : List Char) :
    lines (a ++ '\n' :: t) = a :: lines t := by
  induction a with
  | nil => exact lines_newline t
  | cons c a ih =>
    obtain ⟨hc, ha⟩ := List.forall_mem_cons.1 ha
    rw [List.cons_append, lines_cons_of_not_isBreak hc, ih ha, consHead]

theorem lines_of_oneLine {a : List Char} (ha : OneLine a) (hne : a ≠ []) : lines a = [a] := by
  induction a with
  | nil => exact absurd rfl hne
  | cons c a ih =>
    obtain ⟨hc, ha⟩ := List.forall_mem_cons.1 ha
    rw [lines_cons_of_not_isBreak hc]
    cases a with
    | nil => rfl
    | cons d a => rw [ih ha (by simp), consHead]

theorem exists_line_of_mem {t : List Char} {c : Char} (h : c ∈ t) (hc : isBreak c = false) :
    ∃ l ∈ lines t, c ∈ l := by
  fun_induction lines t with
  | case1 => cases h
  | case2 rest ih =>
    have hmem : c ∈ rest := by
      rcases List.mem_cons.1 h with rfl | h
      · simp [isBreak] at hc
      · rcases List.mem_cons.1 h with rfl | h
        · simp [isBreak] at hc
        · exact h
    obtain ⟨l, hl, hcl⟩ := ih hmem
    exact ⟨l, List.mem_cons_of_mem _ hl, hcl⟩
  | case3 d rest _ hd ih =>
    have hmem : c ∈ rest := by
      rcases List.mem_cons.1 h with rfl | h
      · simp [hc] at hd
      · exact h
    obtain ⟨l, hl, hcl⟩ := ih hmem
    exact ⟨l, List.mem_cons_of_mem _ hl, hcl⟩
  | case4 d rest _ hd ih =>
    rcases List.mem_cons.1 h with rfl | h
    · cases lines rest <;> simp [consHead]
    · obtain ⟨l, hl, hcl⟩ := ih h
      cases hrest : lines rest with
      | nil => simp [hrest] at hl
      | cons p ps =>
        rw [hrest] at hl
        rcases List.mem_cons.1 hl with rfl | hl
        · exact ⟨d :: l, by simp [consHead], List.mem_cons_of_mem d hcl⟩
        · exact ⟨l, by simp [consHead, hl], hcl⟩

/-- Where a line feed joins two texts their lines stand one after the other; at most an empty line is
added between them. -/
theorem lines_joined (x y : List Char) : lines (x ++ '\n' :: y) = lines x ++ lines y ∨
    lines (x ++ '\n' :: y) = lines x ++ [] :: lines y := by
  fun_induction lines x with
  | case1 => exact .inr (lines_newline y)
  | case2 rest ih => simpa [lines] using ih
  | case3 c rest hcr hc ih =>
    by_cases hend : c = '\r' ∧ rest = []
    · -- the two characters are one break
      obtain ⟨rfl, rfl⟩ := hend
      exact .inl (by simp [lines])
    · have hcut : lines (c :: (rest ++ '\n' :: y)) = [] :: lines (rest ++ '\n' :: y) := by
        rw [lines, if_pos hc]
        intro u hcr' hu
        cases rest with
        | nil => exact hend ⟨hcr', rfl⟩
        | cons d rest =>
          obtain ⟨rfl, -⟩ := List.cons.inj hu
          exact hcr rest hcr' rfl
      rw [List.cons_append, hcut]
      exact ih.imp (fun h => by rw [h, List.cons_append]) fun h => by rw [h, List.cons_append]
  | case4 c rest hcr hc ih =>
    have hc : isBreak c = false := by simpa using hc
    rw [List.cons_append, lines_cons_of_not_isBreak hc]
    cases hrest : lines rest with
    | nil =>
      obtain rfl : rest = [] := by
        by_contra hne
        exact lines_ne_nil hne hrest
      rw [List.nil_append, lines_newline]
      exact .inl rfl
    | cons p ps =>
      rw [hrest] at ih
      exact ih.imp (fun h => by rw [h]; rfl) fun h => by rw [h]; rfl

/-- Lines without blanks around them; blank ones do not count. -/
def codeLines (ls : List (List Char)) : List (List Char) := (ls.map trim).filter fun l => !l.isEmpty

/-- The lines of a text that are not blank, without blanks around them. -/
def shownLines (t : List Char) : List (List Char) := codeLines (lines t)

theorem codeLines_append (as bs : List (List Char)) :
    codeLines (as ++ bs) = codeLines as ++ codeLines bs := by
  simp [codeLines]

theorem codeLines_cons_of_blank {l : List Char} (hl : trim l = []) (ls : List (List Char)) :
    codeLines (l :: ls) = codeLines ls := by
  simp [codeLines, hl]

theorem codeLines_cons {l : List Char} (hl : trim l ≠ []) (ls : List (List Char)) :
    codeLines (l :: ls) = trim l :: codeLines ls := by
  simp [codeLines, hl]

theorem shownLines_joined (x y : List Char) :
    shownLines (x ++ '\n' :: y) = shownLines x ++ shownLines y := by
  unfold shownLines
  rcases lines_joined x y with h | h
  · rw [h, codeLines_append]
  · rw [h, codeLines_append, codeLines_cons_of_blank rfl]

theorem shownLines_joinLines (ls : List (List Char)) :
    shownLines (joinLines ls) = ls.flatMap shownLines := by
  induction ls with
  | nil => rfl
  | cons l ls ih =>
    cases ls with
    | nil => rw [joinLines_singleton, List.flatMap_singleton]
    | cons m ls => rw [joinLines_cons_cons, shownLines_joined, ih, ← List.flatMap_cons]

theorem shownLines_of_oneLine {a : List Char} (ha : OneLine a) : shownLines a = codeLines [a] := by
  by_cases hne : a = []
  · rw [hne]
    rfl
  · rw [shownLines, lines_of_oneLine ha hne]

theorem shownLines_ne_nil {t : List Char} (h : trim t ≠ []) : shownLines t ≠ [] := by
  obtain ⟨c, hc, hblank⟩ := trim_ne_nil_iff.1 h
  have hbreak : isBreak c = false := by
    by_contra hb
    simp [isBlank_of_isBreak (by simpa using hb)] at hblank
  obtain ⟨l, hl, hcl⟩ := exists_line_of_mem hc hbreak
  have hmem : trim l ∈ shownLines t :=
    List.mem_filter.2 ⟨List.mem_map_of_mem hl, by simpa using trim_ne_nil_iff.2 ⟨c, hcl, hblank⟩⟩
  exact List.ne_nil_of_mem hmem

theorem trim_place {l : List Char} (h : Trimmed l) (depth : Nat) : trim (place depth l).1 = l := by
  obtain ⟨b, hplace, hb⟩ := exists_place depth l
  rw [hplace, trim_append_of_blank hb, h.trim_eq]

theorem OneLine.indent {l : List Char} (h : OneLine l) (depth : Nat) : OneLine (indent depth l) := by
  refine List.forall_mem_append.2 ⟨fun c hc => ?_, h⟩
  rw [List.eq_of_mem_replicate hc]
  rfl

theorem OneLine.place {l : List Char} (h : OneLine l) (depth : Nat) : OneLine (place depth l).1 := by
  unfold Layout.place
  dsimp only
  split_ifs
  · exact OneLine.indent (List.forall_mem_cons.2 ⟨rfl, h⟩) depth
  · exact h.indent depth
  · exact h.indent _

/-- Lines of code and what the layout makes of them from some depth on: each is placed, some of them
behind an empty line. -/
inductive Laid : Nat → List (List Char) → List (List Char) → Prop where
  | nil (depth : Nat) : Laid depth [] []
  | line {depth : Nat} {l : List Char} {code out : List (List Char)} (hl : Trimmed l) (hne : l ≠ [])
    (h : Laid (place depth l).2 code out) : Laid depth (l :: code) ((place depth l).1 :: out)
  | gap {depth : Nat} {l : List Char} {code out : List (List Char)} (hl : Trimmed l) (hne : l ≠ [])
    (h : Laid (place depth l).2 code out) : Laid depth (l :: code) ([] :: (place depth l).1 :: out)

theorem placeAll_cons_of_blank {l : List Char} (hl : trim l = []) (depth : Nat) (gap : Bool)
    (ls : List (List Char)) : placeAll depth gap (l :: ls) = placeAll depth true ls := by
  simp [placeAll, hl]

theorem placeAll_cons {l : List Char} (hl : trim l ≠ []) (depth : Nat) (ls : List (List Char)) :
    placeAll depth false (l :: ls) =
      (place depth (trim l)).1 :: placeAll (place depth (trim l)).2 false ls := by
  simp [placeAll, hl]

theorem placeAll_gap_cons {l : List Char} (hl : trim l ≠ []) (depth : Nat) (ls : List (List Char)) :
    placeAll depth true (l :: ls) = [] :: placeAll depth false (l :: ls) := by
  simp [placeAll, hl]

theorem laid_placeAll (ls : List (List Char)) (depth : Nat) (gap : Bool) :
    Laid depth (codeLines ls) (placeAll depth gap ls) := by
  -- depth and gap are those left by the lines before
  induction ls generalizing depth gap with
  | nil => exact .nil depth
  | cons l ls ih =>
    by_cases hl : trim l = []
    · rw [codeLines_cons_of_blank hl, placeAll_cons_of_blank hl]
      exact ih depth true
    · rw [codeLines_cons hl]
      cases gap with
      | false =>
        rw [placeAll_cons hl]
        exact .line (trimmed_trim l) hl (ih _ false)
      | true =>
        rw [placeAll_gap_cons hl, placeAll_cons hl]
        exact .gap (trimmed_trim l) hl (ih _ false)

namespace Laid

variable {depth : Nat} {code out : List (List Char)}

theorem placeAll_eq (h : Laid depth code out) : placeAll depth false out = out := by
  -- a placed line is trimmed to its line of code, for which the same is decided again
  induction h with
  | nil depth => rfl
  | @line depth l code out hl hne _ ih =>
    have htrim := trim_place hl depth
    rw [placeAll_cons (by rwa [htrim]), htrim, ih]
  | @gap depth l code out hl hne _ ih =>
    have htrim := trim_place hl depth
    rw [placeAll_cons_of_blank rfl, placeAll_gap_cons (by rwa [htrim]), placeAll_cons (by rwa [htrim]),
      htrim, ih]

theorem codeLines_eq (h : Laid depth code out) : codeLines out = code := by
  induction h with
  | nil depth => rfl
  | @line depth l code out hl hne _ ih =>
    have htrim := trim_place hl depth
    rw [codeLines_cons (by rwa [htrim]), htrim, ih]
  | @gap depth l code out hl hne _ ih =>
    have htrim := trim_place hl depth
    rw [codeLines_cons_of_blank rfl, codeLines_cons (by rwa [htrim]), htrim, ih]

theorem oneLine (h : Laid depth code out) (hcode : ∀ l ∈ code, OneLine l) : ∀ l ∈ out, OneLine l := by
  induction h with
  | nil depth => exact List.forall_mem_nil _
  | line hl hne _ ih =>
    obtain ⟨hfirst, hrest⟩ := List.forall_mem_cons.1 hcode
    exact List.forall_mem_cons.2 ⟨hfirst.place _, ih hrest⟩
  | gap hl hne _ ih =>
    obtain ⟨hfirst, hrest⟩ := List.forall_mem_cons.1 hcode
    exact List.forall_mem_cons.2 ⟨.nil, List.forall_mem_cons.2 ⟨hfirst.place _, ih hrest⟩⟩

theorem isChain (h : Laid depth code out) :
    out.IsChain fun a b => ¬ (trim a = [] ∧ trim b = []) := by
  induction h with
  | nil depth => exact .nil
  | @line depth l code out hl hne _ ih =>
    refine List.isChain_cons.2 ⟨fun b _ hboth => hne ?_, ih⟩
    rw [← trim_place hl depth, hboth.1]
  | @gap depth l code out hl hne _ ih =>
    have hplaced : trim (place depth l).1 ≠ [] := by rwa [trim_place hl depth]
    refine List.isChain_cons.2 ⟨fun b hb hboth => hplaced ?_, ?_⟩
    · obtain rfl := Option.some.inj hb
      exact hboth.2
    · exact List.isChain_cons.2 ⟨fun b _ hboth => hplaced hboth.1, ih⟩

theorem last (h : Laid depth code out) :
    ∀ m, out.getLast? = some m → ∃ c, m.getLast? = some c ∧ isBlank c = false := by
  have hplaced : ∀ (depth : Nat) {l : List Char}, Trimmed l → l ≠ [] →
      ∃ c, (place depth l).1.getLast? = some c ∧ isBlank c = false := by
    intro depth l hl hne
    obtain ⟨b, hb, -⟩ := exists_place depth l
    have hc := List.getLast?_eq_some_getLast hne
    exact ⟨_, by rw [hb, List.getLast?_append, hc, Option.some_or], hl.last _ hc⟩
  induction h with
  | nil depth => exact nofun
  | @line depth l code out hl hne _ ih =>
    intro m hm
    cases out with
    | nil =>
      obtain rfl : (place depth l).1 = m := Option.some.inj hm
      exact hplaced depth hl hne
    | cons o out => exact ih m hm
  | @gap depth l code out hl hne _ ih =>
    intro m hm
    cases out with
    | nil =>
      obtain rfl : (place depth l).1 = m := Option.some.inj hm
      exact hplaced depth hl hne
    | cons o out => exact ih m hm

end Laid

theorem dropWhile_blank_eq {out : List (List Char)} (h : ∀ l, out.head? = some l → trim l ≠ []) :
    (out.dropWhile fun l => (trim l).isEmpty) = out := by
  cases out with
  | nil => rfl
  | cons l out => exact List.dropWhile_cons_of_neg (by simpa using h l rfl)

theorem codeLines_dropWhile (ls : List (List Char)) :
    codeLines (ls.dropWhile fun l => (trim l).isEmpty) = codeLines ls := by
  induction ls with
  | nil => rfl
  | cons l ls ih =>
    rw [List.dropWhile_cons]
    split_ifs with hl
    · rw [ih, codeLines_cons_of_blank (by simpa using hl)]
    · rfl

theorem laid_reindentLines (ls : List (List Char)) :
    Laid 0 (ls.flatMap shownLines) (reindentLines ls) := by
  have h := laid_placeAll ((lines (joinLines ls)).dropWhile fun l => (trim l).isEmpty) 0 false
  rwa [codeLines_dropWhile, ← shownLines, shownLines_joinLines] at h

theorem head_placeAll_ne_blank {ls : List (List Char)} (h : ∀ l, ls.head? = some l → trim l ≠ [])
    (depth : Nat) : ∀ l, (placeAll depth false ls).head? = some l → trim l ≠ [] := by
  cases ls with
  | nil => exact nofun
  | cons m ls =>
    have hm := h m rfl
    intro l hl
    rw [placeAll_cons hm] at hl
    obtain rfl : (place depth (trim m)).1 = l := Option.some.inj hl
    rwa [trim_place (trimmed_trim m)]

theorem head_reindentLines_ne_blank (ls : List (List Char)) :
    ∀ l, (reindentLines ls).head? = some l → trim l ≠ [] := by
  refine head_placeAll_ne_blank (fun l hl => ?_) 0
  rw [← List.find?_not_eq_head?_dropWhile] at hl
  simpa using List.find?_some hl

theorem oneLine_of_mem_flatMap_shownLines {ls : List (List Char)} :
    ∀ l ∈ ls.flatMap shownLines, OneLine l := by
  intro l hl
  obtain ⟨t, -, hl⟩ := List.mem_flatMap.1 hl
  obtain ⟨m, hm, rfl⟩ := List.mem_map.1 (List.mem_of_mem_filter hl)
  exact fun c hc => oneLine_of_mem_lines hm c (mem_of_mem_trim hc)

theorem lines_joinLines_newline {out : List (List Char)} (h : ∀ l ∈ out, OneLine l) (hne : out ≠ []) :
    lines (joinLines out ++ ['\n']) = out := by
  induction out with
  | nil => exact absurd rfl hne
  | cons l out ih =>
    obtain ⟨hl, hout⟩ := List.forall_mem_cons.1 h
    cases out with
    | nil =>
      rw [joinLines_singleton, lines_append_newline hl]
      rfl
    | cons m out =>
      rw [joinLines_cons_cons, List.append_assoc, List.cons_append, lines_append_newline hl,
        ih hout (by simp)]

/-- Without the one after the last line they are the same, unless that line is empty. -/
theorem lines_joinLines {out : List (List Char)} (h : ∀ l ∈ out, OneLine l)
    (hlast : ∀ l, out.getLast? = some l → l ≠ []) : lines (joinLines out) = out := by
  induction out with
  | nil => rfl
  | cons l out ih =>
    obtain ⟨hl, hout⟩ := List.forall_mem_cons.1 h
    cases out with
    | nil => rw [joinLines_singleton, lines_of_oneLine hl (hlast l rfl)]
    | cons m out => rw [joinLines_cons_cons, lines_append_newline hl, ih hout hlast]

theorem getLast?_joinLines {out : List (List Char)} {m : List Char} (h : out.getLast? = some m)
    (hm : m ≠ []) : (joinLines out).getLast? = m.getLast? := by
  induction out with
  | nil => cases h
  | cons l out ih =>
    cases out with
    | nil =>
      obtain rfl : l = m := Option.some.inj h
      rw [joinLines_singleton]
    | cons n out =>
      have hc := List.getLast?_eq_some_getLast hm
      rw [joinLines_cons_cons, List.getLast?_append, List.getLast?_cons, ih h, hc]
      rfl

/-- A text whose lines are set apart by single empty lines at most, with none at either end, and that ends
with one line feed. -/
structure Tidy (t : List Char) : Prop where
  apart : (lines t).IsChain fun a b => ¬ (trim a = [] ∧ trim b = [])
  first : ∀ l, (lines t).head? = some l → trim l ≠ []
  last : ∀ l, (lines t).getLast? = some l → trim l ≠ []
  ending : ∃ body c, t = body ++ [c, '\n'] ∧ isBlank c = false

section Settled

variable (ls : List (List Char))

theorem oneLine_reindentLines : ∀ l ∈ reindentLines ls, OneLine l :=
  (laid_reindentLines ls).oneLine oneLine_of_mem_flatMap_shownLines

theorem last_reindentLines_ne_blank : ∀ l, (reindentLines ls).getLast? = some l → trim l ≠ [] := by
  intro l hl
  obtain ⟨c, hc, hblank⟩ := (laid_reindentLines ls).last l hl
  exact trim_ne_nil_iff.2 ⟨c, List.mem_of_getLast? hc, hblank⟩

theorem lines_joinLines_reindentLines : lines (joinLines (reindentLines ls)) = reindentLines ls := by
  refine lines_joinLines (oneLine_reindentLines ls) fun l hl => ?_
  rintro rfl
  exact last_reindentLines_ne_blank ls [] hl rfl

theorem reindentLines_reindentLines : reindentLines (reindentLines ls) = reindentLines ls := by
  conv_lhs => rw [reindentLines, lines_joinLines_reindentLines,
    dropWhile_blank_eq (head_reindentLines_ne_blank ls)]
  exact (laid_reindentLines ls).placeAll_eq

theorem tidy_reindentLines (h : reindentLines ls ≠ []) :
    Tidy (joinLines (reindentLines ls) ++ ['\n']) := by
  have hlines := lines_joinLines_newline (oneLine_reindentLines ls) h
  refine ⟨?_, ?_, ?_, ?_⟩
  · rw [hlines]
    exact (laid_reindentLines ls).isChain
  · rw [hlines]
    exact head_reindentLines_ne_blank ls
  · rw [hlines]
    exact last_reindentLines_ne_blank ls
  · have hm := List.getLast?_eq_some_getLast h
    obtain ⟨c, hc, hblank⟩ := (laid_reindentLines ls).last _ hm
    have hne : (reindentLines ls).getLast h ≠ [] := List.ne_nil_of_mem (List.mem_of_getLast? hc)
    rw [← getLast?_joinLines hm hne] at hc
    obtain ⟨body, hbody⟩ := List.getLast?_eq_some_iff.1 hc
    exact ⟨body, c, by rw [hbody, List.append_assoc]; rfl, hblank⟩

theorem shownLines_reindentLines :
    shownLines (joinLines (reindentLines ls) ++ ['\n']) = ls.flatMap shownLines := by
  rw [← (laid_reindentLines ls).codeLines_eq]
  by_cases h : reindentLines ls = []
  · rw [h]
    rfl
  · rw [shownLines, lines_joinLines_newline (oneLine_reindentLines ls) h]

theorem reindentLines_lines :
    reindentLines (lines (joinLines (reindentLines ls) ++ ['\n'])) = reindentLines ls := by
  by_cases h : reindentLines ls = []
  · rw [h]
    rfl
  · rw [lines_joinLines_newline (oneLine_reindentLines ls) h, reindentLines_reindentLines]

end Settled

theorem toList_reindent (ls : List String) :
    (reindent ls).toList = joinLines (reindentLines (ls.map String.toList)) ++ ['\n'] :=
  String.toList_ofList

theorem reindent_map_ofList (ls : List (List Char)) :
    reindent (ls.map String.ofList) = String.ofList (joinLines (reindentLines ls) ++ ['\n']) := by
  have hls : (ls.map String.ofList).map String.toList = ls := by
    simp [Function.comp_def, String.toList_ofList]
  rw [reindent, hls]

theorem reindentLines_ne_nil {ls : List (List Char)} (h : ∃ l ∈ ls, trim l ≠ []) :
    reindentLines ls ≠ [] := by
  obtain ⟨l, hl, hne⟩ := h
  intro hnil
  have hcode := (laid_reindentLines ls).codeLines_eq
  rw [hnil] at hcode
  exact shownLines_ne_nil hne (List.flatMap_eq_nil_iff.1 hcode.symm l hl)

/-- Nothing but blanks is changed, what comes out is tidy if there was anything but blanks, and laying out
its lines again gives the same text. -/
theorem reindent_settles (ls : List String) :
    shownLines (reindent ls).toList = shownLines (joinLines (ls.map String.toList)) ∧
      ((∃ l ∈ ls, trim l.toList ≠ []) → Tidy (reindent ls).toList) ∧
      reindent ((lines (reindent ls).toList).map String.ofList) = reindent ls := by
  rw [toList_reindent, shownLines_joinLines, reindent_map_ofList, reindentLines_lines]
  refine ⟨shownLines_reindentLines _, fun ⟨l, hl, hne⟩ => ?_, rfl⟩
  exact tidy_reindentLines _ (reindentLines_ne_nil ⟨l.toList, List.mem_map_of_mem hl, hne⟩)

theorem reindent_settles_nested :
    (∃ l ∈ ["", "  if (a) \x7b", "", "", "b('\x7d');", "\x7d", " "], trim l.toList ≠ []) ∧
      Tidy (reindent ["", "  if (a) \x7b", "", "", "b('\x7d');", "\x7d", " "]).toList := by
  have hshown : ∃ l ∈ ["", "  if (a) \x7b", "", "", "b('\x7d');", "\x7d", " "], trim l.toList ≠ [] :=
    ⟨"\x7d", by simp, by decide⟩
  exact ⟨hshown, (reindent_settles _).2.1 hshown⟩

end DtoGen.Layout
