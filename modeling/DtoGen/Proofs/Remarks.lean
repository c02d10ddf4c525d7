import DtoGen.Comment
import DtoGen.Proofs.Respacing
import DtoGen.Proofs.Meets

namespace DtoGen

open Text Layout

/-- Holds no two characters that would end a comment. -/
def Sealed (s : List Char) : Prop := ¬ ['*', '/'] <:+: s

theorem Sealed.mono {s t : List Char} (ht : Sealed t) (h : s <:+: t) : Sealed s :=
  fun hs => ht (hs.trans h)

theorem sealed_cons {c : Char} {s : List Char} :
    Sealed (c :: s) ↔ ¬ (c = '*' ∧ s.head? = some '/') ∧ Sealed s := by
  have hprefix : ['*', '/'] <+: c :: s ↔ c = '*' ∧ s.head? = some '/' := by
    rw [List.cons_prefix_cons, eq_comm]
    cases s with
    | nil => simp
    | cons d s => simp [List.cons_prefix_cons, eq_comm]
  rw [Sealed, Sealed, List.infix_cons_iff, hprefix, not_or]

instance Sealed.decide : DecidablePred Sealed
  | [] => isTrue (by simp [Sealed])
  | _ :: s =>
    have := Sealed.decide s
    decidable_of_iff _ sealed_cons.symm

theorem sealed_cons_of_ne {c : Char} {s : List Char} (h : c ≠ '*') : Sealed (c :: s) ↔ Sealed s := by
  rw [sealed_cons]
  simp [h]

/-- Any other character keeps apart what stands around it. -/
theorem sealed_append_cons {c : Char} (hstar : c ≠ '*') (hslash : c ≠ '/') (x y : List Char) :
    Sealed (x ++ c :: y) ↔ Sealed x ∧ Sealed y := by
  induction x with
  | nil =>
    rw [List.nil_append, sealed_cons_of_ne hstar]
    simp [Sealed]
  | cons d x ih =>
    have hhead : (x ++ c :: y).head? = some '/' ↔ x.head? = some '/' := by
      cases x <;> simp [hslash]
    rw [List.cons_append, sealed_cons, sealed_cons, ih, hhead, and_assoc]

theorem sealed_of_forall_ne {s : List Char} (h : ∀ c ∈ s, c ≠ '/') : Sealed s :=
  fun hs => h '/' (hs.subset (by simp)) rfl

theorem sealed_respaced {s t : List Char} (h : Respaced s t) : Sealed s ↔ Sealed t := by
  have hkeep : ∀ {s t : List Char}, Respaced s t → ['*', '/'] <:+: s → ['*', '/'] <:+: t := by
    rintro s t h ⟨x, y, rfl⟩
    have h : Respaced (x ++ '*' :: ('/' :: y)) t := by simpa using h
    obtain ⟨x', z, rfl, -, hz⟩ := h.of_append (by decide)
    obtain ⟨y', rfl, -⟩ := hz.of_cons (by decide)
    exact ⟨x', y', by simp⟩
  exact not_congr ⟨hkeep h, hkeep h.symm⟩

def afterEnd : List Char → Option (List Char)
  | [] => none
  | '*' :: '/' :: rest => some rest
  | _ :: rest => afterEnd rest

/-- A comment ends where it is meant to just if its text is sealed. -/
theorem afterEnd_eq_iff (s rest : List Char) :
    afterEnd (s ++ '*' :: '/' :: rest) = some rest ↔ Sealed s := by
  induction s with
  | nil => simp [afterEnd, Sealed]
  | cons c s ih =>
    rw [sealed_cons, ← ih, List.cons_append]
    by_cases hend : c = '*' ∧ s.head? = some '/'
    · obtain ⟨rfl, hs⟩ := hend
      obtain ⟨s, rfl⟩ : ∃ t, s = '/' :: t := by
        cases s with
        | nil => cases hs
        | cons d s => exact ⟨s, by simpa using hs⟩
      have hne : s ++ '*' :: '/' :: rest ≠ rest := by
        intro h
        have := congrArg List.length h
        simp only [List.length_append, List.length_cons] at this
        omega
      simp [afterEnd, hne]
    · rw [afterEnd]
      · simp [hend]
      · rintro t rfl ht
        cases s with
        | nil => simp at ht
        | cons d s =>
          obtain ⟨rfl, -⟩ := List.cons.inj ht
          simp at hend

/-- A comment, with what stands before it. -/
structure Remark where
  before : List Char
  inside : List Char

namespace Remark

def text (r : Remark) : List Char := r.before ++ '/' :: '*' :: (r.inside ++ ['*', '/'])

/-- The text of a file: its comments in order, and what follows the last one. -/
def file (rs : List Remark) (rest : List Char) : List Char := rs.flatMap text ++ rest

/-- Whoever reads each comment up to the first characters that end one, reads all that was written
into it and no more. -/
def Ended (rs : List Remark) (rest : List Char) : Prop :=
  ∀ l r m, rs = l ++ r :: m →
    afterEnd (r.inside ++ '*' :: '/' :: file m rest) = some (file m rest)

theorem ended_iff (rs : List Remark) (rest : List Char) :
    Ended rs rest ↔ ∀ r ∈ rs, Sealed r.inside := by
  constructor
  · intro h r hr
    obtain ⟨l, m, rfl⟩ := List.append_of_mem hr
    exact (afterEnd_eq_iff _ _).1 (h l r m rfl)
  · rintro h l r m rfl
    exact (afterEnd_eq_iff _ _).2 (h r (by simp))

end Remark

/-- A text with some comments in it, in this order. -/
def Annotated (t : List Char) (comments : List (List Char)) : Prop :=
  ∃ rs rest, t = Remark.file rs rest ∧ rs.map Remark.inside = comments

namespace Annotated

theorem code (t : List Char) : Annotated t [] := ⟨[], t, rfl, rfl⟩

theorem comment (before inside rest : List Char) :
    Annotated (before ++ '/' :: '*' :: (inside ++ '*' :: '/' :: rest)) [inside] :=
  ⟨[⟨before, inside⟩], rest, by simp [Remark.file, Remark.text], rfl⟩

theorem append {t u : List Char} {cs ds : List (List Char)} (ht : Annotated t cs)
    (hu : Annotated u ds) : Annotated (t ++ u) (cs ++ ds) := by
  obtain ⟨rs, rest, rfl, rfl⟩ := ht
  obtain ⟨qs, last, rfl, rfl⟩ := hu
  cases qs with
  | nil => exact ⟨rs, rest ++ last, by simp [Remark.file], by simp⟩
  | cons q qs =>
    -- what followed the last comment on the left stands before the first one on the right
    exact ⟨rs ++ ⟨rest ++ q.before, q.inside⟩ :: qs, last, by simp [Remark.file, Remark.text], by simp⟩

/-- Comments are the same but for blanks in a text that is. -/
theorem respaced {t f : List Char} {cs : List (List Char)} (h : Annotated t cs) (hf : Respaced t f) :
    ∃ rs rest, f = Remark.file rs rest ∧ List.Forall₂ Respaced cs (rs.map Remark.inside) := by
  obtain ⟨rs, rest, rfl, rfl⟩ := h
  induction rs generalizing f with
  | nil => exact ⟨[], f, rfl, .nil⟩
  | cons r rs ih =>
    have hsplit : Remark.file (r :: rs) rest =
        r.before ++ '/' :: ('*' :: (r.inside ++ '*' :: ('/' :: Remark.file rs rest))) := by
      simp [Remark.file, Remark.text]
    rw [hsplit] at hf
    obtain ⟨before, f, rfl, -, hopened⟩ := hf.of_append (by decide)
    obtain ⟨f, rfl, hinner⟩ := hopened.of_cons (by decide)
    obtain ⟨inside, f, rfl, hinside, hclosed⟩ := hinner.of_append (by decide)
    obtain ⟨f, rfl, hrest⟩ := hclosed.of_cons (by decide)
    obtain ⟨qs, last, rfl, hqs⟩ := ih hrest
    exact ⟨⟨before, inside⟩ :: qs, last, by simp [Remark.file, Remark.text], .cons hinside hqs⟩

theorem relaid {t f : List Char} {cs : List (List Char)} (h : Annotated t cs) (hf : Relaid t f)
    (hhead : ∃ c u, t = c :: u ∧ isBlank c = false) :
    ∃ rs rest, f = Remark.file rs rest ∧ List.Forall₂ Respaced cs (rs.map Remark.inside) := by
  obtain ⟨b, u, b', g, hu, rfl, hb, hb', hg⟩ := hf
  obtain rfl : b = [] := by
    obtain ⟨c, v, rfl, hc⟩ := hhead
    cases b with
    | nil => rfl
    | cons d b =>
      obtain ⟨rfl, -⟩ := List.cons.inj hu
      have := hb c List.mem_cons_self
      simp [hc] at this
  obtain rfl : t = u := hu
  obtain ⟨rs, rest, rfl, hrs⟩ := h.respaced hg
  cases rs with
  | nil => exact ⟨[], b' ++ rest, rfl, hrs⟩
  | cons r rs =>
    exact ⟨⟨b' ++ r.before, r.inside⟩ :: rs, rest, by simp [Remark.file, Remark.text], hrs⟩

end Annotated

def unlines (ls : List (List Char)) : List Char := ls.flatMap (· ++ ['\n'])

theorem sealed_unlines {ls : List (List Char)} : Sealed (unlines ls) ↔ ∀ l ∈ ls, Sealed l := by
  induction ls with
  | nil => simp [unlines, Sealed]
  | cons l ls ih =>
    have hcons : unlines (l :: ls) = l ++ '\n' :: unlines ls := by simp [unlines]
    rw [hcons, sealed_append_cons (by decide) (by decide), ih, List.forall_mem_cons]

theorem unlines_eq_joinLines {ls : List (List Char)} (h : ls ≠ []) :
    unlines ls = joinLines ls ++ ['\n'] := by
  induction ls with
  | nil => exact absurd rfl h
  | cons l ls ih =>
    cases ls with
    | nil => simp [unlines, joinLines_singleton]
    | cons m ls =>
      rw [joinLines_cons_cons, List.append_assoc, List.cons_append, ← ih (by simp)]
      simp [unlines]

namespace Text

theorem blank_space : Blank [' '] := by simp [Blank, isBlank]

theorem respaced_expand (column : Nat) (s : List Char) : Respaced s (expand column s) := by
  fun_induction expand column s with
  | case1 => exact .trailing .nil .nil
  | case2 col rest n ih =>
    have hn : List.replicate n ' ' ≠ [] := by simp [n]; omega
    have hblank : Blank (List.replicate n ' ') := by
      intro c hc
      rw [List.eq_of_mem_replicate hc]
      rfl
    exact Respaced.gap (b := ['\t']) (by simp [Blank, isBlank]) (by simp) hblank hn ih
  | case3 col c rest _ hc ih =>
    have hblank : isBlank c = true := by
      rcases (by simpa using hc : c = '\n' ∨ c = '\r') with rfl | rfl <;> rfl
    exact Respaced.gap (b := [c]) (by simpa [Blank] using hblank) (by simp) blank_space (by simp) ih
  | case4 col c rest _ _ hc ih =>
    have hblank : isBlank c = true := by
      rcases (by simpa using hc : c = '\x0b' ∨ c = '\x0c') with rfl | rfl <;> rfl
    exact Respaced.gap (b := [c]) (by simpa [Blank] using hblank) (by simp) blank_space (by simp) ih
  | case5 col c rest _ _ _ ih => exact .keep c ih

theorem fit_append (room : Nat) (cs : List (List Char)) : (fit room cs).1 ++ (fit room cs).2 = cs := by
  induction cs generalizing room with
  | nil => rfl
  | cons c cs ih =>
    rw [fit]
    split
    · simp [ih]
    · rfl

/-- No characters are lost or gained where a chunk is cut. -/
theorem nextLine_flatten (width : Nat) (cs : List (List Char)) :
    (nextLine width cs).1.flatten ++ (nextLine width cs).2.flatten = cs.flatten := by
  have hfit := congrArg List.flatten (fit_append width cs)
  rw [List.flatten_append] at hfit
  unfold nextLine
  dsimp only
  split
  · rename_i hrest
    simpa [hrest] using hfit
  · rename_i d ds hrest
    rw [hrest] at hfit
    split_ifs
    · rw [← hfit]
      simp only [List.flatten_append, List.flatten_cons, List.flatten_nil, List.append_nil,
        List.append_assoc]
      rw [← List.append_assoc (List.take _ d), List.take_append_drop]
    · rw [← hfit, hrest]

theorem dropBlankEnd_prefix (line : List (List Char)) : dropBlankEnd line <+: line := by
  unfold dropBlankEnd
  split
  · split_ifs
    · exact List.dropLast_prefix line
    · exact List.prefix_refl line
  · exact List.nil_prefix

theorem lineStart_suffix (first : Bool) (chunks : List (List Char)) :
    lineStart first chunks <:+ chunks := by
  unfold lineStart
  split
  · split_ifs
    · exact List.suffix_cons _ _
    · exact List.suffix_refl _
  · exact List.suffix_refl _

/-- What is taken for a line, and what is left over, are parts of the text. -/
theorem nextLine_infix (first : Bool) (chunks : List (List Char)) :
    (nextLine lineWidth (lineStart first chunks)).1.flatten <:+: chunks.flatten ∧
      (nextLine lineWidth (lineStart first chunks)).2.flatten <:+: chunks.flatten := by
  obtain ⟨dropped, hdropped⟩ := lineStart_suffix first chunks
  have hparts := nextLine_flatten lineWidth (lineStart first chunks)
  have hall : chunks.flatten = dropped.flatten ++ (lineStart first chunks).flatten := by
    rw [← List.flatten_append, hdropped]
  rw [hall, ← hparts]
  exact ⟨⟨dropped.flatten, _, by rw [List.append_assoc]⟩,
    ⟨dropped.flatten ++ _, [], by rw [List.append_nil, List.append_assoc]⟩⟩

theorem infix_of_mem_fill (first : Bool) (chunks : List (List Char)) :
    ∀ line ∈ fill first chunks, line <:+: chunks.flatten := by
  fun_induction fill first chunks with
  | case1 => simp
  | case2 first chunks c cs hstart next _ _ ih =>
    have hnext := nextLine_infix first chunks
    rw [hstart] at hnext
    exact fun line hline => (ih line hline).trans hnext.2
  | case3 first chunks c cs hstart next _ _ ih =>
    have hnext := nextLine_infix first chunks
    rw [hstart] at hnext
    intro line hline
    rcases List.mem_cons.1 hline with rfl | hline
    · obtain ⟨dropped, hdropped⟩ := dropBlankEnd_prefix next.1
      have hprefix : (dropBlankEnd next.1).flatten <+: next.1.flatten :=
        ⟨dropped.flatten, by rw [← List.flatten_append, hdropped]⟩
      exact hprefix.isInfix.trans hnext.1
    · exact (ih line hline).trans hnext.2

theorem sealed_of_mem_wrap {s line : List Char} (hs : Sealed s) (h : line ∈ wrap s) : Sealed line := by
  have hpart := infix_of_mem_fill true _ line h
  rw [chunksFrom_flatten] at hpart
  exact ((sealed_respaced (respaced_expand 0 s)).1 hs).mono hpart

end Text

namespace Comment

theorem head?_escapeEnd (s : List Char) : (escapeEnd s).head? = s.head? := by
  fun_cases escapeEnd s <;> simp

theorem sealed_escapeEnd (s : List Char) : Sealed (escapeEnd s) := by
  fun_induction escapeEnd s with
  | case1 => simp [Sealed]
  | case2 rest ih => simpa [sealed_cons] using ih
  | case3 c rest hne ih =>
    rw [sealed_cons, head?_escapeEnd]
    refine ⟨?_, ih⟩
    rintro ⟨rfl, hrest⟩
    cases rest with
    | nil => cases hrest
    | cons d rest =>
      obtain rfl : d = '/' := by simpa using hrest
      exact hne rest rfl rfl

theorem mem_separated {l : List Char} (ps : List (List (List Char))) (h : l ∈ separated ps) :
    (∃ p ∈ ps, l ∈ p) ∨ l = " *".toList := by
  fun_induction separated ps with
  | case1 => cases h
  | case2 p => exact .inl ⟨p, List.mem_singleton_self p, h⟩
  | case3 p ps _ ih =>
    rcases List.mem_append.1 h with h | h
    · exact .inl ⟨p, List.mem_cons_self, h⟩
    · rcases List.mem_cons.1 h with rfl | h
      · exact .inr rfl
      · refine (ih h).imp_left fun h => ?_
        obtain ⟨q, hq, hl⟩ := h
        exact ⟨q, List.mem_cons_of_mem p hq, hl⟩

theorem sealed_of_mem_paragraphLines {p l : List Char} (h : l ∈ paragraphLines p) : Sealed l := by
  obtain ⟨line, -, hl⟩ := List.mem_flatMap.1 h
  split at hl
  · obtain rfl := List.mem_singleton.1 hl
    decide
  · obtain ⟨w, hw, rfl⟩ := List.mem_map.1 hl
    have hsealed := sealed_of_mem_wrap (sealed_escapeEnd line) hw
    have hstart : " * ".toList ++ w = [' ', '*'] ++ ' ' :: w := rfl
    rw [hstart, sealed_append_cons (by decide) (by decide)]
    exact ⟨by decide, hsealed⟩

/-- The texts of the comment for a description, if there is one. -/
def inside (description : Option String) (deprecated : Bool) : List (List Char) :=
  match contents description deprecated with
  | [] => []
  | ps =>
    match isShort ps with
    | some p => ['*' :: ' ' :: (escapeEnd p ++ [' '])]
    | none => ['*' :: (unlines ([] :: separated (ps.map paragraphLines)) ++ [' '])]

theorem annotated_doc (description : Option String) (deprecated : Bool) :
    Annotated (unlines ((doc description deprecated).map String.toList)) (inside description deprecated) := by
  have hlines : (doc description deprecated).map String.toList = docLines description deprecated := by
    simp [doc, Function.comp_def]
  rw [hlines, docLines, inside]
  cases contents description deprecated with
  | nil => exact .code []
  | cons p ps =>
    dsimp only
    cases isShort (p :: ps) with
    | some q => simpa [unlines] using Annotated.comment [] ('*' :: ' ' :: (escapeEnd q ++ [' '])) ['\n']
    | none =>
      simpa [unlines] using Annotated.comment []
        ('*' :: (unlines ([] :: separated ((p :: ps).map paragraphLines)) ++ [' '])) ['\n']

/-- Whatever a description says, its comment ends where it is meant to. -/
theorem sealed_inside (description : Option String) (deprecated : Bool) :
    ∀ c ∈ inside description deprecated, Sealed c := by
  unfold inside
  cases contents description deprecated with
  | nil => simp
  | cons p ps =>
    dsimp only
    cases isShort (p :: ps) with
    | some q =>
      have hparts : '*' :: ' ' :: (escapeEnd q ++ [' ']) = ['*'] ++ ' ' :: (escapeEnd q ++ ' ' :: []) := rfl
      rw [List.forall_mem_singleton, hparts, sealed_append_cons (by decide) (by decide),
        sealed_append_cons (by decide) (by decide)]
      exact ⟨by decide, sealed_escapeEnd q, by decide⟩
    | none =>
      have hlines : Sealed (unlines (separated ((p :: ps).map paragraphLines))) := by
        refine sealed_unlines.2 fun l hl => ?_
        rcases mem_separated _ hl with ⟨q, hq, hl⟩ | rfl
        · obtain ⟨q, -, rfl⟩ := List.mem_map.1 hq
          exact sealed_of_mem_paragraphLines hl
        · decide
      have hparts : '*' :: (unlines ([] :: separated ((p :: ps).map paragraphLines)) ++ [' ']) =
          ['*'] ++ '\n' :: (unlines (separated ((p :: ps).map paragraphLines)) ++ ' ' :: []) := rfl
      rw [List.forall_mem_singleton, hparts, sealed_append_cons (by decide) (by decide),
        sealed_append_cons (by decide) (by decide)]
      exact ⟨by decide, hlines, by decide⟩

end Comment
end DtoGen
