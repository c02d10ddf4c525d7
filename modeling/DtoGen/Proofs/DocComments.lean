import DtoGen.Proofs.Remarks
import Mathlib.Data.List.DropRight

namespace DtoGen

open Layout

namespace Text

def visible (s : List Char) : List Char := s.filter (!isBlank ·)

@[simp] theorem visible_nil : visible [] = [] := rfl

@[simp] theorem visible_append (s t : List Char) : visible (s ++ t) = visible s ++ visible t :=
  List.filter_append s t

theorem visible_of_blank {b : List Char} (hb : Blank b) : visible b = [] :=
  List.filter_eq_nil_iff.2 fun c hc => by simp [hb c hc]

theorem visible_cons_of_blank {c : Char} (hc : isBlank c = true) (s : List Char) :
    visible (c :: s) = visible s :=
  List.filter_cons_of_neg (by simp [hc])

theorem visible_respaced {s t : List Char} (h : Respaced s t) : visible s = visible t := by
  induction h with
  | trailing hb hb' => rw [visible_of_blank hb, visible_of_blank hb']
  | keep c _ ih =>
    rw [← List.singleton_append, visible_append, ih, ← visible_append, List.singleton_append]
  | gap hb _ hb' _ _ ih =>
    rw [visible_append, visible_append, visible_of_blank hb, visible_of_blank hb', ih]

theorem length_fit_le (room : Nat) (cs : List (List Char)) : (fit room cs).1.flatten.length ≤ room := by
  induction cs generalizing room with
  | nil => simp [fit]
  | cons c cs ih =>
    rw [fit]
    split_ifs with hc
    · have := ih (room - c.length)
      rw [List.flatten_cons, List.length_append]
      omega
    · simp

theorem cut_le (room : Nat) (c : List Char) : cut room c ≤ room := by
  unfold cut
  simp only
  split_ifs
  · rw [List.length_take]
    omega
  · exact le_rfl

theorem length_nextLine_le (width : Nat) (cs : List (List Char)) :
    (nextLine width cs).1.flatten.length ≤ width := by
  have hfit := length_fit_le width cs
  unfold nextLine
  dsimp only
  split
  · exact hfit
  · rename_i c _ _
    split_ifs
    · -- what is cut off goes into the room that is left
      have hcut := cut_le (width - (fit width cs).1.flatten.length) c
      rw [List.flatten_append, List.length_append, List.flatten_singleton, List.length_take]
      omega
    · exact hfit

theorem length_le_of_mem_fill (first : Bool) (chunks : List (List Char)) :
    ∀ line ∈ fill first chunks, line.length ≤ lineWidth := by
  fun_induction fill first chunks with
  | case1 => simp
  | case2 first chunks c cs hstart next _ _ ih => exact ih
  | case3 first chunks c cs hstart next _ _ ih =>
    refine List.forall_mem_cons.2 ⟨?_, ih⟩
    obtain ⟨dropped, hdropped⟩ := dropBlankEnd_prefix next.1
    have hprefix : (dropBlankEnd next.1).flatten <+: next.1.flatten :=
      ⟨dropped.flatten, by rw [← List.flatten_append, hdropped]⟩
    exact hprefix.length_le.trans (length_nextLine_le lineWidth (c :: cs))

theorem blank_of_isBlankChunk {c : List Char} (h : isBlankChunk c = true) : Blank c :=
  List.all_eq_true.1 h

theorem visible_lineStart (first : Bool) (chunks : List (List Char)) :
    visible (lineStart first chunks).flatten = visible chunks.flatten := by
  unfold lineStart
  split
  · rename_i c cs
    split_ifs with hc
    · rw [Bool.and_eq_true] at hc
      rw [List.flatten_cons, visible_append, visible_of_blank (blank_of_isBlankChunk hc.2),
        List.nil_append]
    · rfl
  · rfl

theorem visible_dropBlankEnd (line : List (List Char)) :
    visible (dropBlankEnd line).flatten = visible line.flatten := by
  unfold dropBlankEnd
  split
  · rename_i c hlast
    split_ifs with hc
    · rw [← List.dropLast_append_getLast? c hlast]
      simp [visible_of_blank (blank_of_isBlankChunk hc)]
    · rfl
  · rename_i hnone
    rw [List.getLast?_eq_none_iff.1 hnone]

theorem visible_fill (first : Bool) (chunks : List (List Char)) :
    visible (fill first chunks).flatten = visible chunks.flatten := by
  have hstep : ∀ first chunks,
      visible (dropBlankEnd (nextLine lineWidth (lineStart first chunks)).1).flatten ++
        visible (nextLine lineWidth (lineStart first chunks)).2.flatten = visible chunks.flatten := by
    -- one line and what is left of the chunks
    intro first chunks
    rw [visible_dropBlankEnd, ← visible_append, nextLine_flatten, visible_lineStart]
  fun_induction fill first chunks with
  | case1 first chunks hstart => rw [← visible_lineStart first chunks, hstart]
  | case2 first chunks c cs hstart next _ hline ih =>
    have hparts := hstep first chunks
    rw [hstart, hline] at hparts
    rw [ih, ← hparts]
    rfl
  | case3 first chunks c cs hstart next _ _ ih =>
    have hparts := hstep first chunks
    rw [hstart] at hparts
    rw [List.flatten_cons, visible_append, ih, ← hparts]

theorem length_le_of_mem_wrap {s line : List Char} (h : line ∈ wrap s) : line.length ≤ lineWidth :=
  length_le_of_mem_fill true _ line h

theorem visible_wrap (s : List Char) : visible (wrap s).flatten = visible s := by
  rw [wrap, visible_fill, chunksFrom_flatten, ← visible_respaced (respaced_expand 0 s)]

theorem paragraphs_ne_nil (s : List Char) : paragraphs s ≠ [] := by
  fun_cases paragraphs s with
  | case1 | case2 => simp
  | case3 c rest => cases paragraphs rest <;> simp [consHead]

theorem intercalate_paragraphs (s : List Char) : ['\n', '\n'].intercalate (paragraphs s) = s := by
  fun_induction paragraphs s with
  | case1 => rfl
  | case2 rest ih =>
    obtain ⟨p, ps, hp⟩ := List.exists_cons_of_ne_nil (paragraphs_ne_nil rest)
    rw [hp, List.intercalate_cons_cons, ← hp, ih]
    rfl
  | case3 c rest _ ih =>
    obtain ⟨p, ps, hp⟩ := List.exists_cons_of_ne_nil (paragraphs_ne_nil rest)
    rw [hp] at ih
    cases ps with
    | nil => simpa [hp, consHead] using ih
    | cons q ps => simpa [hp, consHead, List.intercalate_cons_cons] using ih

end Text

namespace Comment

open Text

def shown (s : List Char) : List Char := visible (escapeEnd s)

theorem escapeEnd_append_cons {c : Char} (hstar : c ≠ '*') (hslash : c ≠ '/') (s t : List Char) :
    escapeEnd (s ++ c :: t) = escapeEnd s ++ c :: escapeEnd t := by
  fun_induction escapeEnd s with
  | case1 => simp [escapeEnd, hstar]
  | case2 rest ih => simp [escapeEnd, ih]
  | case3 d rest hne ih =>
    have hnone : ∀ r, d = '*' → rest ++ c :: t ≠ '/' :: r := by
      rintro r rfl h
      cases rest with
      | nil => exact hslash (List.cons.inj h).1
      | cons e rest =>
        obtain ⟨rfl, -⟩ := List.cons.inj h
        exact hne rest rfl rfl
    rw [List.cons_append, escapeEnd, ih, List.cons_append]
    exact hnone

theorem shown_cons_of_blank {c : Char} (hc : isBlank c = true) (s t : List Char) :
    shown (s ++ c :: t) = shown s ++ shown t := by
  have hstar : c ≠ '*' := by rintro rfl; cases hc
  have hslash : c ≠ '/' := by rintro rfl; cases hc
  rw [shown, escapeEnd_append_cons hstar hslash, visible_append, visible_cons_of_blank hc]
  rfl

theorem shown_blank {b : List Char} (hb : Blank b) : shown b = [] := by
  induction b with
  | nil => rfl
  | cons c b ih =>
    obtain ⟨hc, hb⟩ := List.forall_mem_cons.1 hb
    rw [← List.nil_append (c :: b), shown_cons_of_blank hc, ih hb]
    rfl

theorem shown_blank_append {b : List Char} (hb : Blank b) (t : List Char) : shown (b ++ t) = shown t := by
  induction b with
  | nil => rfl
  | cons c b ih =>
    obtain ⟨hc, hb⟩ := List.forall_mem_cons.1 hb
    rw [List.cons_append, ← List.nil_append (c :: (b ++ t)), shown_cons_of_blank hc, ih hb]
    rfl

theorem shown_append_blank {b : List Char} (hb : Blank b) (hne : b ≠ []) (s t : List Char) :
    shown (s ++ (b ++ t)) = shown s ++ shown t := by
  obtain ⟨c, b, rfl⟩ := List.exists_cons_of_ne_nil hne
  obtain ⟨hc, hb⟩ := List.forall_mem_cons.1 hb
  rw [List.cons_append, shown_cons_of_blank hc, shown_blank_append hb]

theorem shown_trim (s : List Char) : shown (trim s) = shown s := by
  obtain ⟨x, y, hs, hx, hy⟩ := exists_trim s
  conv_rhs => rw [hs]
  rw [shown_blank_append hx]
  cases y with
  | nil => rw [List.append_nil]
  | cons c y =>
    obtain ⟨hc, hy⟩ := List.forall_mem_cons.1 hy
    rw [shown_cons_of_blank hc, shown_blank hy, List.append_nil]

theorem shown_intercalate {b : List Char} (hb : Blank b) (hne : b ≠ []) (ps : List (List Char)) :
    shown (b.intercalate ps) = ps.flatMap shown := by
  induction ps with
  | nil => rfl
  | cons p ps ih =>
    cases ps with
    | nil => simp
    | cons q ps =>
      rw [List.intercalate_cons_cons, List.append_assoc, shown_append_blank hb hne, ih]
      rfl

theorem shown_lines (ls : List (List Char)) : ∀ s, lines s = ls → ls.flatMap shown = shown s := by
  induction ls with
  | nil =>
    intro s h
    obtain rfl : s = [] := by
      by_contra hne
      exact lines_ne_nil hne h
    rfl
  | cons l ls ih =>
    intro s h
    rw [List.flatMap_cons]
    -- the breaks behind a line are blanks, where escapes start anew
    rcases exists_of_lines_eq_cons h with ⟨rfl, rfl⟩ | ⟨b, t, rfl, hne, hb, ht⟩
    · simp
    · rw [shown_append_blank hb hne, ih t ht]

/-- What the paragraphs of a comment show is what its description does. -/
theorem shown_contents (description : Option String) (deprecated : Bool) :
    (contents description deprecated).flatMap shown = shown (description.getD "").toList ++
      if deprecated then "@deprecated".toList else [] := by
  have hempty : ∀ ps : List (List Char), (ps.filter (!·.isEmpty)).flatMap shown = ps.flatMap shown := by
    intro ps
    induction ps with
    | nil => rfl
    | cons p ps ih => cases p <;> simp [ih, shown, escapeEnd]
  have hparagraphs : ((paragraphs (description.getD "").toList).map trim).flatMap shown =
      shown (description.getD "").toList := by
    rw [List.flatMap_map]
    simp only [shown_trim]
    rw [← shown_intercalate (b := ['\n', '\n']) (by simp [Blank, isBlank]) (by simp),
      intercalate_paragraphs]
  unfold contents
  dsimp only
  split_ifs
  · rw [List.flatMap_append, hempty, hparagraphs]
    rfl
  · rw [hempty, hparagraphs, List.append_nil]

def unmarked (ls : List (List Char)) : List Char := ls.flatMap (·.drop 2)

theorem unmarked_append (ls ms : List (List Char)) : unmarked (ls ++ ms) = unmarked ls ++ unmarked ms :=
  List.flatMap_append

theorem visible_unmarked_marked (ws : List (List Char)) :
    visible (unmarked (ws.map (" * ".toList ++ ·))) = visible ws.flatten := by
  induction ws with
  | nil => rfl
  | cons w ws ih =>
    have hmark : (" * ".toList ++ w).drop 2 = ' ' :: w := rfl
    rw [List.map_cons, unmarked, List.flatMap_cons, hmark, visible_append, visible_cons_of_blank rfl,
      List.flatten_cons, visible_append, ← ih]
    rfl

theorem visible_unmarked_paragraphLines (p : List Char) :
    visible (unmarked (paragraphLines p)) = shown p := by
  rw [← shown_lines (lines p) p rfl, paragraphLines]
  induction lines p with
  | nil => rfl
  | cons l ls ih =>
    rw [List.flatMap_cons, unmarked_append, visible_append, ih, List.flatMap_cons, shown,
      ← visible_wrap (escapeEnd l)]
    congr 1
    split
    · rename_i hnone
      rw [hnone]
      rfl
    · exact visible_unmarked_marked _

theorem visible_unmarked_separated (ps : List (List Char)) :
    visible (unmarked (separated (ps.map paragraphLines))) = ps.flatMap shown := by
  induction ps with
  | nil => rfl
  | cons p ps ih =>
    cases ps with
    | nil => simp [separated, visible_unmarked_paragraphLines]
    | cons q ps =>
      have hempty : visible (unmarked [" *".toList]) = [] := rfl
      rw [List.map_cons, List.map_cons, separated, ← List.map_cons, ← List.singleton_append,
        unmarked_append, unmarked_append, visible_append, visible_append, hempty, ih,
        visible_unmarked_paragraphLines]
      · rfl
      · simp

theorem inner_of_mem_separated {ps : List (List Char)} {l : List Char}
    (h : l ∈ separated (ps.map paragraphLines)) : " *".toList <+: l ∧ l.length ≤ 83 := by
  rcases mem_separated _ h with ⟨q, hq, hl⟩ | rfl
  · obtain ⟨p, -, rfl⟩ := List.mem_map.1 hq
    obtain ⟨line, -, hl⟩ := List.mem_flatMap.1 hl
    split at hl
    · obtain rfl := List.mem_singleton.1 hl
      exact ⟨⟨[' '], rfl⟩, by decide⟩
    · obtain ⟨w, hw, rfl⟩ := List.mem_map.1 hl
      have hwidth : w.length ≤ 80 := length_le_of_mem_wrap hw
      refine ⟨⟨' ' :: w, rfl⟩, ?_⟩
      rw [List.length_append]
      exact Nat.add_le_add_left hwidth 3
  · exact ⟨List.prefix_refl _, by decide⟩

/-- What a comment says: its lines without its opening, the marks that they begin with and its end. -/
def body : List (List Char) → List Char
  | [] => []
  | [l] => (l.drop 3).rdrop 2
  | l :: ls => l.drop 3 ++ unmarked ls.dropLast ++ ((ls.getLast?.getD []).rdrop 2)

/-- Lines that are one comment, the inner ones of which are marked and no longer than a given width. -/
structure WellFormed (ls : List String) : Prop where
  opened : "/**".toList <+: ("\n".intercalate ls).toList
  closed : "*/".toList <:+ ("\n".intercalate ls).toList
  once : ∀ x y, ("\n".intercalate ls).toList = x ++ ("*/".toList ++ y) → y = []
  inner : ∀ l ∈ (ls.map String.toList).tail.dropLast, " *".toList <+: l ∧ l.length ≤ 83

/-- A sealed text with an end behind it ends there and not before. -/
theorem eq_nil_of_sealed {s x y : List Char} (hs : Sealed s)
    (h : s ++ ['*', '/'] = x ++ (['*', '/'] ++ y)) : y = [] := by
  rcases List.append_eq_append_iff.1 h with ⟨z, -, hz⟩ | ⟨z, rfl, hz⟩
  · have hlength := congrArg List.length hz
    simp only [List.length_append, List.length_cons, List.length_nil] at hlength
    exact List.length_eq_zero_iff.1 (by omega)
  · -- an end of the text is one of the two characters, or they stand before it
    rcases z with _ | ⟨a, _ | ⟨b, z⟩⟩
    · simpa using hz
    · simp at hz
    · simp only [List.cons_append, List.nil_append, List.cons.injEq] at hz
      obtain ⟨rfl, rfl, -⟩ := hz
      exact absurd ⟨x, z, by simp⟩ hs

theorem joinLines_concat (ls : List (List Char)) (l : List Char) :
    joinLines (ls ++ [l]) = unlines ls ++ l := by
  have hjoin : unlines (ls ++ [l]) = joinLines (ls ++ [l]) ++ ['\n'] := unlines_eq_joinLines (by simp)
  have hsplit : unlines (ls ++ [l]) = unlines ls ++ l ++ ['\n'] := by simp [unlines]
  rw [hsplit] at hjoin
  exact (List.append_cancel_right hjoin).symm

theorem exists_toList_doc {description : Option String} {deprecated : Bool}
    (h : doc description deprecated ≠ []) :
    ∃ s, ("\n".intercalate (doc description deprecated)).toList = "/**".toList ++ s ++ "*/".toList ∧
      Sealed ("/**".toList ++ s) := by
  have hlines : ("\n".intercalate (doc description deprecated)).toList =
      joinLines (docLines description deprecated) := by
    rw [String.toList_intercalate, doc, List.map_map, joinLines]
    simp [Function.comp_def]
  obtain ⟨s, hinside, htext⟩ : ∃ s, inside description deprecated = ['*' :: s] ∧
      joinLines (docLines description deprecated) = "/**".toList ++ s ++ "*/".toList := by
    rw [inside, docLines]
    rw [doc, docLines] at h
    cases hcontents : contents description deprecated with
    | nil => simp [hcontents] at h
    | cons p ps =>
      dsimp only
      cases isShort (p :: ps) with
      | some q => exact ⟨_, rfl, by simp [joinLines_singleton]⟩
      | none => exact ⟨_, rfl, (joinLines_concat _ _).trans (by simp [unlines])⟩
  -- the slash in front cannot end the comment that it opens
  have hsealed := sealed_inside description deprecated ('*' :: s) (by simp [hinside])
  refine ⟨s, hlines.trans htext, ?_⟩
  rw [show "/**".toList ++ s = '/' :: '*' :: '*' :: s from rfl, sealed_cons, sealed_cons]
  exact ⟨by simp, by simp, hsealed⟩

theorem inner_docLines (description : Option String) (deprecated : Bool) :
    ∀ l ∈ (docLines description deprecated).tail.dropLast, " *".toList <+: l ∧ l.length ≤ 83 := by
  unfold docLines
  cases contents description deprecated with
  | nil => simp
  | cons p ps =>
    dsimp only
    cases isShort (p :: ps) with
    | some q => simp
    | none =>
      intro l hl
      rw [List.cons_append, List.tail_cons, List.dropLast_concat] at hl
      exact inner_of_mem_separated hl

theorem eq_of_isShort {ps : List (List Char)} {p : List Char} (h : isShort ps = some p) : ps = [p] := by
  unfold isShort at h
  split at h
  · split_ifs at h
    rw [Option.some.inj h]
  · cases h

theorem body_framed (first : List Char) (ls : List (List Char)) (last : List Char) :
    body (first :: (ls ++ [last])) = first.drop 3 ++ unmarked ls ++ last.rdrop 2 := by
  cases ls with
  | nil => simp [body, unmarked]
  | cons l ls =>
    rw [List.cons_append, body, ← List.cons_append, List.dropLast_concat, List.getLast?_concat,
      Option.getD_some]
    simp

theorem visible_body_docLines (description : Option String) (deprecated : Bool) :
    visible (body (docLines description deprecated)) = (contents description deprecated).flatMap shown := by
  unfold docLines
  cases contents description deprecated with
  | nil => rfl
  | cons p ps =>
    dsimp only
    cases hshort : isShort (p :: ps) with
    | some q =>
      have hbody : body ["/** ".toList ++ escapeEnd q ++ " */".toList] =
          [' '] ++ escapeEnd q ++ [' '] := by
        have hline : ("/** ".toList ++ escapeEnd q ++ " */".toList).drop 3 =
            [' '] ++ escapeEnd q ++ [' '] ++ ['*'] ++ ['/'] := by simp
        rw [body, hline, List.rdrop_concat_succ, List.rdrop_concat_succ, List.rdrop_zero]
      rw [eq_of_isShort hshort, hbody, visible_append, visible_append]
      simp [shown, visible_of_blank blank_space]
    | none =>
      have hlast : visible (" */".toList.rdrop 2) = [] := rfl
      have hfirst : "/**".toList.drop 3 = [] := rfl
      rw [List.cons_append, body_framed, hfirst, List.nil_append, visible_append, hlast,
        List.append_nil, visible_unmarked_separated]

/-- A comment that there is begins and ends as it should and ends nowhere else, its inner lines are marked and
of limited length, and what it says is the description, escaped, with the tag behind it if there is one. -/
theorem doc_wellFormed (description : Option String) (deprecated : Bool)
    (h : doc description deprecated ≠ []) :
    WellFormed (doc description deprecated) ∧
      visible (body ((doc description deprecated).map String.toList)) =
        visible (escapeEnd (description.getD "").toList) ++
          if deprecated then "@deprecated".toList else [] := by
  have hlines : (doc description deprecated).map String.toList = docLines description deprecated := by
    simp [doc, Function.comp_def]
  obtain ⟨s, htext, hsealed⟩ := exists_toList_doc h
  refine ⟨⟨?_, ?_, fun x y hxy => ?_, ?_⟩, ?_⟩
  · rw [htext, List.append_assoc]
    exact List.prefix_append _ _
  · rw [htext]
    exact List.suffix_append _ _
  · rw [htext] at hxy
    exact eq_nil_of_sealed hsealed hxy
  · rw [hlines]
    exact inner_docLines description deprecated
  · rw [hlines, visible_body_docLines]
    exact shown_contents description deprecated

theorem doc_ne_nil_iff {description : Option String} {deprecated : Bool} :
    doc description deprecated ≠ [] ↔ contents description deprecated ≠ [] := by
  rw [doc, docLines]
  cases contents description deprecated with
  | nil => simp
  | cons p ps =>
    dsimp only
    cases isShort (p :: ps) <;> simp

theorem doc_wellFormed_ended : doc (some "ends */ here\n\n  and **// there") true ≠ [] ∧
    WellFormed (doc (some "ends */ here\n\n  and **// there") true) ∧
    visible (body ((doc (some "ends */ here\n\n  and **// there") true).map String.toList)) =
      "ends*\\/hereand**\\//there@deprecated".toList := by
  have hdoc : doc (some "ends */ here\n\n  and **// there") true ≠ [] := doc_ne_nil_iff.2 (by decide)
  obtain ⟨hformed, hsaid⟩ := doc_wellFormed _ _ hdoc
  exact ⟨hdoc, hformed, hsaid.trans (by decide)⟩

end Comment

end DtoGen
