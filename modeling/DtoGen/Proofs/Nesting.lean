import DtoGen.Proofs.Placement
import DtoGen.Proofs.Remarks

namespace DtoGen.Layout

open Text

def placed : Nat → List (List Char) → List (List Char)
  | _, [] => []
  | depth, l :: ls => (place depth l).1 :: placed (place depth l).2 ls

def depthAfter : Nat → List (List Char) → Nat
  | depth, [] => depth
  | depth, l :: ls => depthAfter (place depth l).2 ls

theorem length_placed (depth : Nat) (ls : List (List Char)) : (placed depth ls).length = ls.length := by
  induction ls generalizing depth with
  | nil => rfl
  | cons l ls ih => rw [placed, List.length_cons, ih, List.length_cons]

theorem placed_append (depth : Nat) (as bs : List (List Char)) :
    placed depth (as ++ bs) = placed depth as ++ placed (depthAfter depth as) bs := by
  induction as generalizing depth with
  | nil => rfl
  | cons a as ih => rw [List.cons_append, placed, ih, placed, depthAfter, List.cons_append]

theorem depthAfter_append (depth : Nat) (as bs : List (List Char)) :
    depthAfter depth (as ++ bs) = depthAfter (depthAfter depth as) bs := by
  induction as generalizing depth with
  | nil => rfl
  | cons a as ih => rw [List.cons_append, depthAfter, ih, depthAfter]

theorem depthAfter_eq_self {ls : List (List Char)} (h : ∀ l ∈ ls, ∀ depth, (place depth l).2 = depth)
    (depth : Nat) : depthAfter depth ls = depth := by
  induction ls with
  | nil => rfl
  | cons l ls ih =>
    obtain ⟨hl, hls⟩ := List.forall_mem_cons.1 h
    rw [depthAfter, hl, ih hls]

def standingLines (t : List Char) : List (List Char) := (lines t).filter fun l => !(trim l).isEmpty

theorem mem_lines_of_mem_standingLines {t l : List Char} (h : l ∈ standingLines t) : l ∈ lines t :=
  List.mem_of_mem_filter h

theorem Laid.filter_eq {depth : Nat} {code out : List (List Char)} (h : Laid depth code out) :
    (out.filter fun l => !(trim l).isEmpty) = placed depth code := by
  induction h with
  | nil depth => rfl
  | @line depth l code out hl hne _ ih =>
    have htrim := trim_place hl depth
    rw [List.filter_cons_of_pos (by simpa [htrim] using hne), ih, placed]
  | @gap depth l code out hl hne _ ih =>
    have htrim := trim_place hl depth
    rw [List.filter_cons_of_neg (by simp [trim, trimLeft, trimRight]),
      List.filter_cons_of_pos (by simpa [htrim] using hne), ih, placed]

/-- The lines of code that stand in some lines of text. -/
def codeOf (ls : List String) : List (List Char) := (ls.map String.toList).flatMap shownLines

theorem codeOf_append (as bs : List String) : codeOf (as ++ bs) = codeOf as ++ codeOf bs := by
  rw [codeOf, List.map_append, List.flatMap_append, ← codeOf, ← codeOf]

theorem codeOf_singleton (l : String) : codeOf [l] = shownLines l.toList := List.flatMap_singleton _ _

theorem standingLines_reindent (ls : List String) :
    standingLines (reindent ls).toList = placed 0 (codeOf ls) := by
  have hlaid := laid_reindentLines (ls.map String.toList)
  rw [toList_reindent, standingLines, codeOf, ← hlaid.filter_eq]
  by_cases h : reindentLines (ls.map String.toList) = []
  · rw [h]
    rfl
  · rw [lines_joinLines_newline (oneLine_reindentLines _) h]

/-- What becomes of the lines `after` behind the lines `front`. -/
def layoutBehind (front after : List String) : List (List Char) :=
  (standingLines (reindent (front ++ after)).toList).drop (codeOf front).length

theorem layoutBehind_eq (front after : List String) :
    layoutBehind front after = placed (depthAfter 0 (codeOf front)) (codeOf after) := by
  rw [layoutBehind, standingLines_reindent, codeOf_append, placed_append,
    List.drop_left' (length_placed 0 (codeOf front))]

theorem trimmed_codeOf (ls : List String) : ∀ l ∈ codeOf ls, Trimmed l := by
  intro l hl
  obtain ⟨t, -, hl⟩ := List.mem_flatMap.1 hl
  obtain ⟨m, -, rfl⟩ := List.mem_map.1 (List.mem_of_mem_filter hl)
  exact trimmed_trim m

theorem map_trim_layoutBehind (front after : List String) :
    (layoutBehind front after).map trim = codeOf after := by
  have hplaced : ∀ (ls : List (List Char)) (depth : Nat), (∀ l ∈ ls, Trimmed l) →
      (placed depth ls).map trim = ls := by
    intro ls
    induction ls with
    | nil => exact fun _ _ => rfl
    | cons l ls ih =>
      intro depth h
      obtain ⟨hl, hls⟩ := List.forall_mem_cons.1 h
      rw [placed, List.map_cons, trim_place hl, ih _ hls]
  rw [layoutBehind_eq, hplaced _ _ (trimmed_codeOf after)]

theorem exists_depthAfter_eq (depth : Nat) : ∃ front, depthAfter 0 (codeOf front) = depth := by
  have hopen : ∀ depth, depthAfter depth (codeOf ["\x7b"]) = depth + 1 := by
    intro depth
    have hcode : blankLiterals ['\x7b'] = ['\x7b'] := by simp [blankLiterals, isQuote]
    have hline : codeOf ["\x7b"] = [['\x7b']] := by decide
    rw [hline, depthAfter, place, hcode]
    rfl
  induction depth with
  | zero => exact ⟨[], rfl⟩
  | succ depth ih =>
    obtain ⟨front, hfront⟩ := ih
    exact ⟨front ++ ["\x7b"], by rw [codeOf_append, depthAfter_append, hfront, hopen]⟩

/-- Lines leave what stands behind them as it is just if they leave every depth as it is. -/
theorem layoutBehind_append_iff (ls : List String) :
    (∀ before after, layoutBehind (before ++ ls) after = layoutBehind before after) ↔
      ∀ depth, depthAfter depth (codeOf ls) = depth := by
  constructor
  · intro h depth
    obtain ⟨front, rfl⟩ := exists_depthAfter_eq depth
    -- a word behind `front` is set in by the depth there, so its length shows the depth
    have hbehind := h front ["a"]
    have hplace : ∀ d, (place d ['a']).1 = indent d ['a'] := by
      intro d
      have hcode : blankLiterals ['a'] = ['a'] := by simp [blankLiterals, isQuote]
      rw [place, hcode]
      rfl
    have hline : codeOf ["a"] = [['a']] := by decide
    rw [layoutBehind_eq, layoutBehind_eq, codeOf_append, depthAfter_append, hline] at hbehind
    simp only [placed, hplace] at hbehind
    have hlength := congrArg List.length (List.cons.inj hbehind).1
    simp only [indent, List.length_append, List.length_replicate] at hlength
    omega
  · intro h before after
    rw [layoutBehind_eq, layoutBehind_eq, codeOf_append, depthAfter_append, h]

def Unbroken (s : List Char) : Prop := ∀ c ∈ s, isBreak c = true → c = '\n'

instance : DecidablePred Unbroken := List.decidableBAll fun c => isBreak c = true → c = '\n'

theorem oneLine_append {s t : List Char} : OneLine (s ++ t) ↔ OneLine s ∧ OneLine t :=
  List.forall_mem_append

theorem oneLine_escape_iff (c : Char) : OneLine (escape c) ↔ (isBreak c = true → c = '\n') := by
  unfold escape
  split
  · simp [OneLine, isBreak]
  · simp [OneLine, isBreak]
  · simp [OneLine, isBreak]
  · simp [OneLine, isBreak]
  · rename_i hn _
    have hn : c ≠ '\n' := hn
    simp [OneLine, hn]

theorem oneLine_quoted_iff (t : List Char) : OneLine (quoted t) ↔ Unbroken t := by
  have hparts : OneLine (quoted t) ↔ ∀ c ∈ t, OneLine (escape c) := by
    have hend : OneLine ['\''] := List.forall_mem_singleton.2 rfl
    have hsplit : quoted t = ['\''] ++ (t.flatMap escape ++ ['\'']) := rfl
    rw [hsplit, oneLine_append, oneLine_append]
    simp only [hend, true_and, and_true]
    exact List.forall_mem_flatMap
  rw [hparts]
  exact forall₂_congr fun c _ => oneLine_escape_iff c

theorem afterQuote_quoted (t rest : List Char) :
    afterQuote '\'' (t.flatMap escape ++ '\'' :: rest) = some rest := by
  induction t with
  | nil => cases rest <;> rfl
  | cons c t ih =>
    rw [List.flatMap_cons, List.append_assoc]
    -- a character is looked at together with the next one, and there always is one
    generalize hs : t.flatMap escape ++ '\'' :: rest = s at ih
    obtain ⟨d, u, rfl⟩ : ∃ d u, s = d :: u := by
      rw [← hs]
      cases t.flatMap escape <;> simp
    unfold escape
    split
    · exact ih
    · exact ih
    · exact ih
    · exact ih
    · rename_i hslash hquote _ _
      have hslash : c ≠ '\\' := hslash
      have hquote : c ≠ '\'' := hquote
      rw [List.cons_append, List.nil_append, afterQuote, if_neg hquote, if_neg hslash, ih]

theorem blankLiterals_cons_of_not_isQuote {c : Char} (hc : isQuote c = false) (s : List Char) :
    blankLiterals (c :: s) = c :: blankLiterals s := by
  rw [blankLiterals, if_neg (by simp [hc])]

theorem blankLiterals_append_of_not_isQuote {x : List Char} (hx : x.any isQuote = false)
    (s : List Char) : blankLiterals (x ++ s) = x ++ blankLiterals s := by
  induction x with
  | nil => rfl
  | cons c x ih =>
    obtain ⟨hc, hx⟩ := Bool.or_eq_false_iff.1 hx
    rw [List.cons_append, blankLiterals_cons_of_not_isQuote hc, ih hx, List.cons_append]

theorem blankLiterals_nil : blankLiterals [] = [] := by rw [blankLiterals]

theorem blankLiterals_cons_of_closed {c : Char} {s after : List Char} (hc : isQuote c = true)
    (h : afterQuote c s = some after) :
    blankLiterals (c :: s) = '\'' :: '\'' :: blankLiterals after := by
  rw [blankLiterals, if_pos hc]
  split
  · rename_i after' hafter
    obtain rfl : after = after' := Option.some.inj (h.symm.trans hafter)
    rfl
  · rename_i hnone
    cases h.symm.trans hnone

theorem blankLiterals_cons_of_unclosed {c : Char} {s : List Char} (hc : isQuote c = true)
    (h : afterQuote c s = none) : blankLiterals (c :: s) = c :: blankLiterals s := by
  rw [blankLiterals, if_pos hc]
  split
  · rename_i after hafter
    cases h.symm.trans hafter
  · rfl

theorem blankLiterals_quoted_append (t rest : List Char) :
    blankLiterals (quoted t ++ rest) = '\'' :: '\'' :: blankLiterals rest := by
  have hquoted : quoted t ++ rest = '\'' :: (t.flatMap escape ++ '\'' :: rest) := by simp [quoted]
  rw [hquoted, blankLiterals_cons_of_closed rfl (afterQuote_quoted t rest)]

def statement (t : String) : String := "const x = " ++ Text.quote t ++ ";"

theorem toList_statement (t : String) :
    (statement t).toList = "const x = ".toList ++ (quoted t.toList ++ [';']) := by
  simp [statement, Text.quote, String.toList_append]

theorem blankLiterals_statement (t : String) :
    blankLiterals (statement t).toList = "const x = '';".toList := by
  rw [toList_statement, blankLiterals_append_of_not_isQuote (by decide), blankLiterals_quoted_append,
    blankLiterals_cons_of_not_isQuote (by decide), blankLiterals_nil]
  rfl

theorem place_statement (depth : Nat) (t : String) :
    place depth (statement t).toList = (indent depth (statement t).toList, depth) := by
  rw [place, blankLiterals_statement]
  rfl

theorem trimmed_statement (t : String) : Trimmed (statement t).toList := by
  rw [toList_statement]
  refine ⟨fun c hc => ?_, fun c hc => ?_⟩
  · obtain rfl : 'c' = c := Option.some.inj hc
    rfl
  · rw [← List.append_assoc, List.getLast?_append] at hc
    obtain rfl : ';' = c := Option.some.inj hc
    rfl

theorem oneLine_statement {t : String} (h : Unbroken t.toList) : OneLine (statement t).toList := by
  rw [toList_statement]
  have hliteral := (oneLine_quoted_iff t.toList).2 h
  exact oneLine_append.2 ⟨by decide, oneLine_append.2 ⟨hliteral, by decide⟩⟩

theorem codeOf_statement {t : String} (h : Unbroken t.toList) :
    codeOf [statement t] = [(statement t).toList] := by
  have hne : (statement t).toList ≠ [] := by simp [toList_statement]
  have htrim := (trimmed_statement t).trim_eq
  rw [codeOf_singleton, shownLines_of_oneLine (oneLine_statement h), codeLines_cons (by rwa [htrim]), htrim]
  rfl

theorem depthAfter_statement {t : String} (h : Unbroken t.toList) (depth : Nat) :
    depthAfter depth (codeOf [statement t]) = depth := by
  rw [codeOf_statement h]
  refine depthAfter_eq_self (List.forall_mem_singleton.2 fun depth => ?_) depth
  rw [place_statement]

def IsRemark (l : List Char) : Prop := ['*'] <+: l ∨ ['/', '*'] <+: l

theorem IsRemark.depth_place {l : List Char} (h : IsRemark l) (depth : Nat) :
    (place depth l).2 = depth := by
  rcases h with ⟨r, rfl⟩ | ⟨r, rfl⟩
  · have hcode : blankLiterals (['*'] ++ r) = ['*'] ++ blankLiterals r :=
      blankLiterals_append_of_not_isQuote (by decide) r
    rw [place, hcode]
    rfl
  · have hcode : blankLiterals (['/', '*'] ++ r) = ['/', '*'] ++ blankLiterals r :=
      blankLiterals_append_of_not_isQuote (by decide) r
    rw [place, hcode]
    rfl

/-- Trimming takes no more than the blanks in front of a trimmed text. -/
theorem prefix_trim {b x : List Char} (hb : Blank b) (hx : Trimmed x) (hne : x ≠ []) (r : List Char) :
    x <+: trim (b ++ (x ++ r)) := by
  have hstay : x.reverse.dropWhile isBlank = x.reverse := List.reverse_eq_iff.1 hx.trimRight_eq
  rw [trim_append_of_blank hb, trim, hx.trimLeft_append hne, trimRight, List.reverse_append,
    List.dropWhile_append, hstay]
  split_ifs
  · exact ⟨[], by rw [List.append_nil, List.reverse_reverse]⟩
  · rw [List.reverse_append, List.reverse_reverse]
    exact List.prefix_append _ _

theorem mem_of_mem_escapeEnd {s : List Char} {c : Char} (h : c ∈ Comment.escapeEnd s) :
    c ∈ s ∨ c = '\\' := by
  fun_induction Comment.escapeEnd s with
  | case1 => cases h
  | case2 rest ih =>
    simp only [List.mem_cons] at h ⊢
    rcases h with rfl | rfl | rfl | h
    · simp
    · simp
    · simp
    · exact (ih h).imp_left fun h => .inr (.inr h)
  | case3 d rest _ ih =>
    rcases List.mem_cons.1 h with rfl | h
    · exact .inl List.mem_cons_self
    · exact (ih h).imp_left (List.mem_cons_of_mem d)

theorem OneLine.escapeEnd {s : List Char} (h : OneLine s) : OneLine (Comment.escapeEnd s) := by
  intro c hc
  rcases mem_of_mem_escapeEnd hc with hc | rfl
  · exact h c hc
  · rfl

theorem OneLine.expand {s : List Char} (h : OneLine s) (column : Nat) : OneLine (expand column s) := by
  fun_induction Text.expand column s with
  | case1 => exact h
  | case2 col rest n ih =>
    refine oneLine_append.2 ⟨fun c hc => ?_, ih (List.forall_mem_cons.1 h).2⟩
    rw [List.eq_of_mem_replicate hc]
    rfl
  | case3 col c rest _ _ ih | case4 col c rest _ _ _ ih =>
    exact List.forall_mem_cons.2 ⟨rfl, ih (List.forall_mem_cons.1 h).2⟩
  | case5 col c rest _ _ _ ih =>
    exact List.forall_mem_cons.2 ⟨(List.forall_mem_cons.1 h).1, ih (List.forall_mem_cons.1 h).2⟩

theorem OneLine.of_mem_wrap {s w : List Char} (h : OneLine s) (hw : w ∈ wrap s) : OneLine w := by
  have hpart := infix_of_mem_fill true _ w hw
  rw [chunksFrom_flatten] at hpart
  exact fun c hc => h.expand 0 c (hpart.subset hc)

def IsRemarkLine (l : List Char) : Prop := OneLine l ∧ IsRemark (trim l)

theorem isRemarkLine_star {r : List Char} (h : OneLine r) : IsRemarkLine (" *".toList ++ r) := by
  refine ⟨oneLine_append.2 ⟨by decide, h⟩, .inl ?_⟩
  have htrimmed : Trimmed ['*'] := ⟨by rintro _ ⟨⟩; rfl, by rintro _ ⟨⟩; rfl⟩
  exact prefix_trim (b := [' ']) (by simp [Blank, isBlank]) htrimmed (by simp) r

theorem isRemarkLine_slash_star {r : List Char} (h : OneLine r) : IsRemarkLine ("/**".toList ++ r) := by
  refine ⟨oneLine_append.2 ⟨by decide, h⟩, .inr ?_⟩
  have htrimmed : Trimmed ['/', '*'] := ⟨by rintro _ ⟨⟩; rfl, by rintro _ ⟨⟩; rfl⟩
  exact prefix_trim .nil htrimmed (by simp) ('*' :: r)

theorem isRemarkLine_of_mem_paragraphLines {p l : List Char} (h : l ∈ Comment.paragraphLines p) :
    IsRemarkLine l := by
  obtain ⟨line, hline, hl⟩ := List.mem_flatMap.1 h
  split at hl
  · obtain rfl := List.mem_singleton.1 hl
    exact isRemarkLine_star (r := [' ']) (by decide)
  · obtain ⟨w, hw, rfl⟩ := List.mem_map.1 hl
    have hword : OneLine w := (oneLine_of_mem_lines hline).escapeEnd.of_mem_wrap hw
    exact isRemarkLine_star (r := ' ' :: w) (List.forall_mem_cons.2 ⟨rfl, hword⟩)

theorem newline_not_mem_of_isShort {ps : List (List Char)} {p : List Char}
    (h : Comment.isShort ps = some p) : '\n' ∉ p := by
  unfold Comment.isShort at h
  split at h
  · split_ifs at h with hfits
    obtain rfl := Option.some.inj h
    intro hmem
    simp [hmem] at hfits
  · cases h

variable {description : Option String} {deprecated : Bool}

/-- Only a paragraph that is shown on one line can break a comment up. -/
theorem isRemarkLine_of_mem_docLines {l : List Char}
    (hshort : ∀ p, Comment.isShort (Comment.contents description deprecated) = some p → Unbroken p)
    (hl : l ∈ Comment.docLines description deprecated) : IsRemarkLine l := by
  unfold Comment.docLines at hl
  split at hl
  · cases hl
  · split at hl
    · rename_i p hp
      obtain rfl := List.mem_singleton.1 hl
      -- the form of one line is chosen only where there is no line feed
      have hline : OneLine p := by
        intro c hc
        by_contra hb
        obtain rfl := hshort p hp c hc (by simpa using hb)
        exact newline_not_mem_of_isShort hp hc
      rw [List.append_assoc]
      exact isRemarkLine_slash_star (r := ' ' :: (Comment.escapeEnd p ++ " */".toList))
        (List.forall_mem_cons.2 ⟨rfl, oneLine_append.2 ⟨hline.escapeEnd, by decide⟩⟩)
    · rcases List.mem_append.1 hl with hl | hl
      · rcases List.mem_cons.1 hl with rfl | hl
        · exact isRemarkLine_slash_star OneLine.nil
        · rcases Comment.mem_separated _ hl with ⟨q, hq, hl⟩ | rfl
          · obtain ⟨q, -, rfl⟩ := List.mem_map.1 hq
            exact isRemarkLine_of_mem_paragraphLines hl
          · exact isRemarkLine_star OneLine.nil
      · obtain rfl := List.mem_singleton.1 hl
        exact isRemarkLine_star (r := ['/']) (by decide)

theorem depthAfter_doc
    (hshort : ∀ p, Comment.isShort (Comment.contents description deprecated) = some p → Unbroken p)
    (depth : Nat) : depthAfter depth (codeOf (Comment.doc description deprecated)) = depth := by
  have hdoc : (Comment.doc description deprecated).map String.toList =
      Comment.docLines description deprecated := by
    simp [Comment.doc, Function.comp_def, String.toList_ofList]
  refine depthAfter_eq_self (fun l hl => ?_) depth
  rw [codeOf, hdoc] at hl
  obtain ⟨t, ht, hl⟩ := List.mem_flatMap.1 hl
  obtain ⟨hline, hremark⟩ := isRemarkLine_of_mem_docLines hshort ht
  rw [shownLines_of_oneLine hline] at hl
  obtain rfl : l = trim t := by simpa using List.mem_of_mem_filter hl
  exact hremark.depth_place

theorem mem_placed (depth : Nat) (as : List (List Char)) (a : List Char) (bs : List (List Char)) :
    (place (depthAfter depth as) a).1 ∈ placed depth (as ++ a :: bs) := by
  rw [placed_append, placed]
  exact List.mem_append_right _ List.mem_cons_self

theorem exists_line_quote_iff (t : String) (before after : List String) :
    (∃ l ∈ lines (reindent (before ++ [statement t] ++ after)).toList, (Text.quote t).toList <:+: l) ↔
      Unbroken t.toList := by
  have hquote : (Text.quote t).toList = quoted t.toList := String.toList_ofList
  rw [hquote, ← oneLine_quoted_iff]
  constructor
  · rintro ⟨l, hl, hpart⟩
    exact fun c hc => oneLine_of_mem_lines hl c (hpart.subset hc)
  · intro h
    have hcode : codeOf (before ++ [statement t] ++ after) =
        codeOf before ++ (statement t).toList :: codeOf after := by
      rw [codeOf_append, codeOf_append, codeOf_statement ((oneLine_quoted_iff _).1 h), List.append_assoc]
      rfl
    have hmem := mem_placed 0 (codeOf before) (statement t).toList (codeOf after)
    rw [← hcode, ← standingLines_reindent, place_statement] at hmem
    refine ⟨_, mem_lines_of_mem_standingLines hmem, ?_⟩
    dsimp only
    rw [indent, toList_statement]
    exact (List.infix_append' _ _ _).trans (List.suffix_append _ _).isInfix

/-- A literal stands on one line and leaves what follows it as an empty one does, and so does a comment,
unless there is a line break, other than a line feed, in the literal or in the one paragraph that a
comment of a single line holds. A comment that is broken up does no harm only where its lines are balanced
at every depth. -/
theorem supplied_text_undisturbing (before after : List String) (t : String)
    (description : Option String) (deprecated : Bool) :
    (∀ front, (layoutBehind front after).map trim = codeOf after) ∧
    ((∃ l ∈ lines (reindent (before ++ [statement t] ++ after)).toList,
      (Text.quote t).toList <:+: l) ↔ Unbroken t.toList) ∧
    (Unbroken t.toList →
      layoutBehind (before ++ [statement t]) after = layoutBehind (before ++ [statement ""]) after) ∧
    ((∀ p, Comment.isShort (Comment.contents description deprecated) = some p → Unbroken p) →
      layoutBehind (before ++ Comment.doc description deprecated) after = layoutBehind before after) ∧
    ((∀ front behind, layoutBehind (front ++ Comment.doc description deprecated) behind =
        layoutBehind front behind) ↔
      ∀ depth, depthAfter depth (codeOf (Comment.doc description deprecated)) = depth) := by
  refine ⟨fun front => map_trim_layoutBehind front after, exists_line_quote_iff t before after,
    fun h => ?_, fun h => ?_, layoutBehind_append_iff _⟩
  · have hempty : Unbroken "".toList := by decide
    rw [layoutBehind_eq, layoutBehind_eq, codeOf_append, codeOf_append, depthAfter_append,
      depthAfter_append, depthAfter_statement h, depthAfter_statement hempty]
  · exact (layoutBehind_append_iff _).2 (depthAfter_doc h) before after

theorem supplied_text_undisturbing_brackets :
    Unbroken "it's \x7b // (\n".toList ∧
      (∃ l ∈ lines (reindent ["f(\x7b", statement "it's \x7b // (\n", "\x7d)"]).toList,
        (Text.quote "it's \x7b // (\n").toList <:+: l) ∧
      layoutBehind ["f(\x7b", statement "it's \x7b // (\n"] ["\x7d)"] =
        layoutBehind ["f(\x7b", statement ""] ["\x7d)"] ∧
      (∀ p, Comment.isShort (Comment.contents (some "The end: */ \x7b") false) = some p → Unbroken p) ∧
      layoutBehind ("f(\x7b" :: Comment.doc (some "The end: */ \x7b") false) ["\x7d)"] =
        layoutBehind ["f(\x7b"] ["\x7d)"] := by
  have hliteral : Unbroken "it's \x7b // (\n".toList := by decide
  have hshort : ∀ p, Comment.isShort (Comment.contents (some "The end: */ \x7b") false) = some p →
      Unbroken p := by
    intro p hp
    obtain rfl : "The end: */ \x7b".toList = p := Option.some.inj hp
    decide
  obtain ⟨-, hline, hbehind, hcomment, -⟩ := supplied_text_undisturbing ["f(\x7b"] ["\x7d)"]
    "it's \x7b // (\n" (some "The end: */ \x7b") false
  exact ⟨hliteral, hline.2 hliteral, hbehind hliteral, hshort, hcomment hshort⟩

/-- Behind a break that is not escaped, a bracket of the text counts as one of the code. -/
theorem supplied_text_disturbing :
    ¬ (∃ l ∈ lines (reindent [statement "a\u2028\x7bb", "y;"]).toList,
      (Text.quote "a\u2028\x7bb").toList <:+: l) ∧
    layoutBehind [statement "a\u2028\x7bb"] ["y;"] ≠ layoutBehind [statement ""] ["y;"] ∧
    layoutBehind (Comment.doc (some "a\u2028\x7b") false) ["y;"] ≠ layoutBehind [] ["y;"] := by
  decide +kernel

end DtoGen.Layout
