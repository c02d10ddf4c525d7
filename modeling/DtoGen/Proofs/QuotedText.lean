import DtoGen.Proofs.Nesting
import DtoGen.Proofs.Reading
import DtoGen.Proofs.Substitution
import Mathlib.Algebra.Group.Even

namespace DtoGen.Text

/-- A text with some text in place of every occurrence of a character. -/
def replaceChar (c : Char) (r s : List Char) : List Char := s.flatMap fun d => if d = c then r else [d]

/-- Replaces the escapes of a literal from left to right; any other backslash stays. -/
def unescape : List Char → List Char
  | [] => []
  | [c] => [c]
  | c :: d :: rest =>
    if c = '\\' then
      match unescape? d with
      | some e => e :: unescape rest
      | none => c :: unescape (d :: rest)
    else c :: unescape (d :: rest)

def backslashesAtEnd (s : List Char) : Nat := (s.reverse.takeWhile (· = '\\')).length

/-- Every single quote is escaped: the backslashes right before it are odd in number, so that the last of
them is not itself escaped. -/
def QuotesEscaped (s : List Char) : Prop := ∀ x y, s = x ++ '\'' :: y → Odd (backslashesAtEnd x)

/-- Escaped one character after the other. The backslash comes first, since the others bring in new ones. -/
theorem flatMap_escape_eq_replaceChar (s : List Char) : s.flatMap escape =
    replaceChar '\t' ['\\', 't'] (replaceChar '\n' ['\\', 'n']
      (replaceChar '\'' ['\\', '\''] (replaceChar '\\' ['\\', '\\'] s))) := by
  simp only [replaceChar, List.flatMap_assoc]
  congr 1
  funext c
  by_cases hb : c = '\\'
  · subst hb
    rfl
  by_cases hq : c = '\''
  · subst hq
    rfl
  by_cases hn : c = '\n'
  · subst hn
    rfl
  by_cases ht : c = '\t'
  · subst ht
    rfl
  simp [escape, hb, hq, hn, ht]

theorem unescape_cons_of_ne {c : Char} (hc : c ≠ '\\') (s : List Char) :
    unescape (c :: s) = c :: unescape s := by
  cases s with
  | nil => rfl
  | cons d s => rw [unescape, if_neg hc]

theorem unescape_escape_append (c : Char) (s : List Char) :
    unescape (escape c ++ s) = c :: unescape s := by
  rcases escape_cases c with ⟨he, hb, -⟩ | ⟨d, he, hd, -⟩
  · rw [he, List.singleton_append, unescape_cons_of_ne hb]
  · rw [he, List.cons_append, List.singleton_append, unescape, if_pos rfl, hd]

theorem unescape_flatMap_escape (s : List Char) : unescape (s.flatMap escape) = s := by
  induction s with
  | nil => rfl
  | cons c s ih => rw [List.flatMap_cons, unescape_escape_append, ih]

theorem tab_not_mem_escape (c : Char) : '\t' ∉ escape c := by
  rcases escape_cases c with ⟨he, -, -, -, ht⟩ | ⟨d, he, -, -, ht⟩
  · simp [he, ht.symm]
  · simp [he, ht.symm]

theorem backslashesAtEnd_append_backslash (x : List Char) :
    backslashesAtEnd (x ++ ['\\']) = backslashesAtEnd x + 1 := by
  simp [backslashesAtEnd]

theorem backslashesAtEnd_append_of_ne (x : List Char) {c : Char} (hc : c ≠ '\\') :
    backslashesAtEnd (x ++ [c]) = 0 := by
  simp [backslashesAtEnd, hc]

/-- Backslashes come in pairs, so the last one reaches no further than the end of a quoted text. -/
theorem even_backslashesAtEnd (s : List Char) : Even (backslashesAtEnd (s.flatMap escape)) := by
  induction s using List.reverseRecOn with
  | nil => exact Even.zero
  | append_singleton s c ih =>
    rw [List.flatMap_append, List.flatMap_singleton]
    rcases escape_cases c with ⟨he, hb, -⟩ | ⟨d, he, -⟩
    · rw [he, backslashesAtEnd_append_of_ne _ hb]
      exact Even.zero
    · have hsplit : s.flatMap escape ++ ['\\', d] = s.flatMap escape ++ ['\\'] ++ [d] := by simp
      rw [he, hsplit]
      by_cases hd : d = '\\'
      · rw [hd, backslashesAtEnd_append_backslash, backslashesAtEnd_append_backslash]
        exact ih.add even_two
      · rw [backslashesAtEnd_append_of_ne _ hd]
        exact Even.zero

/-- What stands before a quote inside a quoted text is some quoted text and one backslash more. -/
theorem exists_of_flatMap_escape_eq {s x y : List Char} (h : s.flatMap escape = x ++ '\'' :: y) :
    ∃ a : List Char, x = a.flatMap escape ++ ['\\'] := by
  induction s generalizing x with
  | nil => simp at h
  | cons c s ih =>
    rw [List.flatMap_cons] at h
    rcases List.append_eq_append_iff.1 h with ⟨z, rfl, hz⟩ | ⟨z, hc, hz⟩
    · obtain ⟨a, rfl⟩ := ih hz
      exact ⟨c :: a, by rw [List.flatMap_cons, List.append_assoc]⟩
    cases z with
    | nil =>
      obtain ⟨a, ha⟩ := ih (x := []) hz.symm
      simp at ha
    | cons d z =>
      obtain ⟨rfl, -⟩ := List.cons.inj hz
      -- here the quote stands in what was written for one character
      refine ⟨[], ?_⟩
      rcases escape_cases c with ⟨he, -, hq, -⟩ | ⟨d, he, -⟩
      · have hmem : '\'' ∈ [c] := by rw [← he, hc]; simp
        exact absurd (List.mem_singleton.1 hmem).symm hq
      · rw [he] at hc
        cases x with
        | nil => exact absurd (List.cons.inj hc).1 (by decide)
        | cons e x =>
          rw [List.cons_append] at hc
          obtain ⟨rfl, hx⟩ := List.cons.inj hc
          have hlength := congrArg List.length hx
          simp only [List.length_append, List.length_cons, List.length_nil] at hlength
          have hnil : x = [] := List.length_eq_zero_iff.1 (by omega)
          rw [hnil]
          rfl

theorem quotesEscaped_flatMap_escape (s : List Char) : QuotesEscaped (s.flatMap escape) := by
  intro x y h
  obtain ⟨a, rfl⟩ := exists_of_flatMap_escape_eq h
  rw [backslashesAtEnd_append_backslash]
  exact (even_backslashesAtEnd a).add_one

end DtoGen.Text

namespace DtoGen.Layout

open Text

/-- What the pattern of a literal takes between two quotes: characters other than that quote and the
backslash, and backslashes with any one character behind them but a line feed. -/
inductive LiteralBody (q : Char) : List Char → Prop where
  | nil : LiteralBody q []
  | escape {c : Char} {s : List Char} (hc : c ≠ '\n') (hs : LiteralBody q s) :
    LiteralBody q ('\\' :: c :: s)
  | plain {c : Char} {s : List Char} (hq : c ≠ q) (hb : c ≠ '\\') (hs : LiteralBody q s) :
    LiteralBody q (c :: s)

def IsLiteral (m : List Char) : Prop :=
  ∃ q body, isQuote q = true ∧ LiteralBody q body ∧ m = q :: (body ++ [q])

/-- A text, and what it becomes where the matches of the pattern are replaced by empty literals. -/
def Blanked : List Char → List Char → Prop := Substituted IsLiteral fun _ => ['\'', '\'']

variable {q c : Char} {m s r body rest : List Char}

theorem ne_backslash_of_isQuote (hq : isQuote q = true) : q ≠ '\\' := by
  rintro rfl
  exact absurd hq (by decide)

theorem afterQuote_body (hq : q ≠ '\\') (h : LiteralBody q body) (rest : List Char) :
    afterQuote q (body ++ q :: rest) = some rest := by
  induction h with
  | nil => cases rest <;> simp [afterQuote]
  | @escape c s _ _ ih =>
    rw [List.cons_append, List.cons_append, afterQuote, if_neg hq.symm, if_pos rfl, ih]
  | @plain c s hc hb _ ih =>
    -- a character is looked at together with the next one, and there always is one
    obtain ⟨d, u, hu⟩ : ∃ d u, s ++ q :: rest = d :: u := by cases s <;> simp
    rw [hu] at ih
    rw [List.cons_append, hu, afterQuote, if_neg hc, if_neg hb, ih]

theorem literalBody_of_afterQuote (h : afterQuote q s = some rest) (hs : '\n' ∉ s) :
    ∃ body, LiteralBody q body ∧ s = body ++ q :: rest := by
  fun_induction afterQuote q s with
  | case1 => cases h
  | case2 =>
    obtain rfl := Option.some.inj h
    exact ⟨[], .nil, rfl⟩
  | case3 => cases h
  | case4 d rest' =>
    obtain rfl := Option.some.inj h
    exact ⟨[], .nil, rfl⟩
  | case5 d rest' hne ih =>
    obtain ⟨body, hbody, rfl⟩ := ih h (by simp_all)
    exact ⟨'\\' :: d :: body, .escape (by rintro rfl; simp at hs) hbody, rfl⟩
  | case6 c d rest' hne hb ih =>
    obtain ⟨body, hbody, hrest⟩ := ih h (by simp_all)
    exact ⟨c :: body, .plain hne hb hbody, by rw [hrest, List.cons_append]⟩

theorem IsLiteral.longest (hm : IsLiteral m) (rest : List Char) : Longest IsLiteral m rest := by
  refine ⟨hm, ?_, fun m' hm' hprefix => ?_⟩
  · obtain ⟨q, body, -, -, rfl⟩ := hm
    exact List.cons_ne_nil _ _
  · obtain ⟨q, body, hq, hbody, rfl⟩ := hm
    obtain ⟨q', body', -, hbody', rfl⟩ := hm'
    obtain ⟨rest', h⟩ := hprefix
    simp only [List.cons_append, List.append_assoc, List.nil_append, List.cons.injEq] at h
    obtain ⟨rfl, h⟩ := h
    have hb := ne_backslash_of_isQuote hq
    have hafter := afterQuote_body hb hbody' rest'
    rw [h, afterQuote_body hb hbody rest, Option.some.injEq] at hafter
    have hlength := congrArg List.length h
    rw [hafter] at hlength
    simp only [List.length_append, List.length_cons, List.length_nil] at hlength ⊢
    omega

theorem IsLiteral.isQuote_head (hm : IsLiteral m) (h : m <+: c :: s) : isQuote c = true := by
  obtain ⟨q, body, hq, -, rfl⟩ := hm
  rwa [← (List.cons_prefix_cons.1 h).1]

theorem blanked_nil : Blanked [] [] := Substituted.nil

theorem Blanked.cons_literal (hm : IsLiteral m) (h : Blanked s r) :
    Blanked (m ++ s) ('\'' :: '\'' :: r) :=
  Substituted.hit (hm.longest s) h

theorem Blanked.cons_of_not_isQuote (hc : isQuote c = false) (h : Blanked s r) :
    Blanked (c :: s) (c :: r) := by
  refine Substituted.keep (fun m hm hprefix => ?_) h
  simpa [hc] using hm.isQuote_head hprefix

theorem Blanked.append_of_not_isQuote {x : List Char} (hx : x.any isQuote = false) (h : Blanked s r) :
    Blanked (x ++ s) (x ++ r) := by
  induction x with
  | nil => exact h
  | cons c x ih =>
    obtain ⟨hc, hx⟩ := Bool.or_eq_false_iff.1 hx
    exact (ih hx).cons_of_not_isQuote hc

/-- On a line the brackets are counted in what the pattern leaves. -/
theorem blanked_blankLiterals (hs : '\n' ∉ s) : Blanked s (blankLiterals s) := by
  induction s using blankLiterals.induct with
  | case1 =>
    rw [blankLiterals_nil]
    exact blanked_nil
  | case2 c rest hq after hafter _ ih =>
    obtain ⟨body, hbody, rfl⟩ := literalBody_of_afterQuote hafter (by simp_all)
    have hsplit : c :: (body ++ c :: after) = c :: (body ++ [c]) ++ after := by simp
    have hline : '\n' ∉ after := fun hmem => hs (by simp [hmem])
    rw [blankLiterals_cons_of_closed hq hafter, hsplit]
    exact (ih hline).cons_literal ⟨c, body, hq, hbody, rfl⟩
  | case3 c rest hq hafter ih =>
    have hline : '\n' ∉ rest := fun hmem => hs (List.mem_cons_of_mem c hmem)
    rw [blankLiterals_cons_of_unclosed hq hafter]
    refine Substituted.keep ?_ (ih hline)
    rintro m ⟨q, body, hq', hbody, rfl⟩ ⟨t, ht⟩
    simp only [List.cons_append, List.append_assoc, List.nil_append, List.cons.injEq] at ht
    obtain ⟨rfl, rfl⟩ := ht
    rw [afterQuote_body (ne_backslash_of_isQuote hq') hbody] at hafter
    cases hafter
  | case4 c rest hq ih =>
    have hline : '\n' ∉ rest := fun hmem => hs (List.mem_cons_of_mem c hmem)
    have hq : isQuote c = false := by simpa using hq
    rw [blankLiterals_cons_of_not_isQuote hq]
    exact (ih hline).cons_of_not_isQuote hq

theorem literalBody_flatMap_escape (t : List Char) : LiteralBody '\'' (t.flatMap Text.escape) := by
  induction t with
  | nil => exact .nil
  | cons c t ih =>
    rw [List.flatMap_cons]
    rcases escape_cases c with ⟨he, hb, hq, -⟩ | ⟨d, he, -, hd, -⟩
    · rw [he]
      exact .plain hq hb ih
    · rw [he]
      exact .escape hd ih

theorem isLiteral_quoted (t : List Char) : IsLiteral (quoted t) :=
  ⟨'\'', t.flatMap Text.escape, rfl, literalBody_flatMap_escape t, rfl⟩

/-- A quoted text between texts without quotes is the one match of the pattern. -/
theorem blanked_around_quoted {u v : List Char} (hu : u.any isQuote = false)
    (hv : v.any isQuote = false) (t : List Char) :
    Blanked (u ++ (quoted t ++ v)) (u ++ ('\'' :: '\'' :: v)) := by
  have hend : Blanked v v := by simpa using blanked_nil.append_of_not_isQuote hv
  exact (hend.cons_literal (isLiteral_quoted t)).append_of_not_isQuote hu

theorem blankLiterals_around_quoted {u v : List Char} (hu : u.any isQuote = false)
    (hv : v.any isQuote = false) (t : List Char) :
    blankLiterals (u ++ (quoted t ++ v)) = u ++ ('\'' :: '\'' :: v) := by
  have hend := blankLiterals_append_of_not_isQuote hv []
  rw [List.append_nil, blankLiterals_nil, List.append_nil] at hend
  rw [blankLiterals_append_of_not_isQuote hu, blankLiterals_quoted_append, hend]

/-- A quoted text stands between two single quotes. Inside, every other single quote is escaped, and the
last character escapes nothing; there is no line feed and no tab; and undoing the escapes gives the text
back. Between texts without quotes it is the one literal that is found, so that it counts as an empty one. -/
theorem quoted_text_opaque (t : String) :
    (∃ inner : List Char, (quote t).toList = '\'' :: (inner ++ ['\'']) ∧
      inner = replaceChar '\t' ['\\', 't'] (replaceChar '\n' ['\\', 'n']
        (replaceChar '\'' ['\\', '\''] (replaceChar '\\' ['\\', '\\'] t.toList))) ∧
      QuotesEscaped inner ∧ Even (backslashesAtEnd inner) ∧ '\n' ∉ inner ∧ '\t' ∉ inner ∧
      unescape inner = t.toList) ∧
    (∀ u v : String, u.toList.any isQuote = false → v.toList.any isQuote = false →
      blankLiterals (u ++ quote t ++ v).toList = (u ++ "''" ++ v).toList ∧
      ∀ r, Blanked (u ++ quote t ++ v).toList r ↔ r = (u ++ "''" ++ v).toList) ∧
    (∀ s r : List Char, '\n' ∉ s → (Blanked s r ↔ r = blankLiterals s)) := by
  have hquote : (quote t).toList = quoted t.toList := String.toList_ofList
  refine ⟨⟨t.toList.flatMap Text.escape, hquote, flatMap_escape_eq_replaceChar _,
    quotesEscaped_flatMap_escape _, even_backslashesAtEnd _, by simp [newline_not_mem_escape],
    by simp [tab_not_mem_escape], unescape_flatMap_escape _⟩, fun u v hu hv => ?_,
    fun s r hs => substituted_iff (blanked_blankLiterals hs)⟩
  have hleft : (u ++ quote t ++ v).toList = u.toList ++ (quoted t.toList ++ v.toList) := by
    rw [String.toList_append, String.toList_append, hquote, List.append_assoc]
  have hright : (u ++ "''" ++ v).toList = u.toList ++ ('\'' :: '\'' :: v.toList) := by
    simp [String.toList_append]
  rw [hleft, hright]
  refine ⟨blankLiterals_around_quoted hu hv _, fun r => ?_⟩
  have hblanked := blanked_around_quoted hu hv t.toList
  constructor
  · exact fun h => h.unique hblanked
  · rintro rfl
    exact hblanked

theorem quoted_text_opaque_mixed :
    (quote "it's \\ \"\n").toList = "'it\\'s \\\\ \"\\n'".toList ∧
      "f(\\".toList.any isQuote = false ∧ ");\n".toList.any isQuote = false ∧
      blankLiterals ("f(\\" ++ quote "it's \\ \"\n" ++ ");\n").toList = "f(\\'');\n".toList ∧
      Blanked ("f(\\" ++ quote "it's \\ \"\n" ++ ");\n").toList "f(\\'');\n".toList ∧
      '\n' ∉ "g(\"it's\")".toList ∧ Blanked "g(\"it's\")".toList "g('')".toList := by
  obtain ⟨-, haround, hline⟩ := quoted_text_opaque "it's \\ \"\n"
  obtain ⟨hblank, hblanked⟩ := haround "f(\\" ");\n" (by decide) (by decide)
  refine ⟨by decide, by decide, by decide, hblank, (hblanked _).2 rfl, by decide, ?_⟩
  exact (hline _ _ (by decide)).2 (by decide +kernel)

end DtoGen.Layout
