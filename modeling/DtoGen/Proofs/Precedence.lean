import DtoGen.Proofs.Truth

namespace DtoGen

namespace Precedence

/-- An operator with its blanks, or a character. -/
inductive Token where
  | operator (k : Connective)
  | char (c : Char)
deriving DecidableEq

def lex : List Char → List Token
  | ' ' :: '&' :: '&' :: ' ' :: cs => .operator .all :: lex cs
  | ' ' :: '|' :: '|' :: ' ' :: cs => .operator .any :: lex cs
  | c :: cs => .char c :: lex cs
  | [] => []

def Token.chars : Token → List Char
  | .operator k => k.operator.toList
  | .char c => [c]

def chars (ts : List Token) : List Char := ts.flatMap Token.chars

def Token.depth (d : Nat) : Token → Nat
  | .operator _ => d
  | .char c => if c = '(' then d + 1 else if c = ')' then d - 1 else d

/-- The parts between the operators of one kind that stand outside parentheses. -/
def split (k : Connective) : (depth : Nat) → List Token → List (List Token)
  | _, [] => [[]]
  | d, t :: ts =>
    if d = 0 ∧ t = .operator k then [] :: split k 0 ts
    else (split k (t.depth d) ts).modifyHead (t :: ·)

def hasOperator (ts : List Token) : Bool := ts.any fun
  | .operator _ => true
  | .char _ => false

/-- What stands in the parentheses around a part. Parentheses without an operator inside belong to the
text of a test. -/
def enclosed? : List Token → Option (List Token)
  | .char c :: ts =>
    if c = '(' && hasOperator ts && ts.getLast? = some (.char ')') then some ts.dropLast else none
  | _ => none

theorem length_lt_of_enclosed? {ts inner : List Token} (h : enclosed? ts = some inner) :
    inner.length < ts.length := by
  unfold enclosed? at h
  split at h
  · split_ifs at h
    obtain rfl := Option.some.inj h
    simp only [List.length_dropLast, List.length_cons]
    omega
  · cases h

theorem length_le_of_mem_split {k : Connective} {d : Nat} {ts part : List Token}
    (h : part ∈ split k d ts) : part.length ≤ ts.length := by
  induction ts generalizing d part with
  | nil =>
    obtain rfl := List.mem_singleton.1 h
    simp
  | cons t ts ih =>
    rw [split] at h
    split_ifs at h
    · rcases List.mem_cons.1 h with rfl | h
      · simp
      · exact (ih h).trans (Nat.le_succ _)
    · cases hs : split k (t.depth d) ts with
      | nil => simp [hs] at h
      | cons first rest =>
        rw [hs, List.modifyHead_cons] at h
        rcases List.mem_cons.1 h with rfl | h
        · exact Nat.succ_le_succ (ih (hs ▸ List.mem_cons_self))
        · exact (ih (hs ▸ List.mem_cons_of_mem _ h)).trans (Nat.le_succ _)

mutual
/-- The condition that tokens denote: `||` binds least, then `&&`, and parentheses bind most. -/
def readTokens (ts : List Token) : Condition String :=
  .join .any ((split .any 0 ts).attach.map fun disjunct =>
    .join .all ((split .all 0 disjunct.1).attach.map fun part => readPart part.1))
termination_by (ts.length, 1)
decreasing_by
  have hlen := (length_le_of_mem_split part.2).trans (length_le_of_mem_split disjunct.2)
  simp only [Prod.lex_def]
  omega

/-- The condition that a part between operators denotes. -/
def readPart (part : List Token) : Condition String :=
  match _h : enclosed? part with
  | some inner => readTokens inner
  | none => .test (String.ofList (chars part))
termination_by (part.length, 0)
decreasing_by exact Prod.Lex.left _ _ (length_lt_of_enclosed? _h)
end

theorem readTokens_eq (ts : List Token) :
    readTokens ts = .join .any ((split .any 0 ts).map fun disjunct =>
      .join .all ((split .all 0 disjunct).map readPart)) := by
  rw [readTokens]
  simp only [List.attach_map_val]
  have hdisjuncts := List.attach_map_val (l := split .any 0 ts)
    (f := fun disjunct => Condition.join .all ((split .all 0 disjunct).map readPart))
  exact congrArg _ hdisjuncts

def read (t : String) : Condition String := readTokens (lex t.toList)

theorem readPart_of_enclosed {part inner : List Token} (h : enclosed? part = some inner) :
    readPart part = readTokens inner := by
  rw [readPart]
  split
  · obtain rfl := Option.some.inj (h.symm.trans ‹_›)
    rfl
  · simp_all

theorem readPart_of_not_hasOperator {part : List Token} (h : hasOperator part = false) :
    readPart part = .test (String.ofList (chars part)) := by
  have hnone : enclosed? part = none := by
    unfold enclosed?
    split
    · rename_i c ts
      have hts : hasOperator ts = false := by simpa [hasOperator] using h
      simp [hts]
    · rfl
  rw [readPart]
  split <;> simp_all

@[simp] theorem chars_lex (cs : List Char) : chars (lex cs) = cs := by
  fun_induction lex cs with
  | case1 cs ih => simpa [chars, Token.chars, Connective.operator] using ih
  | case2 cs ih => simpa [chars, Token.chars, Connective.operator] using ih
  | case3 c cs _ _ ih => simpa [chars, Token.chars] using ih
  | case4 => rfl

/-- The depth in parentheses after a text, unless one is closed that was not opened. -/
def depthAfter (d : Nat) : List Char → Option Nat
  | [] => some d
  | c :: cs =>
    if c = '(' then depthAfter (d + 1) cs
    else if c = ')' then if d = 0 then none else depthAfter (d - 1) cs
    else depthAfter d cs

theorem depthAfter_append (d : Nat) (as bs : List Char) :
    depthAfter d (as ++ bs) = (depthAfter d as).bind fun e => depthAfter e bs := by
  induction as generalizing d with
  | nil => rfl
  | cons a as ih =>
    simp only [List.cons_append, depthAfter, ih]
    split_ifs <;> rfl

theorem depthAfter_succ {d d' : Nat} {cs : List Char} (h : depthAfter d cs = some d') :
    depthAfter (d + 1) cs = some (d' + 1) := by
  induction cs generalizing d with
  | nil => exact congrArg (Option.map Nat.succ) h
  | cons c cs ih =>
    rw [depthAfter] at h ⊢
    by_cases ho : c = '('
    · rw [if_pos ho] at h ⊢
      exact ih h
    · rw [if_neg ho] at h ⊢
      by_cases hc : c = ')'
      · rw [if_pos hc] at h ⊢
        cases d with
        | zero => cases h
        | succ d => exact ih h
      · rw [if_neg hc] at h ⊢
        exact ih h

theorem depthAfter_operator (d : Nat) (k : Connective) :
    depthAfter d k.operator.toList = some d := by
  cases k <;> rfl

theorem Token.depth_add {t : Token} {d d' : Nat} (h : depthAfter d t.chars = some d') (e : Nat) :
    t.depth (d + e) = d' + e := by
  cases t with
  | operator k =>
    obtain rfl : d = d' := by simpa [Token.chars, depthAfter_operator] using h
    rfl
  | char c =>
    simp only [Token.chars, depthAfter] at h
    unfold Token.depth
    split_ifs at h ⊢ <;> grind

/-- Nothing is split inside parentheses, nor where no operator of the kind stands. -/
theorem split_append {k : Connective} {d d' e : Nat} {ts : List Token}
    (h : depthAfter d (chars ts) = some d') (hk : 0 < e ∨ .operator k ∉ ts) (rest : List Token) :
    split k (d + e) (ts ++ rest) = (split k (d' + e) rest).modifyHead (ts ++ ·) := by
  induction ts generalizing d with
  | nil =>
    obtain rfl := Option.some.inj h
    exact (congrFun List.modifyHead_id _).symm
  | cons t ts ih =>
    have hk' : 0 < e ∨ .operator k ∉ ts := hk.imp_right fun hn hm => hn (List.mem_cons_of_mem t hm)
    have hsep : ¬(d + e = 0 ∧ t = .operator k) := by
      rintro ⟨hd, rfl⟩
      rcases hk with hk | hk
      · omega
      · exact hk List.mem_cons_self
    rw [chars, List.flatMap_cons, depthAfter_append, Option.bind_eq_some_iff] at h
    obtain ⟨d₁, hd₁, hrest⟩ := h
    rw [List.cons_append, split, if_neg hsep, Token.depth_add hd₁, ih hrest hk',
      List.modifyHead_modifyHead]
    rfl

def Whole (k : Connective) (ts : List Token) : Prop :=
  ∀ rest, split k 0 (ts ++ rest) = (split k 0 rest).modifyHead (ts ++ ·)

namespace Whole

variable {j k : Connective} {as bs ts : List Token}

theorem split_eq (h : Whole k ts) : split k 0 ts = [ts] := by
  simpa [split] using h []

theorem append (ha : Whole k as) (hb : Whole k bs) : Whole k (as ++ bs) := by
  intro rest
  rw [List.append_assoc, ha, hb, List.modifyHead_modifyHead]
  simp [Function.comp_def]

theorem operator (h : j ≠ k) : Whole k [.operator j] := by
  intro rest
  rw [List.singleton_append, split, if_neg (by simp [h])]
  rfl

theorem of_not_mem (h : depthAfter 0 (chars ts) = some 0) (hk : .operator k ∉ ts) : Whole k ts :=
  fun rest => split_append (e := 0) h (.inr hk) rest

theorem parens (h : depthAfter 0 (chars ts) = some 0) :
    Whole k (.char '(' :: (ts ++ [.char ')'])) := by
  intro rest
  have hinside := split_append (k := k) (e := 1) h (.inl Nat.one_pos) (.char ')' :: rest)
  simp only [List.cons_append, List.append_assoc, List.nil_append]
  rw [split, if_neg (by simp)]
  change (split k (0 + 1) _).modifyHead _ = _
  rw [hinside, split, if_neg (by simp)]
  simp [Token.depth, List.modifyHead_modifyHead, Function.comp_def]

end Whole

section Intercalate

variable {j k : Connective} {parts : List (List Token)}

theorem split_intercalate (h : ∀ ts ∈ parts, Whole k ts) (hne : parts ≠ []) :
    split k 0 ([.operator k].intercalate parts) = parts := by
  induction parts with
  | nil => exact absurd rfl hne
  | cons ts parts ih =>
    obtain ⟨hts, hparts⟩ := List.forall_mem_cons.1 h
    cases parts with
    | nil => rw [List.intercalate_singleton, hts.split_eq]
    | cons us parts =>
      rw [List.intercalate_cons_cons, List.append_assoc, hts, List.singleton_append, split,
        if_pos ⟨rfl, rfl⟩, ih hparts (by simp)]
      simp

theorem whole_intercalate (hjk : j ≠ k) (h : ∀ ts ∈ parts, Whole k ts) (hne : parts ≠ []) :
    Whole k ([.operator j].intercalate parts) := by
  induction parts with
  | nil => exact absurd rfl hne
  | cons ts parts ih =>
    obtain ⟨hts, hparts⟩ := List.forall_mem_cons.1 h
    cases parts with
    | nil =>
      rw [List.intercalate_singleton]
      exact hts
    | cons us parts =>
      rw [List.intercalate_cons_cons]
      exact (hts.append (.operator hjk)).append (ih hparts (by simp))

end Intercalate

/-- No operator reaches from a text into one that begins so. -/
def Stops (rest : List Char) : Prop := ∀ c ∈ rest.head?, c = ' ' ∨ c = ')'

/-- A text whose tokens do not depend on what comes after it. -/
def Closed (t : List Char) : Prop := ∀ rest, Stops rest → lex (t ++ rest) = lex t ++ lex rest

/-- The text of a test that can be read inside others: its parentheses are balanced, and there is no
operator in it, nor at its end one up to the last blank. -/
structure Legible (t : String) : Prop where
  balanced : depthAfter 0 t.toList = some 0
  no_operator : ∀ k : Connective, ¬k.operator.toList <:+: t.toList
  no_operator_end : ∀ k : Connective, ¬k.operator.toList.dropLast <:+ t.toList

theorem lex_operator (k : Connective) (cs : List Char) :
    lex (k.operator.toList ++ cs) = .operator k :: lex cs := by
  cases k <;> rfl

theorem lex_cons {c : Char} {cs : List Char} (h : ∀ k : Connective, ¬k.operator.toList <+: c :: cs) :
    lex (c :: cs) = .char c :: lex cs := by
  rw [lex]
  · rintro cs' rfl rfl
    exact h .all ⟨cs', rfl⟩
  · rintro cs' rfl rfl
    exact h .any ⟨cs', rfl⟩

/-- An operator that begins in a text and ends after it stands in the text up to its last blank. -/
theorem not_operator_prefix {k : Connective} {c : Char} {cs rest : List Char}
    (hin : ¬k.operator.toList <:+: c :: cs) (hend : ¬k.operator.toList.dropLast <:+ c :: cs)
    (hrest : Stops rest) : ¬k.operator.toList <+: c :: cs ++ rest := by
  obtain ⟨x, hx, hop⟩ : ∃ x, ¬(x = ' ' ∨ x = ')') ∧ k.operator.toList = [' ', x, x, ' '] := by
    cases k
    · exact ⟨'&', by decide, rfl⟩
    · exact ⟨'|', by decide, rfl⟩
  rw [hop] at hin hend ⊢
  rintro ⟨r, hr⟩
  match cs with
  | [] =>
    obtain ⟨-, rfl⟩ := List.cons.inj hr
    exact hx (hrest x rfl)
  | [_] =>
    obtain ⟨-, hr⟩ := List.cons.inj hr
    obtain ⟨-, rfl⟩ := List.cons.inj hr
    exact hx (hrest x rfl)
  | [a, b] =>
    simp only [List.cons_append, List.nil_append, List.cons.injEq] at hr
    obtain ⟨rfl, rfl, rfl, -⟩ := hr
    exact hend List.suffix_rfl
  | a :: b :: d :: cs =>
    simp only [List.cons_append, List.nil_append, List.cons.injEq] at hr
    obtain ⟨rfl, rfl, rfl, rfl, -⟩ := hr
    exact hin (List.prefix_append [' ', x, x, ' '] cs).isInfix

theorem lex_append {t rest : List Char} (hin : ∀ k : Connective, ¬k.operator.toList <:+: t)
    (hend : ∀ k : Connective, ¬k.operator.toList.dropLast <:+ t) (hrest : Stops rest) :
    lex (t ++ rest) = t.map .char ++ lex rest := by
  induction t with
  | nil => rfl
  | cons c t ih =>
    have htail : lex (t ++ rest) = t.map .char ++ lex rest :=
      ih (fun k h => hin k (h.trans (List.suffix_cons c t).isInfix))
        fun k h => hend k (h.trans (List.suffix_cons c t))
    rw [List.cons_append, lex_cons, htail, List.map_cons, List.cons_append]
    exact fun k => not_operator_prefix (hin k) (hend k) hrest

theorem Legible.lex_eq {t : String} (h : Legible t) : lex t.toList = t.toList.map .char := by
  have hstops : Stops [] := by simp [Stops]
  simpa [lex] using lex_append h.no_operator h.no_operator_end hstops

theorem Legible.closed {t : String} (h : Legible t) : Closed t.toList := by
  intro rest hrest
  rw [h.lex_eq, lex_append h.no_operator h.no_operator_end hrest]

theorem stops_operator (k : Connective) (cs : List Char) : Stops (k.operator.toList ++ cs) := by
  cases k <;> simp [Stops, Connective.operator]

theorem lex_intercalate_append {k : Connective} {texts : List (List Char)}
    (h : ∀ t ∈ texts, Closed t) (hne : texts ≠ []) {rest : List Char} (hrest : Stops rest) :
    lex (k.operator.toList.intercalate texts ++ rest) =
      [.operator k].intercalate (texts.map lex) ++ lex rest := by
  induction texts with
  | nil => exact absurd rfl hne
  | cons t texts ih =>
    obtain ⟨ht, htexts⟩ := List.forall_mem_cons.1 h
    cases texts with
    | nil => simpa using ht rest hrest
    | cons u texts =>
      have hlater := ih htexts (by simp)
      rw [List.map_cons] at hlater
      rw [List.intercalate_cons_cons, List.map_cons, List.map_cons, List.intercalate_cons_cons,
        List.append_assoc, List.append_assoc, ht _ (stops_operator k _), lex_operator, hlater]
      simp

theorem lex_intercalate {k : Connective} {texts : List (List Char)} (h : ∀ t ∈ texts, Closed t)
    (hne : texts ≠ []) :
    lex (k.operator.toList.intercalate texts) = [.operator k].intercalate (texts.map lex) := by
  have hstops : Stops [] := by simp [Stops]
  simpa [lex] using lex_intercalate_append (k := k) h hne hstops

theorem closed_intercalate {k : Connective} {texts : List (List Char)} (h : ∀ t ∈ texts, Closed t)
    (hne : texts ≠ []) : Closed (k.operator.toList.intercalate texts) := by
  intro rest hrest
  rw [lex_intercalate_append h hne hrest, lex_intercalate h hne]

theorem depthAfter_intercalate {k : Connective} {texts : List (List Char)}
    (h : ∀ t ∈ texts, depthAfter 0 t = some 0) :
    depthAfter 0 (k.operator.toList.intercalate texts) = some 0 := by
  induction texts with
  | nil => rfl
  | cons t texts ih =>
    obtain ⟨ht, htexts⟩ := List.forall_mem_cons.1 h
    cases texts with
    | nil => simpa using ht
    | cons u texts =>
      rw [List.intercalate_cons_cons, depthAfter_append, depthAfter_append, ht, Option.bind_some,
        depthAfter_operator, Option.bind_some, ih htexts]

theorem lex_parens {t : List Char} (h : Closed t) (rest : List Char) :
    lex ('(' :: (t ++ ')' :: rest)) = .char '(' :: (lex t ++ .char ')' :: lex rest) := by
  have hclose : lex (')' :: rest) = .char ')' :: lex rest := by
    simp [lex]
  rw [lex, h _ (by simp [Stops]), hclose] <;> simp

variable {v : String → Bool}

/-- A text that is read with a truth value. -/
structure Phrase (v : String → Bool) (t : String) (b : Bool) : Prop where
  closed : Closed t.toList
  balanced : depthAfter 0 t.toList = some 0
  holds : (read t).holds v = b

/-- A text that is read so between operators too. -/
structure Operand (v : String → Bool) (t : String) (b : Bool) : Prop where
  closed : Closed t.toList
  balanced : depthAfter 0 t.toList = some 0
  whole : ∀ k, Whole k (lex t.toList)
  holds : (readPart (lex t.toList)).holds v = b

theorem readTokens_holds (ts : List Token) :
    (readTokens ts).holds v = Connective.any.combine ((split .any 0 ts).map fun disjunct =>
      Connective.all.combine ((split .all 0 disjunct).map fun part => (readPart part).holds v)) := by
  simp only [readTokens_eq, Condition.holds_join, List.map_map, Function.comp_def]

theorem Operand.phrase {t : String} {b : Bool} (h : Operand v t b) : Phrase v t b where
  closed := h.closed
  balanced := h.balanced
  holds := by
    rw [read, readTokens_holds, (h.whole .any).split_eq, List.map_singleton,
      (h.whole .all).split_eq, List.map_singleton, h.holds]
    simp

theorem Legible.operand {t : String} (h : Legible t) : Operand v t (v t) where
  closed := h.closed
  balanced := h.balanced
  whole k := .of_not_mem (by rw [chars_lex, h.balanced]) (by simp [h.lex_eq])
  holds := by
    have hplain : hasOperator (lex t.toList) = false := by simp [h.lex_eq, hasOperator]
    rw [readPart_of_not_hasOperator hplain, chars_lex, String.ofList_toList, Condition.holds]

theorem Phrase.parens {t : String} {b : Bool} (h : Phrase v t b)
    (hop : hasOperator (lex t.toList) = true) : Operand v ("(" ++ t ++ ")") b := by
  have hchars : ("(" ++ t ++ ")").toList = '(' :: (t.toList ++ [')']) := by simp
  have hlex : lex ("(" ++ t ++ ")").toList = .char '(' :: (lex t.toList ++ [.char ')']) := by
    rw [hchars, lex_parens h.closed]
    rfl
  have henclosed : enclosed? (lex ("(" ++ t ++ ")").toList) = some (lex t.toList) := by
    have hop' : hasOperator (lex t.toList ++ [.char ')']) = true := by
      simp only [hasOperator, List.any_append] at hop ⊢
      rw [hop, Bool.true_or]
    rw [hlex]
    simp [enclosed?, hop']
  refine ⟨fun rest _ => ?_, ?_, fun k => ?_, ?_⟩
  · rw [hlex, hchars]
    simpa using lex_parens h.closed rest
  · rw [hchars, depthAfter, if_pos rfl, depthAfter_append, depthAfter_succ h.balanced]
    rfl
  · rw [hlex]
    exact .parens (by rw [chars_lex, h.balanced])
  · rw [readPart_of_enclosed henclosed]
    exact h.holds

section Joined

variable {k : Connective} {ds : List (Condition String)}

theorem lex_joined (h : ∀ d ∈ ds, Operand v (d.text true) (d.holds v)) (hne : ds ≠ []) :
    lex (k.operator.intercalate (ds.map (·.text true))).toList =
      [.operator k].intercalate (ds.map fun d => lex (d.text true).toList) := by
  rw [String.toList_intercalate, List.map_map, lex_intercalate _ (by simpa using hne), List.map_map]
  · rfl
  · simpa using fun d hd => (h d hd).closed

theorem hasOperator_joined (h : ∀ d ∈ ds, Operand v (d.text true) (d.holds v))
    (hlen : 2 ≤ ds.length) :
    hasOperator (lex (k.operator.intercalate (ds.map (·.text true))).toList) = true := by
  match ds with
  | d :: e :: ds =>
    rw [lex_joined h (by simp)]
    simp [hasOperator]

theorem phrase_joined (h : ∀ d ∈ ds, Operand v (d.text true) (d.holds v)) (hne : ds ≠ []) :
    Phrase v (k.operator.intercalate (ds.map (·.text true))) (k.combine (ds.map (·.holds v))) := by
  have hlex := lex_joined (k := k) h hne
  have hwhole : ∀ j, ∀ ts ∈ ds.map fun d => lex (d.text true).toList, Whole j ts := by
    intro j ts hts
    obtain ⟨d, hd, rfl⟩ := List.mem_map.1 hts
    exact (h d hd).whole j
  have hparts : ds.map (fun d => lex (d.text true).toList) ≠ [] := by simpa using hne
  refine ⟨?_, ?_, ?_⟩
  · rw [String.toList_intercalate]
    refine closed_intercalate ?_ (by simpa using hne)
    simpa using fun d hd => (h d hd).closed
  · rw [String.toList_intercalate]
    refine depthAfter_intercalate ?_
    simpa using fun d hd => (h d hd).balanced
  · have hholds : ∀ d ∈ ds, (readPart (lex (d.text true).toList)).holds v = d.holds v :=
      fun d hd => (h d hd).holds
    rw [read, hlex, readTokens_holds]
    cases k with
    | all =>
      -- the whole is one disjunct
      rw [(whole_intercalate (by decide) (hwhole .any) hparts).split_eq, List.map_singleton,
        split_intercalate (hwhole .all) hparts, Connective.combine_singleton, List.map_map]
      exact congrArg _ (List.map_congr_left hholds)
    | any =>
      rw [split_intercalate (hwhole .any) hparts, List.map_map]
      refine congrArg _ (List.map_congr_left fun d hd => ?_)
      rw [Function.comp_apply, ((h d hd).whole .all).split_eq, List.map_singleton,
        Connective.combine_singleton, hholds d hd]

/-- Clauses left out for their text have the truth value of one that is kept. -/
theorem combine_dedup {cs : List (Condition String)}
    (h : ∀ c ∈ cs, (read c.render).holds v = c.holds v) :
    k.combine ((Condition.dedup cs).map (·.holds v)) = k.combine (cs.map (·.holds v)) := by
  refine Connective.combine_congr ?_
  simp only [List.forall_mem_map]
  constructor
  · intro hkept c hc
    obtain ⟨d, hd, hrender⟩ : ∃ d ∈ Condition.dedup cs, d.render = c.render :=
      exists_mem_firstsFrom hc List.not_mem_nil
    rw [← h c hc, ← hrender, h d (Condition.mem_of_mem_dedup hd)]
    exact hkept d hd
  · exact fun hall d hd => hall d (Condition.mem_of_mem_dedup hd)

end Joined

theorem legible_unit (k : Connective) : Legible k.unit := by
  refine ⟨?_, fun j => ?_, fun j => ?_⟩
  · cases k <;> rfl
  · cases k <;> cases j <;> decide
  · cases k <;> cases j <;> decide

theorem operand_unit (htrue : v "true" = true) (hfalse : v "false" = false) (k : Connective) :
    Operand v k.unit k.neutral := by
  have hv : v k.unit = k.neutral := by
    cases k
    · exact htrue
    · exact hfalse
  exact hv ▸ (legible_unit k).operand

/-- Clauses that are read each are read as joined, on their own and inside another condition. -/
theorem phrase_joinTexts (htrue : v "true" = true) (hfalse : v "false" = false) (k : Connective)
    {ds : List (Condition String)}
    (h : ∀ d ∈ ds, Phrase v d.render (d.holds v) ∧ Operand v (d.text true) (d.holds v)) :
    Phrase v (Condition.joinTexts false k ds) (k.combine (ds.map (·.holds v))) ∧
      Operand v (Condition.joinTexts true k ds) (k.combine (ds.map (·.holds v))) := by
  match ds with
  | [] =>
    rw [List.map_nil, Connective.combine_nil]
    exact ⟨(operand_unit htrue hfalse k).phrase, operand_unit htrue hfalse k⟩
  | [d] =>
    rw [List.map_singleton, Connective.combine_singleton]
    exact h d List.mem_cons_self
  | d :: e :: ds =>
    have hoperands : ∀ f ∈ d :: e :: ds, Operand v (f.text true) (f.holds v) :=
      fun f hf => (h f hf).2
    have hphrase := phrase_joined (k := k) hoperands (by simp)
    exact ⟨hphrase, hphrase.parens (hasOperator_joined hoperands (by simp))⟩

/-- The text of a condition is read with its truth value, on its own and inside another one. -/
theorem phrase_text (htrue : v "true" = true) (hfalse : v "false" = false) (c : Condition String)
    (hc : ∀ t ∈ c.tests, Legible t) :
    Phrase v c.render (c.holds v) ∧ Operand v (c.text true) (c.holds v) := by
  induction c using Condition.flatten_induction with
  | test a =>
    have ha : Operand v a (v a) := (hc a List.mem_cons_self).operand
    exact ⟨ha.phrase, ha⟩
  | join k cs ih =>
    have hclauses : ∀ d ∈ Condition.flattenClauses k cs,
        Phrase v d.render (d.holds v) ∧ Operand v (d.text true) (d.holds v) := by
      refine fun d hd => ih d hd fun t ht => hc t ?_
      rw [Condition.tests, ← Condition.testsOf_flattenClauses k cs]
      exact Condition.mem_testsOf_iff.2 ⟨d, hd, ht⟩
    have hvalue : (Condition.join k cs).holds v =
        k.combine ((Condition.dedup (Condition.flattenClauses k cs)).map (·.holds v)) := by
      rw [Condition.holds_join, ← Condition.combine_flattenClauses]
      exact (combine_dedup fun d hd => (hclauses d hd).1.holds).symm
    have hrender : (Condition.join k cs).render =
        Condition.joinTexts false k (Condition.dedup (Condition.flattenClauses k cs)) :=
      Condition.text_join false k cs
    have hinside : (Condition.join k cs).text true =
        Condition.joinTexts true k (Condition.dedup (Condition.flattenClauses k cs)) :=
      Condition.text_join true k cs
    rw [hvalue, hrender, hinside]
    exact phrase_joinTexts htrue hfalse k fun d hd => hclauses d (Condition.mem_of_mem_dedup hd)

/-- The text of a condition, read with the precedence of its operators, has the truth value of the
condition. -/
theorem read_render_holds (c : Condition String) (hc : ∀ t ∈ c.tests, Legible t) (v : String → Bool)
    (htrue : v "true" = true) (hfalse : v "false" = false) :
    (read c.render).holds v = c.holds v :=
  (phrase_text htrue hfalse c hc).1.holds

/-- Clauses in each other, some of them repeated, alone or of the kind of their parent. -/
def layered : Condition String :=
  .join .any
    [.join .all [.test "p(x)", .join .any [.test "q", .test "r", .test "q"], .join .all [.test "s"]],
     .join .any [.test "r", .join .all [.test "q", .join .all [], .test "p(x)"]]]

theorem layered_read :
    layered.render = "(p(x) && (q || r) && s) || r || (q && p(x))" ∧
      (∀ t ∈ layered.tests, Legible t) ∧
      (read layered.render).holds (fun t => t = "true" || t = "p(x)" || t = "q") = true := by
  have hlegible : ∀ t ∈ layered.tests, Legible t := by
    have hall : layered.tests = ["p(x)", "q", "r", "q", "s", "r", "q", "p(x)"] := rfl
    simp only [hall, List.forall_mem_cons]
    refine ⟨?_, ?_, ?_, ?_, ?_, ?_, ?_, ?_, by simp⟩ <;>
      exact ⟨by decide, fun k => by cases k <;> decide, fun k => by cases k <;> decide⟩
  refine ⟨by decide, hlegible, ?_⟩
  rw [read_render_holds layered hlegible _ (by decide) (by decide)]
  decide

/-- If texts may end in an operator up to its last blank, two conditions of different truth values have one
text, and no reading tells them apart. -/
theorem no_reading :
    ¬∃ meaning : String → (String → Bool) → Bool, ∀ c : Condition String,
      (∀ t ∈ c.tests, depthAfter 0 t.toList = some 0 ∧
        ∀ k : Connective, ¬k.operator.toList <:+: t.toList) →
      ∀ v : String → Bool, v "true" = true → v "false" = false → meaning c.render v = c.holds v := by
  rintro ⟨meaning, hread⟩
  let v : String → Bool := fun t => t != "false" && t != "x &&"
  have hplain : ∀ t ∈ ["x &&", "y", "x", "&& y"], depthAfter 0 t.toList = some 0 ∧
      ∀ k : Connective, ¬k.operator.toList <:+: t.toList := by
    simp only [List.forall_mem_cons]
    refine ⟨?_, ?_, ?_, ?_, by simp⟩ <;> exact ⟨by decide, fun k => by cases k <;> decide⟩
  have hends : meaning "x && && y" v = false :=
    hread (.join .all [.test "x &&", .test "y"]) (fun t ht => hplain t (List.mem_append_left _ ht))
      v rfl rfl
  have hbegins : meaning "x && && y" v = true :=
    hread (.join .all [.test "x", .test "&& y"])
      (fun t ht => hplain t (List.mem_append_right ["x &&", "y"] ht)) v rfl rfl
  simp [hends] at hbegins

end Precedence

end DtoGen
