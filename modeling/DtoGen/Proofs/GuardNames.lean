import DtoGen.Proofs.Clashes

namespace DtoGen

namespace Naming

/-- Whether a word joins the one before it where both are spelled with capitals: that one is a single letter,
and this one does not start with two letters. -/
def joinsInitial (w v : List Char) : Bool :=
  w.length == 1 && w.all Char.isAlpha && !(v.tail.head?.any Char.isAlpha)

def joinInitials : List (List Char) → List (List Char)
  | w :: v :: ws =>
    if joinsInitial w v then (joinInitials (v :: ws)).modifyHead (w ++ ·)
    else w :: joinInitials (v :: ws)
  | ws => ws

/-- What becomes of letters and digits behind `x` where they are cut into words and spelled with capitals. -/
def respell (x : Char) : List Char → List Char
  | [] => []
  | y :: rest => (if wordEnds x y rest then y else y.toLower) :: respell y rest

theorem pascalChars_cons_cons {x y : Char} {rest : List Char} (hx : isAlnum x = true)
    (hy : isAlnum y = true) :
    pascalChars (x :: y :: rest) = x.toUpper ::
      (if wordEnds x y rest then pascalChars (y :: rest) else camelChars (y :: rest)) := by
  have hne : wordList (y :: rest) ≠ [] := wordList_ne_nil ⟨y, List.mem_cons_self, hy⟩
  obtain ⟨w, ws, hw⟩ := List.exists_cons_of_ne_nil hne
  have hxy : (!isAlnum x) = false := by simp [hx]
  simp only [pascalChars, camelChars, hw]
  rw [wordList, hxy, hw]
  simp only [hy]
  split_ifs with hends <;> simp_all [Text.consHead, capitalize, lowercase]

theorem isUpper_of_wordEnds {x y : Char} {rest : List Char} (h : wordEnds x y rest = true) :
    y.isUpper = true := by
  rw [wordEnds, Bool.and_eq_true] at h
  exact h.1

theorem toUpper_of_isUpper {c : Char} (h : c.isUpper = true) : c.toUpper = c :=
  Char.toUpper_eq_of_not_isLower (by simp [isLower_eq_false_of_isUpper h])

theorem pascalChars_eq_respell {x : Char} {s : List Char} (h : ∀ c ∈ x :: s, isAlnum c = true) :
    pascalChars (x :: s) = x.toUpper :: respell x s := by
  induction s generalizing x with
  | nil =>
    have hx := h x List.mem_cons_self
    simp [pascalChars, wordList, hx, capitalize, lowercase, respell]
  | cons y rest ih =>
    obtain ⟨hx, hrest⟩ := List.forall_mem_cons.1 h
    rw [pascalChars_cons_cons hx (hrest y List.mem_cons_self), camelChars_eq, ih hrest, respell]
    split_ifs with hends
    · rw [toUpper_of_isUpper (isUpper_of_wordEnds hends)]
    · rw [mapHead, Char.toLower_toUpper_eq_toLower]

theorem respell_append {t : List Char} (ht : ∀ c ∈ t, c.isUpper = false) (x : Char) (s : List Char) :
    respell x (t ++ s) = t ++ respell (t.getLastD x) s := by
  induction t generalizing x with
  | nil => rfl
  | cons y t ih =>
    obtain ⟨hy, hrest⟩ := List.forall_mem_cons.1 ht
    have hends : wordEnds x y (t ++ s) = false := by simp [wordEnds, hy]
    rw [List.cons_append, respell, hends, ih hrest, List.getLastD_cons, toLower_eq_self hy]
    rfl

/-- Words that may stand behind another one. -/
structure Inner (w : List Char) : Prop extends IsWord w, Lettered w

theorem isLower_of_letter {c : Char} (halnum : isAlnum c = true) (hdigit : c.isDigit = false)
    (hupper : c.isUpper = false) : c.isLower = true := by
  simpa [isAlnum, Char.isAlphanum, Char.isAlpha, hdigit, hupper] using halnum

theorem head_flatMap_capitalize {ws : List (List Char)} (h : ∀ w ∈ ws, Inner w) :
    ((ws.flatMap capitalize).head?.any Char.isLower) = false := by
  cases hc : (ws.flatMap capitalize).head? with
  | none => rfl
  | some c =>
    have hupper := isUpper_head_flatMap (fun w hw => (h w hw).toLettered) c hc
    simpa using isLower_eq_false_of_isUpper hupper

theorem secondLetter_iff {ds : List Char} {ws : List (List Char)} (hds : ∀ c ∈ ds, c.isUpper = false)
    (hws : ∀ u ∈ ws, Inner u) :
    (ds ++ ws.flatMap capitalize).head?.any Char.isLower = ds.head?.any Char.isAlpha := by
  cases ds with
  | nil => simpa using head_flatMap_capitalize hws
  | cons e es =>
    have he := hds e List.mem_cons_self
    simp [Char.isAlpha, he]

/-- The capital of a word starts a word again unless this one joins the one before. -/
theorem wordEnds_capital {c d : Char} {cs ds : List Char} {ws : List (List Char)}
    (hw : IsWord (c :: cs)) (hv : Inner (d :: ds)) (hws : ∀ u ∈ ws, Inner u) :
    wordEnds (cs.getLastD c.toUpper) d.toUpper (ds ++ ws.flatMap capitalize) =
      !joinsInitial (c :: cs) (d :: ds) := by
  have hd : d.isLower = true := by simpa using hv.letter
  have hcapital : d.toUpper.isUpper = true := by simp [Char.isAlpha, hd]
  have hsecond := secondLetter_iff (List.forall_mem_cons.1 hv.toLettered.small).2 hws
  have hhead : ∀ s : List Char, (s.head?.map Char.isLower).getD false = s.head?.any Char.isLower := by
    intro s
    cases s <;> rfl
  rw [wordEnds, hcapital, hhead, hsecond, Bool.true_and]
  -- only a word of one character may end in a capital, the one that it starts with
  rcases List.eq_nil_or_concat' cs with rfl | ⟨cs, e, rfl⟩
  · have halnum := hw.alnum c List.mem_cons_self
    have hupper := hw.small c List.mem_cons_self
    by_cases hdigit : c.isDigit = true
    · obtain ⟨hlower, -⟩ := caseless_of_isDigit hdigit
      simp [joinsInitial, Char.isAlpha, Char.toUpper_eq_of_not_isLower hlower, hdigit, hlower, hupper]
    · have hlower := isLower_of_letter halnum (by simpa using hdigit) hupper
      have hbig : c.toUpper.isUpper = true := by simp [Char.isAlpha, hlower]
      have hnumber : c.toUpper.isDigit = false := by
        by_contra hd
        exact (caseless_of_isDigit (by simpa using hd)).2 hbig
      simp [joinsInitial, Char.isAlpha, hbig, isLower_eq_false_of_isUpper hbig, hnumber, hlower]
  · have hlast : e ∈ c :: (cs ++ [e]) := by simp
    have hend : (e.isLower || e.isDigit) = true := by
      by_cases hdigit : e.isDigit = true
      · simp [hdigit]
      · simp [isLower_of_letter (hw.alnum e hlast) (by simpa using hdigit) (hw.small e hlast)]
    rw [List.getLastD_concat, hend]
    simp [joinsInitial]

theorem capitalize_append_lowercase {w : List Char} (hw : w ≠ []) (v : List Char) :
    capitalize (w ++ v) = capitalize w ++ lowercase v := by
  obtain ⟨c, cs, rfl⟩ := List.exists_cons_of_ne_nil hw
  simp [capitalize, lowercase]

theorem exists_joinInitials_cons (v : List Char) (ws : List (List Char)) :
    ∃ g gs, joinInitials (v :: ws) = (v ++ g) :: gs := by
  induction ws generalizing v with
  | nil => exact ⟨[], [], by simp [joinInitials]⟩
  | cons u ws ih =>
    obtain ⟨g, gs, hg⟩ := ih u
    rw [joinInitials, hg]
    split_ifs
    · exact ⟨u ++ g, gs, rfl⟩
    · exact ⟨[], (u ++ g) :: gs, by rw [List.append_nil]⟩

/-- Behind each word, the words that follow are spelled again as they are joined. -/
theorem capitalize_append_respell {c : Char} {cs : List Char} {ws : List (List Char)}
    (hw : IsWord (c :: cs)) (hws : ∀ u ∈ ws, Inner u) :
    capitalize (c :: cs) ++ respell (cs.getLastD c.toUpper) (ws.flatMap capitalize) =
      (joinInitials ((c :: cs) :: ws)).flatMap capitalize := by
  -- by induction on the words behind: what the last one leaves to the next is its last character
  induction ws generalizing c cs with
  | nil => simp [joinInitials, respell]
  | cons v ws ih =>
    obtain ⟨hv, hinner⟩ := List.forall_mem_cons.1 hws
    obtain ⟨d, ds, rfl⟩ := List.exists_cons_of_ne_nil hv.nonempty
    have hds := (List.forall_mem_cons.1 hv.toLettered.small).2
    have hrest := ih hv.toIsWord hinner
    have hspell : (((d :: ds) :: ws).flatMap capitalize) =
        d.toUpper :: (ds ++ ws.flatMap capitalize) := by
      simp [capitalize, lowercase_eq_self hds]
    rw [hspell, respell, wordEnds_capital hw hv hinner, respell_append hds, joinInitials]
    cases hjoin : joinsInitial (c :: cs) (d :: ds) with
    | false =>
      rw [Bool.not_false, if_pos rfl, if_neg Bool.false_ne_true, List.flatMap_cons, ← hrest]
      simp [capitalize, lowercase_eq_self hds]
    | true =>
      -- the word behind gives up its capital and goes on as part of this one
      obtain ⟨g, gs, hg⟩ := exists_joinInitials_cons (d :: ds) ws
      rw [hg, List.flatMap_cons, capitalize_append_lowercase (by simp), List.append_assoc,
        List.append_cancel_left_eq] at hrest
      have hd := toLower_eq_self (hv.toLettered.small d List.mem_cons_self)
      have hsmall := lowercase_eq_self hds
      simp only [lowercase] at hsmall
      rw [hrest, hg, Bool.not_true, if_neg Bool.false_ne_true, if_pos rfl, List.modifyHead_cons,
        List.flatMap_cons, capitalize_append_lowercase (by simp), Char.toLower_toUpper_eq_toLower]
      simp [lowercase, hd, hsmall]

theorem pascalChars_flatMap_capitalize {w : List Char} {ws : List (List Char)} (hw : IsWord w)
    (hws : ∀ u ∈ ws, Inner u) :
    pascalChars ((w :: ws).flatMap capitalize) = (joinInitials (w :: ws)).flatMap capitalize := by
  obtain ⟨c, cs, rfl⟩ := List.exists_cons_of_ne_nil hw.nonempty
  have hcs := (List.forall_mem_cons.1 hw.small).2
  have hspell : ((c :: cs) :: ws).flatMap capitalize = c.toUpper :: (cs ++ ws.flatMap capitalize) := by
    simp [capitalize, lowercase_eq_self hcs]
  have halnum : ∀ d ∈ ((c :: cs) :: ws).flatMap capitalize, isAlnum d = true := by
    intro d hd
    obtain ⟨v, hv, hd⟩ := List.mem_flatMap.1 hd
    rcases List.mem_cons.1 hv with rfl | hv
    · exact forall_isAlnum_capitalize hw.alnum d hd
    · exact forall_isAlnum_capitalize (hws v hv).alnum d hd
  rw [hspell] at halnum ⊢
  rw [pascalChars_eq_respell halnum, respell_append hcs, ← capitalize_append_respell hw hws]
  simp [capitalize, lowercase_eq_self hcs]

/-- Nothing is joined just if no word joins the one before it. -/
theorem joinInitials_eq_self_iff (ws : List (List Char)) :
    joinInitials ws = ws ↔ ws.IsChain fun w v => joinsInitial w v = false := by
  have hlength : ∀ us, (joinInitials us).length ≤ us.length := by
    intro us
    fun_induction joinInitials us with
    | case1 w v us hjoin ih => simp at ih ⊢; omega
    | case2 w v us hjoin ih => simpa using ih
    | case3 us => exact le_rfl
  fun_induction joinInitials ws with
  | case1 w v ws hjoin ih =>
    refine iff_of_false (fun h => ?_) (fun h => ?_)
    · have hshort := hlength (v :: ws)
      have := congrArg List.length h
      simp only [List.length_modifyHead, List.length_cons] at this hshort
      omega
    · simp [hjoin] at h
  | case2 w v ws hjoin ih => simp [hjoin, ih]
  | case3 ws hws =>
    refine iff_of_true rfl ?_
    rcases ws with _ | ⟨w, _ | ⟨v, ws⟩⟩
    · exact .nil
    · exact .singleton w
    · exact absurd rfl (hws w v ws)

theorem forall_mem_joinInitials {p : List Char → Prop} (happend : ∀ w v, p w → p v → p (w ++ v))
    {ws : List (List Char)} (h : ∀ w ∈ ws, p w) : ∀ w ∈ joinInitials ws, p w := by
  fun_induction joinInitials ws with
  | case1 w v ws hjoin ih =>
    obtain ⟨hw, hrest⟩ := List.forall_mem_cons.1 h
    obtain ⟨g, gs, hg⟩ := exists_joinInitials_cons v ws
    have hjoined := ih hrest
    rw [hg, List.forall_mem_cons] at hjoined
    rw [hg, List.modifyHead_cons, List.forall_mem_cons]
    exact ⟨happend _ _ hw hjoined.1, hjoined.2⟩
  | case2 w v ws hjoin ih =>
    obtain ⟨hw, hrest⟩ := List.forall_mem_cons.1 h
    exact List.forall_mem_cons.2 ⟨hw, ih hrest⟩
  | case3 ws => exact h

theorem Inner.append {w v : List Char} (hw : Inner w) (hv : Inner v) : Inner (w ++ v) := by
  obtain ⟨c, cs, rfl⟩ := List.exists_cons_of_ne_nil hw.nonempty
  exact ⟨⟨by simp, List.forall_mem_append.2 ⟨hw.alnum, hv.alnum⟩,
    List.forall_mem_append.2 ⟨hw.toIsWord.small, hv.toIsWord.small⟩⟩, by simpa using hw.letter⟩

theorem IsWord.append {w v : List Char} (hw : IsWord w) (hv : IsWord v) : IsWord (w ++ v) :=
  ⟨by simp [hw.nonempty], List.forall_mem_append.2 ⟨hw.alnum, hv.alnum⟩,
    List.forall_mem_append.2 ⟨hw.small, hv.small⟩⟩

/-- What is left are words again, and no further ones come to stand behind another. -/
theorem apart_joinInitials {w : List Char} {ws : List (List Char)} (hw : IsWord w)
    (hws : ∀ u ∈ ws, Inner u) : Apart (joinInitials (w :: ws)) := by
  have hwords : ∀ u ∈ joinInitials (w :: ws), IsWord u :=
    forall_mem_joinInitials (fun _ _ => IsWord.append)
      (List.forall_mem_cons.2 ⟨hw, fun u hu => (hws u hu).toIsWord⟩)
  have htail : ∀ u ∈ (joinInitials (w :: ws)).tail, Inner u := by
    cases ws with
    | nil => simp [joinInitials]
    | cons v ws =>
      have hinner := forall_mem_joinInitials (fun _ _ => Inner.append) hws
      obtain ⟨g, gs, hg⟩ := exists_joinInitials_cons v ws
      rw [hg] at hinner
      rw [joinInitials, hg]
      split_ifs
      · exact fun u hu => hinner u (List.mem_cons_of_mem _ hu)
      · exact hinner
  obtain ⟨g, gs, hg⟩ := exists_joinInitials_cons w ws
  refine ⟨by simp [hg], fun u hu => (hwords u hu).small, fun u hu => (htail u hu).toLettered, ?_⟩
  intro hempty
  exact absurd rfl (hwords [] (List.mem_of_mem_head? hempty)).nonempty

/-- The words of a name with letters or digits, as they stand in its spellings. -/
theorem exists_spoken {name : String} (h : ∃ c ∈ name.toList, isAlnum c = true) :
    ∃ w ws, spoken name = w :: ws ∧ IsWord w ∧ ∀ u ∈ ws, Inner u := by
  obtain ⟨v, vs, hwords⟩ := List.exists_cons_of_ne_nil (wordList_ne_nil h)
  have hspoken : spoken name = joinDigits ((v :: vs).map lowercase) := by simp [spoken, hwords]
  have hwords : ∀ u ∈ spoken name, IsWord u := by
    rw [hspoken]
    refine isWord_joinDigits fun u hu => ?_
    obtain ⟨x, hx, rfl⟩ := List.mem_map.1 hu
    exact isWord_lowercase (hwords ▸ hx)
  have hapart := apart_spoken name
  obtain ⟨w, ws, hw⟩ := List.exists_cons_of_ne_nil hapart.nonempty
  rw [hw] at hwords hapart
  obtain ⟨hfirst, hrest⟩ := List.forall_mem_cons.1 hwords
  exact ⟨w, ws, hw, hfirst, fun u hu => ⟨hrest u hu, (hapart.lettered u hu).letter⟩⟩

theorem pascal_pascal {name : String} (h : ∃ c ∈ name.toList, isAlnum c = true) :
    pascal (pascal name) = String.ofList ((joinInitials (spoken name)).flatMap capitalize) := by
  obtain ⟨w, ws, hspoken, hw, hws⟩ := exists_spoken h
  rw [pascal, pascal, String.toList_ofList, pascalChars_eq name, hspoken,
    pascalChars_flatMap_capitalize hw hws]

theorem camel_is {p : String} (h : ∃ c ∈ p.toList, isAlnum c = true) :
    camel ("is_" ++ p) = "is" ++ pascal p := by
  have his : camel "is" = "is" := by decide
  have hjoined := camel_joined (a := "is") (by decide) (wordList_ne_nil h)
  rwa [his] at hjoined

theorem exists_isAlnum_pascal {name : String} (h : ∃ c ∈ name.toList, isAlnum c = true) :
    ∃ c ∈ (pascal name).toList, isAlnum c = true := by
  obtain ⟨w, ws, hspoken, hw, -⟩ := exists_spoken h
  obtain ⟨c, cs, rfl⟩ := List.exists_cons_of_ne_nil hw.nonempty
  refine ⟨c.toUpper, ?_, ?_⟩
  · rw [pascal, String.toList_ofList, pascalChars_eq, hspoken]
    simp [capitalize]
  · exact forall_isAlnum_capitalize hw.alnum _ List.mem_cons_self

theorem typeGuardName_eq {name : String} (h : ∃ c ∈ name.toList, isAlnum c = true) :
    typeGuardName name = "is" ++ typeName (typeName name) :=
  camel_is (exists_isAlnum_pascal h)

/-- The guard of a type holds the spelling of the type spelled once more. This is the spelling itself just if
none of the words joins the one before it, and two guards are alike just if the joined words of the two names
are, while for two types all words have to be alike. -/
theorem guards_named_iff (a b : String) (ha : ∃ c ∈ a.toList, isAlnum c = true)
    (hb : ∃ c ∈ b.toList, isAlnum c = true) :
    typeGuardName a = "is" ++ typeName (typeName a) ∧
    (typeGuardName a = "is" ++ typeName a ↔
      (spoken a).IsChain fun w v => joinsInitial w v = false) ∧
    (typeGuardName a = typeGuardName b ↔ joinInitials (spoken a) = joinInitials (spoken b)) ∧
    (typeName a = typeName b ↔ spoken a = spoken b) := by
  have hjoined : ∀ {n}, (∃ c ∈ n.toList, isAlnum c = true) → Apart (joinInitials (spoken n)) := by
    intro n hn
    obtain ⟨w, ws, hspoken, hw, hws⟩ := exists_spoken hn
    rw [hspoken]
    exact apart_joinInitials hw hws
  have hprefix : ∀ x y : String, "is" ++ x = "is" ++ y ↔ x = y := by
    intro x y
    simp [← String.toList_inj]
  refine ⟨typeGuardName_eq ha, ?_, ?_, pascal_eq_iff⟩
  · rw [typeGuardName_eq ha, hprefix, ← joinInitials_eq_self_iff]
    unfold typeName
    rw [pascal_pascal ha, pascal, String.ofList_inj, pascalChars_eq]
    exact ⟨(hjoined ha).flatMap_capitalize_inj (apart_spoken a), fun h => by rw [h]⟩
  · rw [typeGuardName_eq ha, typeGuardName_eq hb, hprefix]
    unfold typeName
    rw [pascal_pascal ha, pascal_pascal hb, String.ofList_inj]
    exact ⟨(hjoined ha).flatMap_capitalize_inj (hjoined hb), fun h => by rw [h]⟩

theorem guards_named_rays : typeGuardName "x_ray_b2" = "is" ++ typeName "x_ray_b2" ∧
    typeGuardName "x_ray_b2" ≠ typeGuardName "plan_b" := by
  obtain ⟨-, hown, hother, -⟩ := guards_named_iff "x_ray_b2" "plan_b" ⟨'x', by decide, by decide⟩
    ⟨'b', by decide, by decide⟩
  exact ⟨hown.2 (by decide), mt hother.1 (by decide)⟩

/-- Of two single letters one word is made, so the guard is named for another type. -/
theorem single_letters_joined : typeGuardName "a_b" = "isAb" ∧ "is" ++ typeName "a_b" = "isAB" ∧
    typeName "a_b" ≠ typeName "ab" ∧ typeGuardName "a_b" = typeGuardName "ab" := by
  decide

end Naming

end DtoGen
