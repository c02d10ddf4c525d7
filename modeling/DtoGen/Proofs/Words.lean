import DtoGen.Proofs.Reading

namespace DtoGen

namespace Naming

/-- Puts a word in front, or joins it to the next one if that starts with a digit. -/
def putWord (w : List Char) : List (List Char) → List (List Char)
  | [] => [w]
  | v :: vs => if v.head?.any Char.isDigit then (w ++ v) :: vs else w :: v :: vs

/-- Joins each word that starts with a digit to the word before it. -/
def joinDigits (ws : List (List Char)) : List (List Char) := ws.foldr putWord []

/-- What the spellings of a name keep of it: its words in small letters, none of which starts with a
digit but the first, or the whole name if it has no words. -/
def spoken (name : String) : List (List Char) :=
  match wordList name.toList with
  | [] => [name.toList]
  | ws => joinDigits (ws.map lowercase)

structure IsWord (w : List Char) : Prop where
  nonempty : w ≠ []
  alnum : ∀ c ∈ w, isAlnum c = true
  small : ∀ c ∈ w, c.isUpper = false

theorem wordList_ne_nil {name : List Char} (h : ∃ c ∈ name, isAlnum c = true) :
    wordList name ≠ [] := by
  fun_induction wordList name with
  | case1 => simp at h
  | case2 x hx => simp
  | case3 x hx => exact absurd h (by simpa using hx)
  | case4 x y rest hx ih =>
    obtain ⟨c, hc, hword⟩ := h
    refine ih ⟨c, ?_, hword⟩
    rcases List.mem_cons.1 hc with rfl | hc
    · simp [hword] at hx
    · exact hc
  | case5 => simp
  | case6 x y rest hx he ih => cases wordList (y :: rest) <;> simp [Text.consHead]

theorem ne_nil_of_mem_wordList (name : List Char) : ∀ w ∈ wordList name, w ≠ [] := by
  fun_induction wordList name with
  | case1 | case3 => simp
  | case2 x hx => simp
  | case4 x y rest hx ih => exact ih
  | case5 x y rest hx he ih => simpa using ih
  | case6 x y rest hx he ih =>
    cases hw : wordList (y :: rest) with
    | nil => simp [Text.consHead]
    | cons w ws =>
      rw [hw] at ih
      simpa [Text.consHead] using (List.forall_mem_cons.1 ih).2

/-- A separator is neither a small letter nor a capital. -/
theorem isLower_eq_false {c : Char} (h : isAlnum c = false) : c.isLower = false := by
  by_contra hlower
  have hlower : c.isLower = true := by simpa using hlower
  simp [isAlnum, Char.isAlphanum, Char.isAlpha, hlower] at h

theorem isUpper_eq_false {c : Char} (h : isAlnum c = false) : c.isUpper = false := by
  by_contra hupper
  have hupper : c.isUpper = true := by simpa using hupper
  simp [isAlnum, Char.isAlphanum, Char.isAlpha, hupper] at h

theorem wordList_cons_of_separator {c : Char} (hc : isAlnum c = false) (s : List Char) :
    wordList (c :: s) = wordList s := by
  cases s with
  | nil => simp [wordList, hc]
  | cons y rest => rw [wordList, if_pos (by simp [hc])]

theorem wordEnds_append_cons {c : Char} (hc : isAlnum c = false) (x y : Char) (a b : List Char) :
    wordEnds x y (a ++ c :: b) = wordEnds x y a := by
  cases a with
  | nil => simp [wordEnds, isLower_eq_false hc]
  | cons d a => rfl

/-- A separator cuts a name into two that are split on their own. -/
theorem wordList_append_cons {c : Char} (hc : isAlnum c = false) (a b : List Char) :
    wordList (a ++ c :: b) = wordList a ++ wordList b := by
  fun_induction wordList a with
  | case1 => exact wordList_cons_of_separator hc b
  | case2 x hx => simp [wordList, hx, hc, wordList_cons_of_separator hc]
  | case3 x hx =>
    have hx : isAlnum x = false := by simpa using hx
    rw [List.singleton_append, wordList_cons_of_separator hx, wordList_cons_of_separator hc,
      List.nil_append]
  | case4 x y rest hx ih => rwa [List.cons_append, wordList_cons_of_separator (by simpa using hx)]
  | case5 x y rest hx he ih =>
    rw [List.cons_append, List.cons_append, wordList, if_neg hx, wordEnds_append_cons hc, if_pos he,
      ← List.cons_append, ih, List.cons_append]
  | case6 x y rest hx he ih =>
    have hy : isAlnum y = true := by
      by_contra hy
      exact he (by simp [hy])
    have hne : wordList (y :: rest) ≠ [] := wordList_ne_nil ⟨y, List.mem_cons_self, hy⟩
    obtain ⟨w, ws, hw⟩ := List.exists_cons_of_ne_nil hne
    rw [List.cons_append, List.cons_append, wordList, if_neg hx, wordEnds_append_cons hc, if_neg he,
      ← List.cons_append, ih, hw]
    rfl

theorem wordList_append_of_separator {sep : List Char} (hne : sep ≠ [])
    (hsep : ∀ c ∈ sep, isAlnum c = false) (a b : List Char) :
    wordList (a ++ sep ++ b) = wordList a ++ wordList b := by
  induction sep generalizing a with
  | nil => exact absurd rfl hne
  | cons c sep ih =>
    obtain ⟨hc, hsep⟩ := List.forall_mem_cons.1 hsep
    by_cases hlast : sep = []
    · rw [hlast, List.append_assoc, List.singleton_append, wordList_append_cons hc]
    · have hcut := ih hlast hsep (a ++ [c])
      rw [wordList_append_cons hc, wordList, List.append_nil] at hcut
      rw [← hcut]
      simp

theorem flatten_wordList (name : List Char) : (wordList name).flatten = name.filter isAlnum := by
  fun_induction wordList name with
  | case1 => rfl
  | case2 x hx => simp [hx]
  | case3 x hx => simp [hx]
  | case4 x y rest hx ih =>
    have hskip : ¬ isAlnum x = true := by simpa using hx
    rw [ih, List.filter_cons_of_neg hskip]
  | case5 x y rest hx he ih =>
    rw [List.flatten_cons, ih, List.singleton_append, ← List.filter_cons_of_pos (by simpa using hx)]
  | case6 x y rest hx he ih =>
    rw [List.filter_cons_of_pos (by simpa using hx), ← ih]
    cases wordList (y :: rest) <;> rfl

theorem pascalChars_of_wordList {name : List Char} (h : wordList name ≠ []) :
    pascalChars name = (wordList name).flatMap capitalize := by
  obtain ⟨w, ws, hw⟩ := List.exists_cons_of_ne_nil h
  simp only [pascalChars, hw]

/-- Two names with words, joined by an underscore, are spelled one after the other. -/
theorem pascal_joined {a b : String} (ha : wordList a.toList ≠ []) (hb : wordList b.toList ≠ []) :
    pascal (a ++ "_" ++ b) = pascal a ++ pascal b := by
  have hlist : (a ++ "_" ++ b).toList = a.toList ++ '_' :: b.toList := by simp
  have hwords := wordList_append_cons (c := '_') rfl a.toList b.toList
  have hjoined : wordList (a.toList ++ '_' :: b.toList) ≠ [] := by
    rw [hwords]
    exact List.append_ne_nil_of_left_ne_nil ha _
  rw [pascal, pascal, pascal, hlist, pascalChars_of_wordList hjoined, pascalChars_of_wordList ha,
    pascalChars_of_wordList hb, hwords, List.flatMap_append, String.ofList_append]

theorem camel_joined {a b : String} (ha : wordList a.toList ≠ []) (hb : wordList b.toList ≠ []) :
    camel (a ++ "_" ++ b) = camel a ++ pascal b := by
  have hlist : (a ++ "_" ++ b).toList = a.toList ++ '_' :: b.toList := by simp
  have hwords := wordList_append_cons (c := '_') rfl a.toList b.toList
  obtain ⟨w, ws, hw⟩ := List.exists_cons_of_ne_nil ha
  rw [hw, List.cons_append] at hwords
  rw [camel, camel, pascal, hlist, camelChars, camelChars, pascalChars_of_wordList hb, hwords, hw]
  dsimp only
  rw [List.flatMap_append, ← List.append_assoc, String.ofList_append]

theorem isUpper_of_mem_lowercase (w : List Char) : ∀ c ∈ lowercase w, c.isUpper = false := by
  intro c hc
  obtain ⟨d, -, rfl⟩ := List.mem_map.1 hc
  exact Char.isUpper_toLower_eq_false d

theorem isWord_lowercase {name w : List Char} (h : w ∈ wordList name) : IsWord (lowercase w) where
  nonempty := by
    simpa [lowercase] using ne_nil_of_mem_wordList name w h
  alnum := forall_isAlnum_lowercase (forall_isAlnum_wordList name w h)
  small := isUpper_of_mem_lowercase w

theorem capitalize_lowercase (w : List Char) : capitalize (lowercase w) = capitalize w := by
  cases w with
  | nil => rfl
  | cons c cs => simp [lowercase, capitalize]

theorem toUpper_eq_self {c : Char} (h : isAlnum c = false) : c.toUpper = c :=
  Char.toUpper_eq_of_not_isLower (by simp [isLower_eq_false h])

theorem toLower_eq_self {c : Char} (h : c.isUpper = false) : c.toLower = c :=
  Char.toLower_eq_of_not_isUpper (by simp [h])

theorem lowercase_eq_self {w : List Char} (h : ∀ c ∈ w, c.isUpper = false) : lowercase w = w := by
  rw [lowercase, List.map_congr_left (fun c hc => toLower_eq_self (h c hc)), List.map_id']

theorem caseless_of_isDigit {c : Char} (h : c.isDigit = true) :
    ¬ c.isLower = true ∧ ¬ c.isUpper = true := by
  simp [Char.isDigit, Char.isLower, Char.isUpper, UInt32.le_iff_toNat_le] at h ⊢
  omega

theorem isLower_eq_false_of_isUpper {c : Char} (h : c.isUpper = true) : c.isLower = false := by
  by_contra hl
  simp [Char.isUpper, Char.isLower, UInt32.le_iff_toNat_le] at h hl
  omega

/-- A digit has no capital, so a word that starts with one looks like the end of the word before. -/
theorem capitalize_append {w v : List Char} (hw : w ≠ []) (hv : v.head?.any Char.isDigit = true) :
    capitalize (w ++ v) = capitalize w ++ capitalize v := by
  obtain ⟨c, cs, rfl⟩ := List.exists_cons_of_ne_nil hw
  cases v with
  | nil => simp [capitalize]
  | cons d ds =>
    obtain ⟨hlower, hupper⟩ := caseless_of_isDigit (c := d) (by simpa using hv)
    simp [capitalize, lowercase, Char.toUpper_eq_of_not_isLower hlower,
      Char.toLower_eq_of_not_isUpper hupper]

theorem isWord_putWord {w : List Char} {ws : List (List Char)} (hw : IsWord w)
    (hws : ∀ v ∈ ws, IsWord v) : ∀ v ∈ putWord w ws, IsWord v := by
  cases ws with
  | nil => simpa [putWord] using hw
  | cons v vs =>
    obtain ⟨hv, hvs⟩ := List.forall_mem_cons.1 hws
    rw [putWord]
    split_ifs
    · refine List.forall_mem_cons.2 ⟨⟨by simp [hw.nonempty], ?_, ?_⟩, hvs⟩
      · exact List.forall_mem_append.2 ⟨hw.alnum, hv.alnum⟩
      · exact List.forall_mem_append.2 ⟨hw.small, hv.small⟩
    · exact List.forall_mem_cons.2 ⟨hw, hws⟩

theorem isWord_joinDigits {ws : List (List Char)} (h : ∀ w ∈ ws, IsWord w) :
    ∀ w ∈ joinDigits ws, IsWord w := by
  induction ws with
  | nil => simp [joinDigits]
  | cons w ws ih =>
    obtain ⟨hw, hws⟩ := List.forall_mem_cons.1 h
    exact isWord_putWord hw (ih hws)

theorem head_of_mem_tail_putWord {w : List Char} {ws : List (List Char)}
    (h : ∀ v ∈ ws.tail, v.head?.any Char.isDigit = false) :
    ∀ v ∈ (putWord w ws).tail, v.head?.any Char.isDigit = false := by
  cases ws with
  | nil => simp [putWord]
  | cons v vs =>
    rw [putWord]
    split_ifs with hd
    · exact h
    · exact List.forall_mem_cons.2 ⟨by simpa using hd, h⟩

theorem head_of_mem_tail_joinDigits (ws : List (List Char)) :
    ∀ v ∈ (joinDigits ws).tail, v.head?.any Char.isDigit = false := by
  induction ws with
  | nil => simp [joinDigits]
  | cons w ws ih => exact head_of_mem_tail_putWord ih

theorem putWord_ne_nil (w : List Char) (ws : List (List Char)) : putWord w ws ≠ [] := by
  unfold putWord
  split
  · simp
  · split_ifs <;> simp

theorem flatMap_capitalize_putWord {w : List Char} (hw : w ≠ []) (ws : List (List Char)) :
    (putWord w ws).flatMap capitalize = capitalize w ++ ws.flatMap capitalize := by
  cases ws with
  | nil => simp [putWord]
  | cons v vs =>
    rw [putWord]
    split_ifs with hd
    · rw [List.flatMap_cons, List.flatMap_cons, capitalize_append hw hd, List.append_assoc]
    · rfl

theorem flatMap_capitalize_joinDigits {ws : List (List Char)} (h : ∀ w ∈ ws, w ≠ []) :
    (joinDigits ws).flatMap capitalize = ws.flatMap capitalize := by
  induction ws with
  | nil => rfl
  | cons w ws ih =>
    obtain ⟨hw, hws⟩ := List.forall_mem_cons.1 h
    rw [List.flatMap_cons, ← ih hws]
    exact flatMap_capitalize_putWord hw _

structure Lettered (w : List Char) : Prop where
  letter : w.head?.any Char.isLower = true
  small : ∀ c ∈ w, c.isUpper = false

/-- Words that a spelling keeps apart: every one but the first starts with a letter, and the first is
empty only if it stands alone. -/
structure Apart (ws : List (List Char)) : Prop where
  nonempty : ws ≠ []
  small : ∀ w ∈ ws, ∀ c ∈ w, c.isUpper = false
  lettered : ∀ w ∈ ws.tail, Lettered w
  alone : ws.head? = some [] → ws.tail = []

theorem capitalize_inj {w v : List Char} (hw : ∀ c ∈ w, c.isUpper = false)
    (hv : ∀ c ∈ v, c.isUpper = false) (h : capitalize w = capitalize v) : w = v := by
  have hlower : ∀ u : List Char, (∀ c ∈ u, c.isUpper = false) → lowercase (capitalize u) = u := by
    intro u hu
    cases u with
    | nil => rfl
    | cons c cs =>
      obtain ⟨hc, hcs⟩ := List.forall_mem_cons.1 hu
      have hcs := lowercase_eq_self hcs
      unfold lowercase at hcs
      simp [capitalize, lowercase, toLower_eq_self hc, hcs]
  rw [← hlower w hw, ← hlower v hv, h]

theorem takeWhile_append_capital {x y : List Char} (hx : ∀ c ∈ x, c.isUpper = false)
    (hy : ∀ c, y.head? = some c → c.isUpper = true) :
    (x ++ y).takeWhile (!·.isUpper) = x := by
  have hx' : ∀ c ∈ x, (!c.isUpper) = true := fun c hc => by simp [hx c hc]
  rw [List.takeWhile_append_of_pos hx']
  cases y with
  | nil => simp
  | cons c y => simp [hy c rfl]

theorem capitalize_append_inj {w v x y : List Char} (hw : w ≠ []) (hv : v ≠ [])
    (hx : ∀ c, x.head? = some c → c.isUpper = true) (hy : ∀ c, y.head? = some c → c.isUpper = true)
    (h : capitalize w ++ x = capitalize v ++ y) : capitalize w = capitalize v ∧ x = y := by
  obtain ⟨c, cs, rfl⟩ := List.exists_cons_of_ne_nil hw
  obtain ⟨d, ds, rfl⟩ := List.exists_cons_of_ne_nil hv
  simp only [capitalize, List.cons_append, List.cons.injEq] at h ⊢
  obtain ⟨hhead, hrest⟩ := h
  have htail : lowercase cs = lowercase ds := by
    rw [← takeWhile_append_capital (isUpper_of_mem_lowercase cs) hx, hrest,
      takeWhile_append_capital (isUpper_of_mem_lowercase ds) hy]
  rw [htail] at hrest
  exact ⟨⟨hhead, htail⟩, List.append_cancel_left hrest⟩

theorem Lettered.ne_nil {w : List Char} (h : Lettered w) : w ≠ [] := by
  rintro rfl
  simpa using h.letter

theorem isUpper_head_flatMap {ws : List (List Char)} (h : ∀ w ∈ ws, Lettered w) :
    ∀ c, (ws.flatMap capitalize).head? = some c → c.isUpper = true := by
  intro c hc
  cases ws with
  | nil => simp at hc
  | cons w ws =>
    have hw := h w List.mem_cons_self
    obtain ⟨d, ds, rfl⟩ := List.exists_cons_of_ne_nil hw.ne_nil
    obtain rfl : d.toUpper = c := by simpa [capitalize] using hc
    have hd : d.isLower = true := by simpa using hw.letter
    simp [Char.isAlpha, hd]

theorem flatMap_capitalize_inj {ws vs : List (List Char)} (hws : ∀ w ∈ ws, Lettered w)
    (hvs : ∀ v ∈ vs, Lettered v) (h : ws.flatMap capitalize = vs.flatMap capitalize) : ws = vs := by
  have hcons : ∀ w : List Char, ∀ us, Lettered w → (w :: us).flatMap capitalize ≠ [] := by
    intro w us hw
    obtain ⟨c, cs, rfl⟩ := List.exists_cons_of_ne_nil hw.ne_nil
    simp [capitalize]
  induction ws generalizing vs with
  | nil =>
    cases vs with
    | nil => rfl
    | cons v vs => exact absurd h.symm (hcons v vs (hvs v List.mem_cons_self))
  | cons w ws ih =>
    obtain ⟨hw, hws⟩ := List.forall_mem_cons.1 hws
    cases vs with
    | nil => exact absurd h (hcons w ws hw)
    | cons v vs =>
      obtain ⟨hv, hvs⟩ := List.forall_mem_cons.1 hvs
      rw [List.flatMap_cons, List.flatMap_cons] at h
      obtain ⟨hfirst, hrest⟩ := capitalize_append_inj hw.ne_nil hv.ne_nil (isUpper_head_flatMap hws)
        (isUpper_head_flatMap hvs) h
      rw [capitalize_inj hw.small hv.small hfirst, ih hws hvs hrest]

theorem Apart.flatMap_capitalize_inj {ws vs : List (List Char)} (hws : Apart ws) (hvs : Apart vs)
    (h : ws.flatMap capitalize = vs.flatMap capitalize) : ws = vs := by
  obtain ⟨w, ws, rfl⟩ := List.exists_cons_of_ne_nil hws.nonempty
  obtain ⟨v, vs, rfl⟩ := List.exists_cons_of_ne_nil hvs.nonempty
  have hempty : ∀ us, Apart ([] :: us) → us = [] := fun us hus => hus.alone rfl
  have hcons : ∀ u us, (u :: us).flatMap capitalize = [] → u = [] := by
    intro u us hu
    cases u with
    | nil => rfl
    | cons c cs => simp [capitalize] at hu
  by_cases hw : w = []
  · subst hw
    obtain rfl := hempty ws hws
    obtain rfl := hcons v vs (by simpa [capitalize] using h.symm)
    rw [hempty vs hvs]
  by_cases hv : v = []
  · subst hv
    obtain rfl := hempty vs hvs
    exact absurd (hcons w ws (by simpa [capitalize] using h)) hw
  · rw [List.flatMap_cons, List.flatMap_cons] at h
    obtain ⟨hfirst, hrest⟩ := capitalize_append_inj hw hv (isUpper_head_flatMap hws.lettered)
      (isUpper_head_flatMap hvs.lettered) h
    have htails : ws = vs := Naming.flatMap_capitalize_inj hws.lettered hvs.lettered hrest
    rw [htails,
      capitalize_inj (hws.small w List.mem_cons_self) (hvs.small v List.mem_cons_self) hfirst]

/-- A name without words holds no letters and no digits. -/
theorem forall_isAlnum_eq_false {name : List Char} (h : wordList name = []) :
    ∀ c ∈ name, isAlnum c = false := by
  intro c hc
  by_contra hword
  exact wordList_ne_nil ⟨c, hc, by simpa using hword⟩ h

theorem wordList_eq_nil_iff {name : List Char} :
    wordList name = [] ↔ ∀ c ∈ name, isAlnum c = false := by
  refine ⟨forall_isAlnum_eq_false, fun h => ?_⟩
  induction name with
  | nil => rfl
  | cons x s ih =>
    obtain ⟨hx, hs⟩ := List.forall_mem_cons.1 h
    rw [wordList_cons_of_separator hx, ih hs]

theorem forall_isAlnum_camelChars {name : List Char} (h : wordList name ≠ []) :
    ∀ c ∈ camelChars name, isAlnum c = true := by
  have hwords := forall_isAlnum_wordList name
  obtain ⟨w, ws, hw⟩ := List.exists_cons_of_ne_nil h
  rw [hw] at hwords
  obtain ⟨hfirst, hrest⟩ := List.forall_mem_cons.1 hwords
  simp only [camelChars, hw]
  refine List.forall_mem_append.2 ⟨forall_isAlnum_lowercase hfirst, fun c hc => ?_⟩
  obtain ⟨v, hv, hc⟩ := List.mem_flatMap.1 hc
  exact forall_isAlnum_capitalize (hrest v hv) c hc

theorem apart_spoken (name : String) : Apart (spoken name) := by
  unfold spoken
  cases hw : wordList name.toList with
  | nil =>
    have hnone := forall_isAlnum_eq_false hw
    refine ⟨by simp, ?_, by simp, by simp⟩
    simpa using fun c hc => isUpper_eq_false (hnone c hc)
  | cons w ws =>
    have hwords : ∀ v ∈ (w :: ws).map lowercase, IsWord v := by
      intro v hv
      obtain ⟨u, hu, rfl⟩ := List.mem_map.1 hv
      exact isWord_lowercase (hw ▸ hu)
    have hjoined := isWord_joinDigits hwords
    have htail := head_of_mem_tail_joinDigits ((w :: ws).map lowercase)
    refine ⟨putWord_ne_nil _ _, fun v hv => (hjoined v hv).small, fun v hv => ?_, fun hnil => ?_⟩
    · have hv' := hjoined v (List.mem_of_mem_tail hv)
      obtain ⟨c, cs, rfl⟩ := List.exists_cons_of_ne_nil hv'.nonempty
      have hdigit : c.isDigit = false := by simpa using htail _ hv
      have halnum := hv'.alnum c List.mem_cons_self
      have hupper := hv'.small c List.mem_cons_self
      refine ⟨?_, hv'.small⟩
      simpa [isAlnum, Char.isAlphanum, Char.isAlpha, hdigit, hupper] using halnum
    · exact absurd rfl (hjoined [] (List.mem_of_mem_head? hnil)).nonempty

theorem pascalChars_eq (name : String) :
    pascalChars name.toList = (spoken name).flatMap capitalize := by
  unfold spoken pascalChars
  cases hw : wordList name.toList with
  | nil =>
    have hnone := forall_isAlnum_eq_false hw
    have hsame : capitalize name.toList = name.toList := by
      cases hn : name.toList with
      | nil => rfl
      | cons c cs =>
        rw [hn] at hnone
        obtain ⟨hc, hcs⟩ := List.forall_mem_cons.1 hnone
        rw [capitalize, toUpper_eq_self hc, lowercase_eq_self fun d hd => isUpper_eq_false (hcs d hd)]
    simp [hsame]
  | cons w ws =>
    have hne : ∀ v ∈ (w :: ws).map lowercase, v ≠ [] := by
      intro v hv
      obtain ⟨u, hu, rfl⟩ := List.mem_map.1 hv
      exact (isWord_lowercase (hw ▸ hu)).nonempty
    dsimp only
    rw [flatMap_capitalize_joinDigits hne, List.flatMap_map]
    simp only [capitalize_lowercase]

/-- Two names are spelled alike in Pascal case just if their words are the same. -/
theorem pascal_eq_iff {a b : String} : pascal a = pascal b ↔ spoken a = spoken b := by
  rw [pascal, pascal, String.ofList_inj, pascalChars_eq, pascalChars_eq]
  exact ⟨(apart_spoken a).flatMap_capitalize_inj (apart_spoken b), fun h => by rw [h]⟩

def mapHead (f : Char → Char) : List Char → List Char
  | [] => []
  | c :: cs => f c :: cs

theorem lowercase_eq_mapHead (w : List Char) : lowercase w = mapHead Char.toLower (capitalize w) := by
  cases w with
  | nil => rfl
  | cons c cs => simp [lowercase, capitalize, mapHead]

theorem mapHead_append (f : Char → Char) {x : List Char} (hx : x ≠ []) (y : List Char) :
    mapHead f (x ++ y) = mapHead f x ++ y := by
  obtain ⟨c, cs, rfl⟩ := List.exists_cons_of_ne_nil hx
  rfl

/-- The two spellings of a name differ in the first letter at most. -/
theorem camelChars_eq (name : List Char) :
    camelChars name = mapHead Char.toLower (pascalChars name) := by
  unfold camelChars pascalChars
  cases hw : wordList name with
  | nil =>
    have hnone := forall_isAlnum_eq_false hw
    cases name with
    | nil => rfl
    | cons c cs =>
      have hc := isUpper_eq_false (hnone c List.mem_cons_self)
      simp [mapHead, toLower_eq_self hc]
  | cons w ws =>
    have hne : capitalize w ≠ [] := by
      obtain ⟨c, cs, rfl⟩ :=
        List.exists_cons_of_ne_nil (ne_nil_of_mem_wordList name w (by simp [hw]))
      simp [capitalize]
    dsimp only
    rw [List.flatMap_cons, mapHead_append _ hne, lowercase_eq_mapHead]

theorem toUpper_of_mem_head (ws : List (List Char)) :
    ∀ c ∈ (ws.flatMap capitalize).head?, c.toUpper = c := by
  induction ws with
  | nil => simp
  | cons w ws ih =>
    cases w with
    | nil => exact ih
    | cons d ds => simp [capitalize]

theorem pascalChars_eq_mapHead (name : String) :
    pascalChars name.toList = mapHead Char.toUpper (camelChars name.toList) := by
  have hhead : ∀ c ∈ (pascalChars name.toList).head?, c.toUpper = c := by
    rw [pascalChars_eq]
    exact toUpper_of_mem_head _
  rw [camelChars_eq]
  cases hp : pascalChars name.toList with
  | nil => rfl
  | cons c cs =>
    simp only [mapHead, Char.toUpper_toLower_eq_toUpper]
    rw [hhead c (by simp [hp])]

/-- So they are spelled alike in camel case just if they are in Pascal case. -/
theorem camel_eq_iff {a b : String} : camel a = camel b ↔ spoken a = spoken b := by
  rw [← pascal_eq_iff, camel, camel, pascal, pascal, String.ofList_inj, String.ofList_inj]
  constructor
  · intro h
    rw [pascalChars_eq_mapHead, h, ← pascalChars_eq_mapHead]
  · intro h
    rw [camelChars_eq, h, ← camelChars_eq]

end Naming

end DtoGen
