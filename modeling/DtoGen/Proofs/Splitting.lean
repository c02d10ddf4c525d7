import DtoGen.Proofs.Substitution
import DtoGen.Proofs.Words

namespace DtoGen.Naming

open Text

/-- Characters other than ASCII letters and digits. -/
def IsSeparator (m : List Char) : Prop := m ≠ [] ∧ ∀ c ∈ m, isAlnum c = false

/-- Whether a word ends between two characters, the first one small or a digit and the other one a capital. -/
def rises (x y : Char) (_ : List Char) : Bool := (x.isLower || x.isDigit) && y.isUpper

/-- Whether a word ends between two capitals because a small letter comes next. -/
def fallsBehind (x y : Char) (rest : List Char) : Bool :=
  x.isUpper && y.isUpper && rest.head?.any Char.isLower

def IsRise (m : List Char) : Prop :=
  ∃ x y, (x.isLower || x.isDigit) = true ∧ y.isUpper = true ∧ m = [x, y]

/-- Capitals, one more of them, and a small letter. -/
def IsAcronym (m : List Char) : Prop :=
  ∃ w y z, w ≠ [] ∧ (∀ c ∈ w, c.isUpper = true) ∧ y.isUpper = true ∧ z.isLower = true ∧ m = w ++ [y, z]

def blankBefore (k : Nat) (m : List Char) : List Char :=
  m.take (m.length - k) ++ ' ' :: m.drop (m.length - k)

/-- A name after the replacements: blanks stand for its separators, then also where a capital follows a
small letter or a digit, and then also before the last capital of a run that a small letter follows. -/
def Spaced (name s : List Char) : Prop :=
  ∃ a b, Substituted IsSeparator (fun _ => [' ']) name a ∧ Substituted IsRise (blankBefore 1) a b ∧
    Substituted IsAcronym (blankBefore 2) b s

def pieces (s : List Char) : List (List Char) := (s.splitOnP isBlank).filter (· ≠ [])

def blankSeparators : List Char → List Char
  | [] => []
  | c :: s =>
    if isAlnum c then c :: blankSeparators s
    else if s.head?.any fun d => !isAlnum d then blankSeparators s
    else ' ' :: blankSeparators s

/-- Puts blanks between characters for which a test of them, and of what follows, holds. -/
def spread (p : Char → Char → List Char → Bool) : List Char → List Char
  | x :: y :: s => if p x y s then x :: ' ' :: spread p (y :: s) else x :: spread p (y :: s)
  | s => s

/-- A name with its blanks, found without a look at more than the characters beside them. -/
def spaced (name : List Char) : List Char := spread fallsBehind (spread rises (blankSeparators name))

section Spread

variable {p : Char → Char → List Char → Bool} {c d : Char} {s : List Char}

theorem spread_cons (h : ∀ d t, s = d :: t → p c d t = false) : spread p (c :: s) = c :: spread p s := by
  cases s with
  | nil => rfl
  | cons d t => rw [spread, h d t rfl, if_neg Bool.false_ne_true]

theorem spread_cons_cons (h : p c d s = true) :
    spread p (c :: d :: s) = c :: ' ' :: spread p (d :: s) := by
  rw [spread, if_pos h]

theorem head?_spread (p : Char → Char → List Char → Bool) (s : List Char) :
    (spread p s).head? = s.head? := by
  fun_cases spread p s with
  | case1 | case2 | case3 => rfl

end Spread

variable {c x y z : Char} {m s w rest name : List Char}

/-- Characters of one kind at the beginning of a text end where the first one of another kind stands. -/
theorem length_le_of_prefix {q : Char → Bool} {u v : List Char} (hm : ∀ c ∈ m, q c = true)
    (hv : ∀ c, v.head? = some c → q c = false) (h : m <+: u ++ v) : m.length ≤ u.length := by
  by_contra hlt
  obtain ⟨t, rfl⟩ := List.prefix_of_prefix_length_le (List.prefix_append u v) h (by omega)
  obtain ⟨r, rfl⟩ := (List.prefix_append_right_inj u).1 h
  cases t with
  | nil => simp at hlt
  | cons c t =>
    have hother := hv c rfl
    rw [hm c (by simp)] at hother
    cases hother

theorem blankSeparators_run (hm : IsSeparator m) (hs : ∀ c, s.head? = some c → isAlnum c = true) :
    blankSeparators (m ++ s) = ' ' :: blankSeparators s := by
  obtain ⟨hne, hm⟩ := hm
  induction m with
  | nil => exact absurd rfl hne
  | cons c m ih =>
    obtain ⟨hc, hm⟩ := List.forall_mem_cons.1 hm
    rw [List.cons_append, blankSeparators, hc, if_neg Bool.false_ne_true]
    cases m with
    | nil =>
      have hlast : s.head?.any (fun d => !isAlnum d) = false := by
        cases hd : s.head? with
        | none => rfl
        | some d => simp [hs d hd]
      rw [List.nil_append, hlast, if_neg Bool.false_ne_true]
    | cons d m =>
      have hd := hm d List.mem_cons_self
      rw [if_pos (by simp [hd])]
      exact ih (List.cons_ne_nil d m) hm

/-- Every separator lies in a run that ends at a letter, at a digit or with the name. -/
theorem exists_run (hc : isAlnum c = false) (s : List Char) : ∃ m t, c :: s = m ++ t ∧ IsSeparator m ∧
    ∀ d, t.head? = some d → isAlnum d = true := by
  refine ⟨c :: s.takeWhile (fun d => !isAlnum d), s.dropWhile (fun d => !isAlnum d), ?_, ⟨by simp, ?_⟩,
    fun d hd => ?_⟩
  · rw [List.cons_append, List.takeWhile_append_dropWhile]
  · exact List.forall_mem_cons.2 ⟨hc, fun d hd => by simpa using List.mem_takeWhile_imp hd⟩
  · have hend := List.head?_dropWhile_not (fun d => !isAlnum d) s
    rw [hd] at hend
    simpa using hend

theorem substituted_blankSeparators (s : List Char) :
    Substituted IsSeparator (fun _ => [' ']) s (blankSeparators s) := by
  induction hn : s.length using Nat.strong_induction_on generalizing s with
  | _ n ih =>
    cases s with
    | nil => exact .nil
    | cons c s =>
      by_cases hc : isAlnum c = true
      · rw [blankSeparators, if_pos hc]
        refine .keep ?_ (ih _ (by simp [← hn]) s rfl)
        rintro m ⟨hne, hm⟩ hprefix
        obtain ⟨d, m, rfl⟩ := List.exists_cons_of_ne_nil hne
        have hd := hm d List.mem_cons_self
        rw [(List.cons_prefix_cons.1 hprefix).1, hc] at hd
        cases hd
      · obtain ⟨m, t, hsplit, hm, ht⟩ := exists_run (by simpa using hc) s
        have hpos := List.length_pos_iff.2 hm.1
        have hshort : t.length < n := by
          rw [← hn, hsplit, List.length_append]
          omega
        rw [hsplit, blankSeparators_run hm ht]
        refine .hit ⟨hm, hm.1, fun m' hm' hprefix => ?_⟩ (ih _ hshort t rfl)
        exact length_le_of_prefix (q := fun d => !isAlnum d) (fun d hd => by simp [hm'.2 d hd])
          (fun d hd => by simp [ht d hd]) hprefix

theorem spread_rises_of_isUpper (hy : y.isUpper = true) (s : List Char) :
    spread rises (y :: s) = y :: spread rises s := by
  refine spread_cons fun d t _ => ?_
  have hdigit : y.isDigit = false := by
    by_contra hd
    exact (caseless_of_isDigit (by simpa using hd)).2 hy
  rw [rises, isLower_eq_false_of_isUpper hy, hdigit, Bool.or_self, Bool.false_and]

theorem substituted_spread_rises (s : List Char) :
    Substituted IsRise (blankBefore 1) s (spread rises s) := by
  induction hn : s.length using Nat.strong_induction_on generalizing s with
  | _ n ih =>
    match s with
    | [] => exact .nil
    | [x] =>
      refine .keep ?_ .nil
      rintro m ⟨_, _, -, -, rfl⟩ hprefix
      simpa using hprefix.length_le
    | x :: y :: s =>
      simp only [List.length_cons] at hn
      by_cases hrises : rises x y s = true
      · have hkind := Bool.and_eq_true_iff.1 hrises
        rw [spread_cons_cons hrises, spread_rises_of_isUpper hkind.2]
        refine .hit (m := [x, y]) ⟨⟨x, y, hkind.1, hkind.2, rfl⟩, by simp, ?_⟩
          (ih _ (by omega) s rfl)
        rintro m ⟨_, _, -, -, rfl⟩ -
        simp
      · rw [spread, if_neg hrises]
        refine .keep ?_ (ih _ (by simp; omega) (y :: s) rfl)
        rintro m ⟨x', y', hx, hy, rfl⟩ hprefix
        obtain ⟨rfl, hnext⟩ := List.cons_prefix_cons.1 hprefix
        obtain ⟨rfl, -⟩ := List.cons_prefix_cons.1 hnext
        exact hrises (Bool.and_eq_true_iff.2 ⟨hx, hy⟩)

theorem fallsBehind_of_isUpper (hz : ∀ d, rest.head? = some d → d.isUpper = true) :
    fallsBehind x y rest = false := by
  have hlower : rest.head?.any Char.isLower = false := by
    cases hd : rest.head? with
    | none => rfl
    | some d => exact isLower_eq_false_of_isUpper (hz d hd)
  rw [fallsBehind, hlower, Bool.and_false]

theorem isUpper_eq_false_of_isLower (hz : z.isLower = true) : z.isUpper = false := by
  by_contra hu
  rw [isLower_eq_false_of_isUpper (by simpa using hu)] at hz
  cases hz

theorem spread_acronym (hne : w ≠ []) (hw : ∀ c ∈ w, c.isUpper = true) (hy : y.isUpper = true)
    (hz : z.isLower = true) (rest : List Char) :
    spread fallsBehind (w ++ y :: z :: rest) = w ++ ' ' :: y :: z :: spread fallsBehind rest := by
  induction w with
  | nil => exact absurd rfl hne
  | cons x w ih =>
    obtain ⟨hx, hw⟩ := List.forall_mem_cons.1 hw
    have hsmall := isUpper_eq_false_of_isLower hz
    cases w with
    | nil =>
      have hfalls : fallsBehind x y (z :: rest) = true := by simp [fallsBehind, hx, hy, hz]
      have hlast : ∀ d t, fallsBehind y z (d :: t) = false := fun d t => by simp [fallsBehind, hsmall]
      rw [List.singleton_append, spread_cons_cons hfalls, spread_cons, spread_cons,
        List.singleton_append]
      · exact fun d t _ => by simp [fallsBehind, hsmall]
      · exact fun d t h => by simp [fallsBehind, ← (List.cons.inj h).1, hsmall]
    | cons v w =>
      rw [List.cons_append, List.cons_append, spread, fallsBehind_of_isUpper, if_neg Bool.false_ne_true]
      · exact congrArg (x :: ·) (ih (List.cons_ne_nil v w) hw)
      · intro d hd
        cases w with
        | nil =>
          obtain rfl : y = d := by simpa using hd
          exact hy
        | cons v' w =>
          obtain rfl : v' = d := by simpa using hd
          exact hw v' (by simp)

theorem substituted_spread_fallsBehind (s : List Char) :
    Substituted IsAcronym (blankBefore 2) s (spread fallsBehind s) := by
  induction hn : s.length using Nat.strong_induction_on generalizing s with
  | _ n ih =>
    by_cases hmatch : ∃ m, IsAcronym m ∧ m <+: s
    · obtain ⟨m, ⟨w, y, z, hne, hw, hy, hz, rfl⟩, rest, rfl⟩ := hmatch
      have hsplit : w ++ [y, z] ++ rest = w ++ y :: z :: rest := by simp
      have hparts : blankBefore 2 (w ++ [y, z]) = w ++ [' ', y, z] := by simp [blankBefore]
      have hspread : spread fallsBehind (w ++ [y, z] ++ rest) =
          blankBefore 2 (w ++ [y, z]) ++ spread fallsBehind rest := by
        rw [hsplit, spread_acronym hne hw hy hz, hparts]
        simp
      rw [hspread]
      refine .hit ⟨⟨w, y, z, hne, hw, hy, hz, rfl⟩, by simp, ?_⟩ (ih _ ?_ rest rfl)
      · -- the capitals of a match end where the small letter stands
        rintro m ⟨w', y', z', -, hw', hy', -, rfl⟩ hprefix
        have hcapitals : w' ++ [y'] <+: (w ++ [y]) ++ z :: rest := by
          rw [List.append_assoc, List.singleton_append, ← hsplit]
          exact List.IsPrefix.trans ⟨[z'], by simp⟩ hprefix
        have hle := length_le_of_prefix (q := Char.isUpper)
          (List.forall_mem_append.2 ⟨hw', by simpa using hy'⟩)
          (by simpa using isUpper_eq_false_of_isLower hz) hcapitals
        simpa using hle
      · rw [← hn]
        simp
        omega
    · cases s with
      | nil => exact .nil
      | cons x s =>
        rw [spread_cons]
        · exact .keep (fun m hm hprefix => hmatch ⟨m, hm, hprefix⟩) (ih _ (by simp [← hn]) s rfl)
        · rintro y t rfl
          by_contra hfalls
          obtain ⟨z, rest, rfl⟩ : ∃ z rest, t = z :: rest := by
            cases t with
            | nil => simp [fallsBehind] at hfalls
            | cons z rest => exact ⟨z, rest, rfl⟩
          obtain ⟨hx, hy, hz⟩ : x.isUpper = true ∧ y.isUpper = true ∧ z.isLower = true := by
            simpa [fallsBehind] using hfalls
          exact hmatch ⟨[x, y, z], ⟨[x], y, z, by simp, by simpa using hx, hy, hz, rfl⟩, rest, rfl⟩

theorem spaced_iff : Spaced name s ↔ s = spaced name := by
  constructor
  · rintro ⟨a, b, ha, hb, hs⟩
    obtain rfl := ha.unique (substituted_blankSeparators name)
    obtain rfl := hb.unique (substituted_spread_rises _)
    exact hs.unique (substituted_spread_fallsBehind _)
  · rintro rfl
    exact ⟨_, _, substituted_blankSeparators name, substituted_spread_rises _,
      substituted_spread_fallsBehind _⟩

theorem isBlank_eq_false_of_isAlnum (h : isAlnum c = true) : isBlank c = false := by
  simp [isAlnum, Char.isAlphanum, Char.isAlpha, Char.isUpper, Char.isLower, Char.isDigit,
    UInt32.le_iff_toNat_le] at h
  simp [isBlank]
  omega

theorem pieces_append_cons (x y : List Char) : pieces (x ++ ' ' :: y) = pieces x ++ pieces y := by
  rw [pieces, List.splitOnP_append_cons x y (by decide), List.filter_append]
  rfl

theorem pieces_singleton (hx : isBlank x = false) : pieces [x] = [[x]] := by
  rw [pieces, List.splitOnP_eq_singleton (by simpa using hx)]
  rfl

theorem pieces_blank_cons (s : List Char) : pieces (' ' :: s) = pieces s := pieces_append_cons [] s

theorem pieces_cons_blank_cons (hx : isBlank x = false) (s : List Char) :
    pieces (x :: ' ' :: s) = [x] :: pieces s := by
  rw [← List.singleton_append, pieces_append_cons, pieces_singleton hx, List.singleton_append]

theorem pieces_cons_cons (hx : isBlank x = false) (hy : isBlank y = false) (s : List Char) :
    pieces (x :: y :: s) = consHead x (pieces (y :: s)) := by
  obtain ⟨g, gs, hg⟩ := List.exists_cons_of_ne_nil (List.splitOnP_ne_nil isBlank s)
  simp [pieces, List.splitOnP_cons_eq_if_modifyHead, hx, hy, hg, consHead]

theorem blankSeparators_cons (hx : isAlnum x = true) (s : List Char) :
    blankSeparators (x :: s) = x :: blankSeparators s := by
  rw [blankSeparators, if_pos hx]

theorem exists_blankSeparators (hx : isAlnum x = false) (s : List Char) :
    ∃ t, blankSeparators (x :: s) = ' ' :: t := by
  obtain ⟨m, t, hsplit, hm, ht⟩ := exists_run hx s
  exact ⟨_, hsplit ▸ blankSeparators_run hm ht⟩

theorem any_isLower_blankSeparators (s : List Char) :
    (blankSeparators s).head?.any Char.isLower = s.head?.any Char.isLower := by
  cases s with
  | nil => rfl
  | cons x s =>
    by_cases hx : isAlnum x = true
    · rw [blankSeparators_cons hx, List.head?_cons, List.head?_cons]
    · have hx : isAlnum x = false := by simpa using hx
      obtain ⟨t, ht⟩ := exists_blankSeparators hx s
      rw [ht, List.head?_cons, List.head?_cons, Option.any_some, Option.any_some, isLower_eq_false hx]
      rfl

theorem spread_blank_cons (s : List Char) :
    spread rises (' ' :: s) = ' ' :: spread rises s ∧
      spread fallsBehind (' ' :: s) = ' ' :: spread fallsBehind s :=
  ⟨spread_cons fun _ _ _ => rfl, spread_cons fun _ _ _ => rfl⟩

theorem spread_cons_blank_cons (x : Char) (s : List Char) :
    spread rises (x :: ' ' :: s) = x :: ' ' :: spread rises s ∧
      spread fallsBehind (x :: ' ' :: s) = x :: ' ' :: spread fallsBehind s := by
  rw [← (spread_blank_cons s).1, ← (spread_blank_cons s).2]
  constructor <;> refine spread_cons fun d t h => ?_ <;> rw [← (List.cons.inj h).1]
  · exact Bool.and_false _
  · rw [fallsBehind, show Char.isUpper ' ' = false from rfl, Bool.and_false, Bool.false_and]

theorem spaced_separator (hx : isAlnum x = false) (hy : isAlnum y = true) (rest : List Char) :
    spaced (x :: y :: rest) = ' ' :: spaced (y :: rest) := by
  have hblank : blankSeparators (x :: y :: rest) = ' ' :: blankSeparators (y :: rest) :=
    blankSeparators_run (m := [x]) ⟨by simp, by simpa using hx⟩ (by simpa using hy)
  rw [spaced, hblank, (spread_blank_cons _).1, (spread_blank_cons _).2, spaced]

theorem spaced_separators (hx : isAlnum x = false) (hy : isAlnum y = false) (rest : List Char) :
    spaced (x :: y :: rest) = spaced (y :: rest) := by
  rw [spaced, blankSeparators, hx, if_neg Bool.false_ne_true, if_pos (by simp [hy]), spaced]

theorem exists_spaced_separator (hx : isAlnum x = true) (hy : isAlnum y = false) (rest : List Char) :
    ∃ s, spaced (y :: rest) = ' ' :: s ∧ spaced (x :: y :: rest) = x :: ' ' :: s := by
  obtain ⟨t, ht⟩ := exists_blankSeparators hy rest
  refine ⟨spread fallsBehind (spread rises t), ?_, ?_⟩
  · rw [spaced, ht, (spread_blank_cons _).1, (spread_blank_cons _).2]
  · rw [spaced, blankSeparators_cons hx, ht, (spread_cons_blank_cons x _).1,
      (spread_cons_blank_cons x _).2]

/-- The two case boundaries are those at which a word ends. A blank put at the first kind does not hide one
of the second kind, which looks at what stands behind a capital. -/
theorem exists_spaced_cons (hx : isAlnum x = true) (hy : isAlnum y = true) (rest : List Char) :
    ∃ s, spaced (y :: rest) = y :: s ∧
      spaced (x :: y :: rest) = if wordEnds x y rest then x :: ' ' :: y :: s else x :: y :: s := by
  have hhead := head?_spread rises (y :: blankSeparators rest)
  obtain ⟨r, hr⟩ := List.head?_eq_some_iff.1 hhead
  obtain ⟨s, hs⟩ := List.head?_eq_some_iff.1 (head?_spread fallsBehind (y :: r))
  have hends : wordEnds x y rest = (rises x y (blankSeparators rest) || fallsBehind x y r) := by
    cases hupper : y.isUpper with
    | false => simp [wordEnds, rises, fallsBehind, hupper]
    | true =>
      rw [spread_rises_of_isUpper hupper] at hr
      rw [wordEnds, rises, fallsBehind, hupper, ← (List.cons.inj hr).2, head?_spread,
        any_isLower_blankSeparators]
      cases rest.head? <;> simp
  refine ⟨s, ?_, ?_⟩
  · rw [spaced, blankSeparators_cons hy, hr, hs]
  rw [spaced, blankSeparators_cons hx, blankSeparators_cons hy, hends, spread, hr]
  by_cases hrises : rises x y (blankSeparators rest) = true
  · rw [if_pos hrises, (spread_cons_blank_cons x _).2, hs, hrises, Bool.true_or, if_pos rfl]
  · rw [if_neg hrises, spread, hs, Bool.eq_false_iff.2 hrises, Bool.false_or]

theorem pieces_spaced (name : List Char) : pieces (spaced name) = wordList name := by
  fun_induction wordList name with
  | case1 => rfl
  | case2 x hx =>
    rw [spaced, blankSeparators_cons hx]
    exact pieces_singleton (isBlank_eq_false_of_isAlnum hx)
  | case3 x hx =>
    rw [spaced, blankSeparators, if_neg hx]
    rfl
  | case4 x y rest hx ih =>
    have hx : isAlnum x = false := by simpa using hx
    by_cases hy : isAlnum y = true
    · rw [spaced_separator hx hy, pieces_blank_cons, ih]
    · rw [spaced_separators hx (by simpa using hy), ih]
  | case5 x y rest hx he ih =>
    have hx : isAlnum x = true := by simpa using hx
    have hblank := isBlank_eq_false_of_isAlnum hx
    by_cases hy : isAlnum y = true
    · obtain ⟨s, hs, hsplit⟩ := exists_spaced_cons hx hy rest
      rw [hsplit, if_pos (by simpa [hy] using he), pieces_cons_blank_cons hblank, ← hs, ih]
    · obtain ⟨s, hs, hsplit⟩ := exists_spaced_separator hx (by simpa using hy) rest
      rw [hsplit, pieces_cons_blank_cons hblank, ← pieces_blank_cons, ← hs, ih]
  | case6 x y rest hx he ih =>
    have hx : isAlnum x = true := by simpa using hx
    obtain ⟨hy, hends⟩ : isAlnum y = true ∧ wordEnds x y rest = false := by simpa using he
    obtain ⟨s, hs, hsplit⟩ := exists_spaced_cons hx hy rest
    rw [hsplit, if_neg (by simp [hends]), pieces_cons_cons (isBlank_eq_false_of_isAlnum hx)
      (isBlank_eq_false_of_isAlnum hy), ← hs, ih]

theorem spaced_pieces_iff {name : String} {ws : List String} :
    (∃ s, Spaced name.toList s ∧ ws = (pieces s).map String.ofList) ↔ ws = words name := by
  simp only [spaced_iff, exists_eq_left, pieces_spaced, words]

/-- The letters and digits of a name in order, letters in small. -/
def letters (name : String) : List Char := (name.toList.filter isAlnum).map Char.toLower

theorem flatten_putWord (w : List Char) (ws : List (List Char)) :
    (putWord w ws).flatten = w ++ ws.flatten := by
  cases ws with
  | nil => simp [putWord]
  | cons v vs =>
    rw [putWord]
    split_ifs <;> simp

theorem flatten_joinDigits (ws : List (List Char)) : (joinDigits ws).flatten = ws.flatten := by
  induction ws with
  | nil => rfl
  | cons w ws ih => rw [List.flatten_cons, ← ih, ← flatten_putWord, joinDigits, joinDigits, List.foldr_cons]

theorem filter_flatten_spoken (name : String) : (spoken name).flatten.filter isAlnum = letters name := by
  have hflatten := flatten_wordList name.toList
  unfold spoken letters
  cases hw : wordList name.toList with
  | nil =>
    rw [hw, List.flatten_nil] at hflatten
    simp [← hflatten]
  | cons w ws =>
    have hletters : ∀ c ∈ lowercase (name.toList.filter isAlnum), isAlnum c = true :=
      forall_isAlnum_lowercase fun c hc => (List.mem_filter.1 hc).2
    have hsmall : ((w :: ws).map lowercase).flatten = lowercase (w :: ws).flatten :=
      List.map_flatten.symm
    dsimp only
    rw [flatten_joinDigits, hsmall, ← hw, hflatten, List.filter_eq_self.2 hletters, lowercase]

theorem letters_of_spoken {a b : String} (h : spoken a = spoken b) : letters a = letters b := by
  rw [← filter_flatten_spoken, h, filter_flatten_spoken]

theorem words_append_of_separator {sep : String} (hne : sep ≠ "")
    (hsep : ∀ c ∈ sep.toList, isAlnum c = false) (a b : String) :
    words (a ++ sep ++ b) = words a ++ words b := by
  rw [words, words, words, String.toList_append, String.toList_append,
    wordList_append_of_separator (by simpa using hne) hsep, List.map_append]

theorem wordList_ne_nil_of_words {a : String} (h : words a ≠ []) : wordList a.toList ≠ [] :=
  fun hnil => h (by rw [words, hnil, List.map_nil])

section Joined

variable {a : String} (ha : words a ≠ [])

include ha

theorem interfaceName_eq {b : String} (hb : words b ≠ []) :
    interfaceName a b = typeName a ++ pascal b :=
  pascal_joined (wordList_ne_nil_of_words ha) (wordList_ne_nil_of_words hb)

theorem paramsTypeName_eq : paramsTypeName a = pascal a ++ "Params" := by
  have hjoined := pascal_joined (b := "params") (wordList_ne_nil_of_words ha) (by decide)
  rwa [String.append_assoc] at hjoined

theorem requestHandlerTypeName_eq : requestHandlerTypeName a = pascal a ++ "RequestHandler" := by
  have hjoined := pascal_joined (b := "request_handler") (wordList_ne_nil_of_words ha) (by decide)
  rwa [String.append_assoc] at hjoined

theorem handlerName_eq : handlerName a = "handle" ++ pascal a :=
  camel_joined (a := "handle") (by decide) (wordList_ne_nil_of_words ha)

end Joined

/-- The words of a name hold its letters and digits in order, whatever stands between them, and they are the
pieces that three replacements leave between blanks. A separator keeps two names apart, so a spelling of both
is made of their spellings. And names that are spelled alike hold the same letters and digits. -/
theorem names_split_apart (a b : String) :
    (∀ w ∈ words a, w ≠ "" ∧ ∀ c ∈ w.toList, isAlnum c = true) ∧
    String.join (words a) = String.ofList (a.toList.filter isAlnum) ∧
    (∀ ws, (∃ s, Spaced a.toList s ∧ ws = (pieces s).map String.ofList) ↔ ws = words a) ∧
    (∀ sep : String, sep ≠ "" → (∀ c ∈ sep.toList, isAlnum c = false) →
      words (a ++ sep ++ b) = words a ++ words b) ∧
    (words a ≠ [] → paramsTypeName a = pascal a ++ "Params" ∧
      requestHandlerTypeName a = pascal a ++ "RequestHandler" ∧
      handlerName a = "handle" ++ pascal a ∧
      (words b ≠ [] → pascal (a ++ "_" ++ b) = pascal a ++ pascal b ∧
        interfaceName a b = typeName a ++ pascal b)) ∧
    (camel a = camel b ∨ pascal a = pascal b → letters a = letters b) := by
  refine ⟨fun w hw => ?_, ?_, fun ws => spaced_pieces_iff, fun sep hne hsep =>
    words_append_of_separator hne hsep a b, fun ha => ⟨paramsTypeName_eq ha, requestHandlerTypeName_eq ha,
    handlerName_eq ha, fun hb => ⟨?_, interfaceName_eq ha hb⟩⟩, fun h => ?_⟩
  · obtain ⟨v, hv, rfl⟩ := List.mem_map.1 hw
    rw [String.toList_ofList]
    exact ⟨by simpa using ne_nil_of_mem_wordList _ v hv, forall_isAlnum_wordList _ v hv⟩
  · rw [← flatten_wordList, ← String.toList_inj, String.toList_join, String.toList_ofList, words,
      List.flatMap_map]
    simp
  · exact pascal_joined (wordList_ne_nil_of_words ha) (wordList_ne_nil_of_words hb)
  · rcases h with h | h
    · exact letters_of_spoken (camel_eq_iff.1 h)
    · exact letters_of_spoken (pascal_eq_iff.1 h)

theorem acronym_split_apart :
    words "HTTPServer-- http_server" = ["HTTP", "Server", "http", "server"] ∧
    interfaceName "HTTPServer" "http_server" = "HttpServerHttpServer" ∧
    letters "HTTPServer" = letters "http_server" := by
  obtain ⟨-, -, -, hwords, hspelled, hletters⟩ := names_split_apart "HTTPServer" "http_server"
  obtain ⟨-, -, -, hjoined⟩ := hspelled (by decide)
  exact ⟨hwords "-- " (by decide) (by simp [isAlnum]), (hjoined (by decide)).2, hletters (.inl (by decide))⟩

end DtoGen.Naming
