import DtoGen.Naming
import Mathlib

namespace DtoGen

namespace Text

/-- The character that a backslash before another one stands for. -/
def unescape? : Char → Option Char
  | '\\' => some '\\'
  | '\'' => some '\''
  | 'n' => some '\n'
  | 't' => some '\t'
  | _ => none

/-- Reads a literal behind its opening quote: the text, and what follows the closing quote. -/
def readQuoted : List Char → Option (List Char × List Char)
  | [] => none
  | '\'' :: rest => some ([], rest)
  | '\\' :: c :: rest => (unescape? c).bind fun d => (readQuoted rest).map fun r => (d :: r.1, r.2)
  | c :: rest => if c = '\\' then none else (readQuoted rest).map fun r => (c :: r.1, r.2)

/-- A character stands for itself, or a backslash and another character stand for it. -/
theorem escape_cases (c : Char) :
    (escape c = [c] ∧ c ≠ '\\' ∧ c ≠ '\'' ∧ c ≠ '\n' ∧ c ≠ '\t') ∨
      ∃ d, escape c = ['\\', d] ∧ unescape? d = some c ∧ d ≠ '\n' ∧ d ≠ '\t' := by
  by_cases hb : c = '\\'
  · exact .inr ⟨'\\', by simp [hb, escape], by simp [hb, unescape?], by decide, by decide⟩
  by_cases hq : c = '\''
  · exact .inr ⟨'\'', by simp [hq, escape], by simp [hq, unescape?], by decide, by decide⟩
  by_cases hn : c = '\n'
  · exact .inr ⟨'n', by simp [hn, escape], by simp [hn, unescape?], by decide, by decide⟩
  by_cases ht : c = '\t'
  · exact .inr ⟨'t', by simp [ht, escape], by simp [ht, unescape?], by decide, by decide⟩
  · exact .inl ⟨by simp [escape], hb, hq, hn, ht⟩

theorem readQuoted_escape (c : Char) (rest : List Char) :
    readQuoted (escape c ++ rest) = (readQuoted rest).map fun r => (c :: r.1, r.2) := by
  rcases escape_cases c with ⟨he, hb, hq, -⟩ | ⟨d, he, hd, -⟩
  · rw [he, List.singleton_append]
    simp [readQuoted, hb]
  · rw [he, List.cons_append, List.singleton_append, readQuoted, hd, Option.bind_some]

theorem readQuoted_quoted (s after : List Char) :
    readQuoted (s.flatMap escape ++ '\'' :: after) = some (s, after) := by
  induction s with
  | nil => rfl
  | cons c s ih => rw [List.flatMap_cons, List.append_assoc, readQuoted_escape, ih, Option.map_some]

/-- The line feed is always escaped, the carriage return never. -/
theorem newline_not_mem_escape (c : Char) : '\n' ∉ escape c := by
  rcases escape_cases c with ⟨he, -, -, hn, -⟩ | ⟨d, he, -, hn, -⟩
  · simp [he, hn.symm]
  · simp [he, hn.symm]

theorem return_mem_escape {c : Char} : '\r' ∈ escape c ↔ c = '\r' := by
  unfold escape
  split <;> simp [eq_comm]

end Text

namespace Naming

def identifier? (t : List Char) : Option (List Char) :=
  if isPlainIdentifier (t.takeWhile isTail) && (t.dropWhile isTail).all Char.isWhitespace then
    some (t.takeWhile isTail)
  else none

/-- Reads a literal behind its opening quote, with a given text after it. It has to end on its
line. -/
def literal? (after t : List Char) : Option (List Char) :=
  if '\n' ∈ t ∨ '\r' ∈ t then none
  else (Text.readQuoted t).bind fun r => if r.2 = after then some r.1 else none

def readKey : List Char → Option (List Char)
  | '\'' :: rest => literal? [] rest
  | t => identifier? t

def readAccess : List Char → Option (List Char)
  | '.' :: rest => identifier? rest
  | '[' :: '\'' :: rest => literal? [']'] rest
  | _ => none

def keyName? (text : String) : Option String := (readKey text.toList).map String.ofList

def accessName? (text : String) : Option String := (readAccess text.toList).map String.ofList

def denoted? (name : String) : Option String :=
  if isIdentifier name then some (String.ofList (name.toList.takeWhile isTail))
  else if '\r' ∈ name.toList then none else some name

/-- A name that is read back as it is. -/
structure Faithful (name : String) : Prop where
  oneLine : '\r' ∉ name.toList
  unbroken : ∀ i, isPlainIdentifier i = true → name.toList ≠ i ++ ['\n']

theorem isTail_of_isHead {c : Char} (h : isHead c = true) : isTail c = true := by
  simp [isTail, h]

theorem forall_isTail {i : List Char} (h : isPlainIdentifier i = true) : ∀ c ∈ i, isTail c = true := by
  cases i with
  | nil => simp
  | cons c cs =>
    simp only [isPlainIdentifier, Bool.and_eq_true, List.all_eq_true] at h
    intro d hd
    rcases List.mem_cons.1 hd with rfl | hd
    · exact isTail_of_isHead h.1
    · exact h.2 d hd

theorem isIdentifierChars_iff {s : List Char} :
    isIdentifierChars s = true ↔ ∃ i, isPlainIdentifier i = true ∧ (s = i ∨ s = i ++ ['\n']) := by
  simp only [isIdentifierChars, Bool.or_eq_true, Bool.and_eq_true, beq_iff_eq]
  constructor
  · rintro (h | ⟨hl, h⟩)
    · exact ⟨s, h, .inl rfl⟩
    · exact ⟨s.dropLast, h, .inr (List.dropLast_append_getLast? _ hl).symm⟩
  · rintro ⟨i, hi, rfl | rfl⟩
    · exact .inl hi
    · exact .inr (by simp [hi])

/-- An identifier is read up to the line feed that may follow it. -/
theorem takeWhile_isTail {i s : List Char} (hi : isPlainIdentifier i = true)
    (hs : s = i ∨ s = i ++ ['\n']) :
    s.takeWhile isTail = i ∧ (s.dropWhile isTail).all Char.isWhitespace := by
  have hall := forall_isTail hi
  rcases hs with rfl | rfl
  · simp [List.takeWhile_eq_self_iff.2 hall, List.dropWhile_eq_nil_iff.2 hall]
  · rw [List.takeWhile_append_of_pos hall, List.dropWhile_append_of_pos hall]
    exact ⟨by simp [isTail, isHead], by decide⟩

theorem identifier?_of_isIdentifierChars {s : List Char} (h : isIdentifierChars s = true) :
    identifier? s = some (s.takeWhile isTail) := by
  obtain ⟨i, hi, hs⟩ := isIdentifierChars_iff.1 h
  obtain ⟨htake, hdrop⟩ := takeWhile_isTail hi hs
  rw [identifier?, htake, if_pos (by simp [hi, hdrop])]

theorem literal?_quoted (s : List Char) {after : List Char} (hn : '\n' ∉ after) (hr : '\r' ∉ after) :
    literal? after (s.flatMap Text.escape ++ '\'' :: after) = if '\r' ∈ s then none else some s := by
  have hline : '\n' ∉ s.flatMap Text.escape ++ '\'' :: after := by
    simp [hn, Text.newline_not_mem_escape]
  have hreturn : '\r' ∈ s.flatMap Text.escape ++ '\'' :: after ↔ '\r' ∈ s := by
    simp [hr, Text.return_mem_escape]
  rw [literal?, Text.readQuoted_quoted, Option.bind_some, if_pos rfl]
  simp [hline, hreturn]

theorem readKey_of_isPlainIdentifier {i : List Char} (hi : isPlainIdentifier i = true)
    (after : List Char) : readKey (i ++ after) = identifier? (i ++ after) := by
  cases i with
  | nil => simp [isPlainIdentifier] at hi
  | cons c cs =>
    have hc : c ≠ '\'' := by
      rintro rfl
      simp [isPlainIdentifier, isHead] at hi
    simp [readKey, hc]

theorem keyName?_quote (s : String) :
    keyName? (Text.quote s) = if '\r' ∈ s.toList then none else some s := by
  have hread : readKey (Text.quote s).toList = if '\r' ∈ s.toList then none else some s.toList := by
    rw [Text.quote, String.toList_ofList]
    exact literal?_quoted s.toList (by simp) (by simp)
  rw [keyName?, hread]
  split_ifs <;> simp

theorem keyName?_memberKey (name : String) : keyName? (memberKey name) = denoted? name := by
  unfold memberKey denoted?
  by_cases h : isIdentifier name = true
  · have hkey : readKey name.toList = identifier? name.toList := by
      obtain ⟨i, hi, hs | hs⟩ := isIdentifierChars_iff.1 h
      · simpa [hs] using readKey_of_isPlainIdentifier hi []
      · rw [hs, readKey_of_isPlainIdentifier hi]
    rw [if_pos h, if_pos h, keyName?, hkey, identifier?_of_isIdentifierChars h, Option.map_some]
  · rw [if_neg h, if_neg h, keyName?_quote]

theorem accessName?_accessor (name : String) : accessName? (accessor name) = denoted? name := by
  unfold accessName? accessor denoted?
  by_cases h : isIdentifier name = true
  · have hread : readAccess ("." ++ name).toList = some (name.toList.takeWhile isTail) := by
      rw [String.toList_append]
      exact identifier?_of_isIdentifierChars h
    rw [if_pos h, if_pos h, hread, Option.map_some]
  · have htext : ("[" ++ Text.quote name ++ "]").toList =
        '[' :: '\'' :: (name.toList.flatMap Text.escape ++ ['\'', ']']) := by
      simp [Text.quote, Text.quoted]
    have hread : readAccess ("[" ++ Text.quote name ++ "]").toList =
        if '\r' ∈ name.toList then none else some name.toList := by
      rw [htext]
      exact literal?_quoted name.toList (by simp) (by simp)
    rw [if_neg h, if_neg h, hread]
    split_ifs <;> simp

/-- Whatever is read is a name that is read back as it is. -/
theorem faithful_of_denoted? {name k : String} (h : denoted? name = some k) : Faithful k := by
  have hline : isTail '\n' = false := by decide
  have hreturn : isTail '\r' = false := by decide
  unfold denoted? at h
  split_ifs at h with hi hr
  · obtain ⟨i, hplain, hs⟩ := isIdentifierChars_iff.1 hi
    have hall := forall_isTail hplain
    have hk : k.toList = i := by
      rw [← Option.some.inj h, String.toList_ofList]
      exact (takeWhile_isTail hplain hs).1
    refine ⟨fun hmem => ?_, fun j _ hj => ?_⟩
    · simpa [hreturn] using hall '\r' (hk ▸ hmem)
    · simpa [hline] using hall '\n' (by simp [← hk, hj])
  · obtain rfl := Option.some.inj h
    refine ⟨hr, fun i hplain hs => hi ?_⟩
    exact isIdentifierChars_iff.2 ⟨i, hplain, .inr hs⟩

theorem denoted?_of_faithful {name : String} (h : Faithful name) : denoted? name = some name := by
  unfold denoted?
  split_ifs with hi hr
  · obtain ⟨i, hplain, hs⟩ := isIdentifierChars_iff.1 hi
    obtain hs : name.toList = i := hs.resolve_right (h.unbroken i hplain)
    rw [(takeWhile_isTail hplain (.inl hs)).1, ← hs, String.ofList_toList]
  · exact absurd hr h.oneLine
  · rfl

theorem denoted?_eq_some_iff {name : String} : denoted? name = some name ↔ Faithful name :=
  ⟨faithful_of_denoted?, denoted?_of_faithful⟩

instance (name : String) : Decidable (Faithful name) := decidable_of_iff _ denoted?_eq_some_iff

theorem isAlnum_toLower {c : Char} (h : isAlnum c = true) : isAlnum c.toLower = true := by
  by_cases ha : c.isAlpha = true
  · simp [isAlnum, Char.isAlphanum, Char.isAlpha_toLower_eq_isAlpha, ha]
  · have hu : ¬ c.isUpper = true := by
      intro hu
      simp [Char.isAlpha, hu] at ha
    rwa [Char.toLower_eq_of_not_isUpper hu]

theorem isAlnum_toUpper {c : Char} (h : isAlnum c = true) : isAlnum c.toUpper = true := by
  by_cases ha : c.isAlpha = true
  · simp [isAlnum, Char.isAlphanum, Char.isAlpha_toUpper_eq_isAlpha, ha]
  · have hl : ¬ c.isLower = true := by
      intro hl
      simp [Char.isAlpha, hl] at ha
    rwa [Char.toUpper_eq_of_not_isLower hl]

theorem forall_isAlnum_wordList (name : List Char) :
    ∀ w ∈ wordList name, ∀ c ∈ w, isAlnum c = true := by
  fun_induction wordList name with
  | case1 => simp
  | case2 x hx => simpa using hx
  | case3 x hx => simp
  | case4 x y rest hx ih => exact ih
  | case5 x y rest hx he ih => simpa using ⟨by simpa using hx, ih⟩
  | case6 x y rest hx he ih =>
    have hx : isAlnum x = true := by simpa using hx
    cases hw : wordList (y :: rest) with
    | nil => simpa [Text.consHead] using hx
    | cons w ws =>
      rw [hw] at ih
      simpa [Text.consHead, hx] using ih

theorem forall_isAlnum_lowercase {w : List Char} (h : ∀ c ∈ w, isAlnum c = true) :
    ∀ c ∈ lowercase w, isAlnum c = true := by
  intro c hc
  obtain ⟨d, hd, rfl⟩ := List.mem_map.1 hc
  exact isAlnum_toLower (h d hd)

theorem forall_isAlnum_capitalize {w : List Char} (h : ∀ c ∈ w, isAlnum c = true) :
    ∀ c ∈ capitalize w, isAlnum c = true := by
  cases w with
  | nil => simp [capitalize]
  | cons d ds =>
    obtain ⟨hd, hds⟩ := List.forall_mem_cons.1 h
    exact List.forall_mem_cons.2 ⟨isAlnum_toUpper hd, forall_isAlnum_lowercase hds⟩

/-- The spelling of a name keeps nothing else, unless the name has no words. -/
theorem camelChars_cases (name : List Char) :
    camelChars name = name ∨ ∀ c ∈ camelChars name, isAlnum c = true := by
  unfold camelChars
  have hwords := forall_isAlnum_wordList name
  cases hw : wordList name with
  | nil => exact .inl rfl
  | cons w ws =>
    rw [hw] at hwords
    obtain ⟨hfirst, hrest⟩ := List.forall_mem_cons.1 hwords
    refine .inr fun c hc => ?_
    rcases List.mem_append.1 hc with hc | hc
    · exact forall_isAlnum_lowercase hfirst c hc
    · obtain ⟨v, hv, hc⟩ := List.mem_flatMap.1 hc
      exact forall_isAlnum_capitalize (hrest v hv) c hc

theorem faithful_camel {name : String} (h : Faithful name) : Faithful (camel name) := by
  -- letters and digits are neither line feeds nor carriage returns
  rcases camelChars_cases name.toList with he | hall
  · rwa [camel, he, String.ofList_toList]
  · refine ⟨fun hr => ?_, fun i _ he => ?_⟩
    · rw [camel, String.toList_ofList] at hr
      exact absurd (hall _ hr) (by decide)
    · rw [camel, String.toList_ofList] at he
      exact absurd (hall '\n' (by simp [he])) (by decide)

end Naming

end DtoGen
