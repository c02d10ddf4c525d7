import DtoGen.Proofs.Variables

namespace DtoGen

namespace Naming

/-- A name of which an identifier can be made: something is left of it when it is cut into words, or it is
made of the characters that identifiers may have besides letters and digits. -/
def Spellable (name : String) : Prop :=
  (∃ c ∈ name.toList, isAlnum c = true) ∨ ∀ c ∈ name.toList, c = '_' ∨ c = '$'

instance : DecidablePred Spellable := fun _ => inferInstanceAs (Decidable (_ ∨ _))

theorem isTail_of_isAlnum {c : Char} (h : isAlnum c = true) : isTail c = true := by
  simp only [isAlnum, Char.isAlphanum, Bool.or_eq_true] at h
  simp only [isTail, isHead, Bool.or_eq_true]
  tauto

theorem isTail_iff_of_not_isAlnum {c : Char} (h : isAlnum c = false) :
    isTail c = true ↔ c = '_' ∨ c = '$' := by
  simp only [isAlnum, Char.isAlphanum, Bool.or_eq_false_iff] at h
  simp [isTail, isHead, h.1, h.2]

theorem forall_isTail_camel_iff (name : String) :
    (∀ c ∈ (camel name).toList, isTail c = true) ↔ Spellable name := by
  rw [camel, String.toList_ofList]
  by_cases hwords : wordList name.toList = []
  · -- a name without words is spelled as it stands
    have hnone := wordList_eq_nil_iff.1 hwords
    have hsame : camelChars name.toList = name.toList := by simp [camelChars, hwords]
    have hword : ¬ ∃ c ∈ name.toList, isAlnum c = true := by
      rintro ⟨c, hc, halnum⟩
      simp [hnone c hc] at halnum
    rw [hsame, Spellable, or_iff_right hword]
    exact forall₂_congr fun c hc => isTail_iff_of_not_isAlnum (hnone c hc)
  · have hword : ∃ c ∈ name.toList, isAlnum c = true := by
      by_contra hnone
      exact hwords (wordList_eq_nil_iff.2 (by simpa using hnone))
    exact iff_of_true (fun c hc => isTail_of_isAlnum (forall_isAlnum_camelChars hwords c hc)) (.inl hword)

theorem underscore_not_mem_reservedWords (w : String) : "_" ++ w ∉ reservedWords := by
  have hword : ∀ v ∈ reservedWords, v.toList.head? ≠ some '_' := by decide
  intro hmem
  exact hword _ hmem (by rw [Locals.toList_underscore_append]; rfl)

theorem isPlainIdentifier_underscore_iff (w : String) :
    isPlainIdentifier ("_" ++ w).toList = true ↔ ∀ c ∈ w.toList, isTail c = true := by
  rw [Locals.toList_underscore_append, isPlainIdentifier, Bool.and_eq_true, List.all_eq_true]
  exact and_iff_right rfl

/-- The spelling of a name as it is, or with one underscore in front. -/
theorem localName_cases (name : String) :
    (localName name = camel name ∧ isIdentifier (camel name) = true ∧ camel name ∉ reservedWords) ∨
      localName name = "_" ++ camel name := by
  by_cases hplain : isIdentifier (camel name) = true ∧ camel name ∉ reservedWords
  · exact .inl ⟨localName_of_plain hplain.1 hplain.2, hplain⟩
  · exact .inr (localName_of_not_plain hplain)

theorem localName_not_mem_reservedWords (name : String) : localName name ∉ reservedWords := by
  obtain ⟨hname, -, hword⟩ | hname := localName_cases name
  · rwa [hname]
  · rw [hname]
    exact underscore_not_mem_reservedWords _

theorem forall_isTail_localName_iff (name : String) :
    (∀ c ∈ (localName name).toList, isTail c = true) ↔ Spellable name := by
  rw [← forall_isTail_camel_iff]
  obtain ⟨hname, -, -⟩ | hname := localName_cases name
  · rw [hname]
  · rw [hname, Locals.toList_underscore_append, List.forall_mem_cons]
    exact and_iff_right rfl

theorem isPlainIdentifier_localName_iff (name : String) :
    isPlainIdentifier (localName name).toList = true ↔ Spellable name := by
  refine ⟨fun h => (forall_isTail_localName_iff name).1 (forall_isTail h), fun h => ?_⟩
  have htails := (forall_isTail_camel_iff name).2 h
  obtain ⟨hname, hident, -⟩ | hname := localName_cases name
  · rw [hname]
    -- the test lets a line feed pass at the end, which the characters rule out
    obtain ⟨i, hi, hspelling | hspelling⟩ := isIdentifierChars_iff.1 hident
    · rwa [hspelling]
    · exact absurd (htails '\n' (by simp [hspelling])) (by decide)
  · rw [hname]
    exact (isPlainIdentifier_underscore_iff _).2 htails

end Naming

namespace Locals

open Naming

theorem underscores_valid (k : Nat) (name : String) :
    underscores k ++ localName name ∉ reservedWords ∧
      (isPlainIdentifier (underscores k ++ localName name).toList = true ↔ Spellable name) := by
  cases k with
  | zero =>
    rw [underscores_zero_append]
    exact ⟨localName_not_mem_reservedWords name, isPlainIdentifier_localName_iff name⟩
  | succ k =>
    have hfront : underscores (k + 1) ++ localName name = "_" ++ (underscores k ++ localName name) := by
      refine String.toList_inj.1 ?_
      rw [toList_underscores_append, toList_underscore_append, toList_underscores_append,
        List.replicate_succ, List.cons_append]
    rw [hfront, isPlainIdentifier_underscore_iff, toList_underscores_append, List.forall_mem_append,
      forall_isTail_localName_iff]
    refine ⟨underscore_not_mem_reservedWords _, and_iff_right fun c hc => ?_⟩
    rw [List.eq_of_mem_replicate hc]
    rfl

/-- Each of the given names has a variable. Neither this nor the plain spelling of a name is ever a reserved
word, and both are identifiers just if the name can be made one. -/
theorem variables_identifiers_iff (s : Service) (names : List String) :
    (∀ name, localName name ∉ reservedWords ∧
      (isPlainIdentifier (localName name).toList = true ↔ Spellable name)) ∧
    (∀ n, ((table s names).lookup n).isSome = true ↔ n ∈ names) ∧
    ∀ e ∈ table s names, e.2 ∉ reservedWords ∧
      (isPlainIdentifier e.2.toList = true ↔ Spellable e.1) := by
  refine ⟨fun name => ⟨localName_not_mem_reservedWords name, isPlainIdentifier_localName_iff name⟩,
    isSome_lookup_table s names, fun e he => ?_⟩
  obtain ⟨k, hk⟩ := (free_table s names).spelled e he
  rw [hk]
  exact underscores_valid k e.1

theorem variables_identifiers_reserved :
    ("_class", "__class") ∈ table (releases []) ["3d", "class", "_class"] ∧
      "__class" ∉ reservedWords ∧ isPlainIdentifier "__class".toList = true := by
  have hmem : ("_class", "__class") ∈ table (releases []) ["3d", "class", "_class"] := by decide +kernel
  have hvalid := (variables_identifiers_iff (releases []) ["3d", "class", "_class"]).2.2 _ hmem
  exact ⟨hmem, hvalid.1, hvalid.2.2 (.inl ⟨'c', by decide, by decide⟩)⟩

/-- Neither an asterisk nor a line feed can stand in an identifier. -/
theorem asterisk_no_identifier :
    localName "*" = "_*" ∧ isPlainIdentifier (localName "*").toList = false ∧
      localName "_\n" = "_\n" ∧ isPlainIdentifier (localName "_\n").toList = false ∧
      ("*", "_*") ∈ table (releases ["*"]) ["*"] := by
  decide +kernel

end Locals

end DtoGen
