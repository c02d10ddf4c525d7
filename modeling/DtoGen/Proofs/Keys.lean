import DtoGen.Proofs.Reading

namespace DtoGen

namespace Naming

/-- The name itself, which is an identifier, or a literal for it. -/
def IsKey (text name : String) : Prop :=
  (text = name ∧ isPlainIdentifier name.toList = true) ∨
    ∃ t, text.toList = '\'' :: t ∧ Text.readQuoted t = some (name.toList, [])

/-- A dot before such an identifier, or brackets around such a literal. -/
def IsAccess (text name : String) : Prop :=
  (text = "." ++ name ∧ isPlainIdentifier name.toList = true) ∨
    ∃ t, text.toList = '[' :: '\'' :: t ∧ Text.readQuoted t = some (name.toList, [']'])

theorem toList_quote (name : String) :
    (Text.quote name).toList = '\'' :: (name.toList.flatMap Text.escape ++ ['\'']) := by
  rw [Text.quote, String.toList_ofList]
  rfl

theorem toList_bracketed (name : String) : ("[" ++ Text.quote name ++ "]").toList =
    '[' :: '\'' :: (name.toList.flatMap Text.escape ++ ['\'', ']']) := by
  simp [toList_quote]

theorem isKey_quote (name : String) : IsKey (Text.quote name) name :=
  .inr ⟨_, toList_quote name, Text.readQuoted_quoted name.toList []⟩

theorem isAccess_bracketed (name : String) : IsAccess ("[" ++ Text.quote name ++ "]") name :=
  .inr ⟨_, toList_bracketed name, Text.readQuoted_quoted name.toList [']']⟩

/-- A name that is written as it stands does not begin like a literal. -/
theorem head_of_isIdentifier {name : String} (h : isIdentifier name = true) :
    ∃ c cs, name.toList = c :: cs ∧ isHead c = true := by
  obtain ⟨i, hi, hname⟩ := isIdentifierChars_iff.1 h
  cases i with
  | nil => cases hi
  | cons c cs =>
    have hc : isHead c = true := (Bool.and_eq_true _ _ ▸ hi : _ ∧ _).1
    rcases hname with hname | hname
    · exact ⟨c, cs, hname, hc⟩
    · exact ⟨c, cs ++ ['\n'], hname, hc⟩

theorem isPlainIdentifier_iff_of_unbroken {name : String}
    (h : ∀ i, isPlainIdentifier i = true → name.toList ≠ i ++ ['\n']) :
    isPlainIdentifier name.toList = true ↔ isIdentifier name = true := by
  rw [isIdentifier, isIdentifierChars_iff]
  constructor
  · exact fun hi => ⟨_, hi, .inl rfl⟩
  · rintro ⟨i, hi, hname | hname⟩
    · rwa [hname]
    · exact absurd hname (h i hi)

/-- Behind an identifier a line feed is neither part of it nor escaped. -/
theorem not_isPlainIdentifier_of_newline {name : String} {i : List Char}
    (h : name.toList = i ++ ['\n']) : ¬ isPlainIdentifier name.toList = true := by
  intro hname
  have hnewline := forall_isTail hname '\n' (by simp [h])
  exact absurd hnewline (by decide)

theorem isKey_memberKey_iff (name : String) : IsKey (memberKey name) name ↔
    ∀ i, isPlainIdentifier i = true → name.toList ≠ i ++ ['\n'] := by
  constructor
  · rintro hkey i hi hname
    have hident : isIdentifier name = true := isIdentifierChars_iff.2 ⟨i, hi, .inr hname⟩
    rw [memberKey, if_pos hident] at hkey
    rcases hkey with ⟨-, hplain⟩ | ⟨t, ht, -⟩
    · exact not_isPlainIdentifier_of_newline hname hplain
    · obtain ⟨c, cs, hc, hhead⟩ := head_of_isIdentifier hident
      obtain ⟨rfl, -⟩ := List.cons.inj (hc.symm.trans ht)
      exact absurd hhead (by decide)
  · intro h
    unfold memberKey
    split_ifs with hident
    · exact .inl ⟨rfl, (isPlainIdentifier_iff_of_unbroken h).2 hident⟩
    · exact isKey_quote name

theorem isAccess_accessor_iff (name : String) : IsAccess (accessor name) name ↔
    ∀ i, isPlainIdentifier i = true → name.toList ≠ i ++ ['\n'] := by
  constructor
  · rintro haccess i hi hname
    have hident : isIdentifier name = true := isIdentifierChars_iff.2 ⟨i, hi, .inr hname⟩
    rw [accessor, if_pos hident] at haccess
    rcases haccess with ⟨-, hplain⟩ | ⟨t, ht, -⟩
    · exact not_isPlainIdentifier_of_newline hname hplain
    · rw [String.toList_append] at ht
      cases ht
  · intro h
    unfold accessor
    split_ifs with hident
    · exact .inl ⟨rfl, (isPlainIdentifier_iff_of_unbroken h).2 hident⟩
    · exact isAccess_bracketed name

/-- The name for which a key was written, whatever name it is. -/
def undoKey : List Char → Option (List Char)
  | '\'' :: t => (Text.readQuoted t).map Prod.fst
  | t => some t

def undoAccess : List Char → Option (List Char)
  | '.' :: t => some t
  | '[' :: '\'' :: t => (Text.readQuoted t).map Prod.fst
  | _ => none

theorem undoKey_memberKey (name : String) : undoKey (memberKey name).toList = some name.toList := by
  unfold memberKey
  split_ifs with hident
  · obtain ⟨c, cs, hname, hhead⟩ := head_of_isIdentifier hident
    have hc : c ≠ '\'' := by
      rintro rfl
      exact absurd hhead (by decide)
    rw [hname]
    simp [undoKey, hc]
  · rw [toList_quote, undoKey, Text.readQuoted_quoted, Option.map_some]

theorem undoAccess_accessor (name : String) :
    undoAccess (accessor name).toList = some name.toList := by
  unfold accessor
  split_ifs with hident
  · rw [String.toList_append]
    rfl
  · rw [toList_bracketed, undoAccess, Text.readQuoted_quoted, Option.map_some]

theorem memberKey_inj {a b : String} (h : memberKey a = memberKey b) : a = b := by
  have hlist := undoKey_memberKey a
  rw [h, undoKey_memberKey b, Option.some.injEq] at hlist
  exact (String.toList_inj.1 hlist).symm

theorem accessor_inj {a b : String} (h : accessor a = accessor b) : a = b := by
  have hlist := undoAccess_accessor a
  rw [h, undoAccess_accessor b, Option.some.injEq] at hlist
  exact (String.toList_inj.1 hlist).symm

/-- A key and an access are made from a name by one of two ways, unless the name is an identifier with a line
feed at its end. Where the language reads them, it reads that name unless it is such an identifier or has a
carriage return. In any case different names have different keys and different accesses. -/
theorem keys_denote_iff (name other : String) :
    ((IsKey (memberKey name) name ↔
        ∀ i, isPlainIdentifier i = true → name.toList ≠ i ++ ['\n']) ∧
      (IsAccess (accessor name) name ↔
        ∀ i, isPlainIdentifier i = true → name.toList ≠ i ++ ['\n'])) ∧
    ((keyName? (memberKey name) = some name ↔ Faithful name) ∧
      (accessName? (accessor name) = some name ↔ Faithful name)) ∧
    (memberKey name = memberKey other ↔ name = other) ∧
    (accessor name = accessor other ↔ name = other) := by
  refine ⟨⟨isKey_memberKey_iff name, isAccess_accessor_iff name⟩, ?_,
    ⟨memberKey_inj, congrArg memberKey⟩, ⟨accessor_inj, congrArg accessor⟩⟩
  rw [keyName?_memberKey, accessName?_accessor]
  exact ⟨denoted?_eq_some_iff, denoted?_eq_some_iff⟩

/-- The line feed behind an identifier is written as it is. -/
theorem newline_unquoted : memberKey "id\n" = "id\n" ∧ ¬ IsKey (memberKey "id\n") "id\n" ∧
    accessor "id\n" = ".id\n" ∧ ¬ IsAccess (accessor "id\n") "id\n" := by
  have hbroken : ¬ ∀ i, isPlainIdentifier i = true → "id\n".toList ≠ i ++ ['\n'] :=
    fun h => h ['i', 'd'] (by decide) (by decide)
  exact ⟨by decide, mt (isKey_memberKey_iff _).1 hbroken, by decide,
    mt (isAccess_accessor_iff _).1 hbroken⟩

end Naming

end DtoGen
