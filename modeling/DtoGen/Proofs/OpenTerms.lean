import DtoGen.Proofs.Comments
import DtoGen.Proofs.Keys
import DtoGen.Proofs.Words
import DtoGen.Mapping.Record

namespace DtoGen

theorem Binary64.exists_digit_layoutDecimal (digits : Nat) (exponent : Int) :
    ∃ c ∈ (layoutDecimal digits exponent).toList, c.isDigit = true := by
  obtain ⟨d, ds, hds⟩ := List.exists_cons_of_ne_nil (Nat.toDigits_ne_nil (n := digits) (b := 10))
  have hd : d.isDigit = true :=
    Nat.isDigit_of_mem_toDigits (b := 10) (n := digits) (by decide) (by decide) (by simp [hds])
  refine ⟨d, ?_, hd⟩
  unfold layoutDecimal
  rw [String.toList_ofList]
  simp only [hds]
  split_ifs with hplain hsmall hinner
  · simp
  · -- on one side of the point or on the other
    have hmem : d ∈ d :: ds := List.mem_cons_self
    rw [← List.take_append_drop (exponent + ((d :: ds).length : Int)).toNat (d :: ds),
      List.mem_append] at hmem
    rw [List.mem_append, List.mem_cons]
    tauto
  · simp
  all_goals simp

theorem exists_digit_toString (n : Int) : ∃ c ∈ (toString n).toList, c.isDigit = true := by
  have hnat : ∀ m : Nat, ∃ c ∈ m.repr.toList, c.isDigit = true := by
    intro m
    obtain ⟨d, ds, hds⟩ := List.exists_cons_of_ne_nil (Nat.toDigits_ne_nil (n := m) (b := 10))
    have hd : d ∈ Nat.toDigits 10 m := by simp [hds]
    exact ⟨d, by rwa [Nat.toList_repr], Nat.isDigit_of_mem_toDigits (by decide) (by decide) hd⟩
  rw [Int.toString_eq_repr, Int.repr_eq_if]
  split_ifs
  · exact hnat _
  · obtain ⟨c, hc, hdigit⟩ := hnat (-n).toNat
    exact ⟨c, by rw [String.toList_append]; exact List.mem_append_right _ hc, hdigit⟩

theorem Primitive.typeText_ne_never (k : Primitive) (facet : Facet) : k.typeText facet ≠ "never" := by
  cases k <;> cases facet <;> decide

/-- A number has a digit, and no other literal is this word either. -/
theorem Literal.text_ne_never (l : Literal) : l.text ≠ "never" := by
  have hdigit : ∀ c ∈ "never".toList, c.isDigit = false := by simp
  cases l with
  | null => decide
  | bool b => cases b <;> decide
  | int n =>
    intro h
    obtain ⟨c, hc, hcdigit⟩ := exists_digit_toString n
    rw [show toString n = "never" from h] at hc
    simp [hdigit c hc] at hcdigit
  | float x =>
    cases x with
    | nan => decide
    | infinity s => cases s <;> decide
    | finite s m e =>
      obtain ⟨c, hc, hcdigit⟩ := Binary64.exists_digit_layoutDecimal
        (if m = 0 then ((0, 0) : Nat × Int) else Binary64.shortest m e).1
        (if m = 0 then ((0, 0) : Nat × Int) else Binary64.shortest m e).2
      intro h
      have hmem : c ∈ "never".toList := by
        rw [← h, text, Binary64.toText, String.toList_append]
        exact List.mem_append_right _ hc
      simp [hdigit c hmem] at hcdigit
  | string x =>
    intro h
    have := congrArg (·.toList.head?) h
    simp [text, Naming.toList_quote] at this

theorem Naming.pascal_ne_never (name : String) : pascal name ≠ "never" := by
  intro h
  have hhead : ∀ c ∈ (pascal name).toList.head?, c.toUpper = c := by
    rw [pascal, String.toList_ofList, pascalChars_eq]
    exact toUpper_of_mem_head _
  rw [h] at hhead
  exact absurd (hhead 'n' rfl) (by decide)

/-- The spelling of a declaration starts with no small letter, and one of a module has a dot. -/
theorem Scope.declared_ne_never (scope : Scope) (f g : Facet) (name : String) :
    scope.declared f (g.spell name) ≠ "never" := by
  have hdot : '.' ∉ "never".toList := by decide
  unfold Scope.declared Scope.qualify
  cases scope.moduleOf f with
  | some a =>
    intro h
    have h : scope.written a ++ "." ++ g.spell name = "never" := h
    rw [← h] at hdot
    simp [String.toList_append] at hdot
  | none =>
    cases g with
    | internal => exact Naming.pascal_ne_never name
    | wire =>
      intro h
      have hmark : 'D' ∉ "never".toList := by decide
      have h : Naming.pascal name ++ "Dto" = "never" := h
      rw [← h] at hmark
      simp [String.toList_append] at hmark

namespace Service

theorem elementType_text_ne_never (s : Service) (facet : Facet) (v : Value) (scope : Scope) :
    (s.elementType facet v).text scope ≠ "never" := by
  unfold elementType
  cases v.base with
  | primitive k constant =>
    cases constant with
    | some l => exact l.text_ne_never
    | none => exact k.typeText_ne_never facet
  | named n =>
    dsimp only
    split
    · exact scope.declared_ne_never .internal .internal n
    · exact scope.declared_ne_never facet facet n
    · exact scope.declared_ne_never facet facet n
    · show "unknown" ≠ "never"
      decide

/-- The first alternative of the type of a value is its element, perhaps as an array. -/
theorem exists_part_ne_never (s : Service) (facet : Facet) (v : Value) (scope : Scope) :
    ∃ a ∈ (s.valueType facet v).parts scope, a ≠ "never" := by
  have hbracket : '[' ∉ "never".toList := by decide
  refine ⟨(s.elementType facet v).text scope ++ (if v.isArray then "[]" else ""), ?_, ?_⟩
  · unfold valueType ValueType.parts
    dsimp only
    cases v.isNullable <;> simp
  · cases v.isArray with
    | false => simpa using s.elementType_text_ne_never facet v scope
    | true =>
      intro h
      rw [← h] at hbracket
      simp [String.toList_append] at hbracket

end Service

theorem eq_never_of_intercalate {ts : List String} (h : " | ".intercalate ts = "never") :
    ∀ t ∈ ts, t = "never" := by
  rcases ts with _ | ⟨t, _ | ⟨u, ts⟩⟩
  · simp
  · simpa using h
  · have hbar : '|' ∉ "never".toList := by simp
    rw [← h, String.intercalate_cons_cons] at hbar
    simp at hbar

/-- Only the type that admits no members at all ends like this. -/
theorem OpenType.not_suffix_never {o : OpenType} {scope : Scope}
    (h : ∃ a ∈ o.alternatives scope, a ≠ "never") :
    ¬ (o.text scope).toList <:+ "Record<string, never>".toList := by
  have hnever : "Record<string, never>".toList =
      "Record".toList ++ '<' :: ("string".toList ++ ',' :: " never>".toList) := by simp
  rintro ⟨x, hx⟩
  rw [hnever] at hx
  unfold text at hx
  dsimp only at hx
  split_ifs at hx
  · -- the word before the first bracket is longer here
    have hx : "Record".toList ++ '<' :: ("string".toList ++ ',' :: " never>".toList) =
        (x ++ "Partial".toList) ++ '<' :: ("Record<" ++ o.key.text scope ++ ", " ++
          " | ".intercalate (o.alternatives scope) ++ ">" ++ ">").toList := by
      rw [← hx]
      simp
    have hfirst := ((List.append_cons_inj_of_notMem (by simp) (by simp)).1 hx).1
    have hlength := congrArg List.length hfirst
    simp at hlength
  · -- up to the first comma stands the key, and behind it all values
    have hx : "Record".toList ++ '<' :: ("string".toList ++ ',' :: " never>".toList) =
        (x ++ "Record".toList) ++ '<' :: ((o.key.text scope).toList ++ ',' ::
          (" " ++ " | ".intercalate (o.alternatives scope) ++ ">").toList) := by
      rw [← hx]
      simp
    obtain ⟨-, -, hrest⟩ := (List.append_cons_inj_of_notMem (by simp) (by simp)).1 hx
    obtain ⟨-, -, hvalues⟩ := (List.append_cons_inj_of_notMem (by simp) (by simp)).1 hrest
    have hvalues : " | ".intercalate (o.alternatives scope) = "never" := by
      refine String.toList_inj.1 ?_
      have hclosed : "never".toList ++ ['>'] =
          (" | ".intercalate (o.alternatives scope)).toList ++ ['>'] := by
        simpa using hvalues
      exact (List.append_cancel_right hclosed).symm
    obtain ⟨a, ha, hne⟩ := h
    exact hne (eq_never_of_intercalate hvalues a ha)

theorem OpenType.exists_toList_text (o : OpenType) (scope : Scope) :
    ∃ x, (o.text scope).toList = x ++ ['>'] := by
  unfold text
  dsimp only
  split_ifs
  · exact ⟨("Partial<" ++ ("Record<" ++ o.key.text scope ++ ", " ++
      " | ".intercalate (o.alternatives scope) ++ ">")).toList, by simp⟩
  · exact ⟨("Record<" ++ o.key.text scope ++ ", " ++
      " | ".intercalate (o.alternatives scope)).toList, by simp⟩

theorem ObjectType.exists_toList_lines (c : ObjectType) (scope : Scope) :
    ∃ x, ("\n".intercalate (c.lines scope)).toList = x ++ ['\x7d'] := by
  rw [ObjectType.lines, toList_intercalate_snoc]
  exact ⟨_, rfl⟩

/-- The members stand between braces, and the term does not. -/
theorem ObjectType.not_suffix_lines (c : ObjectType) (o : OpenType) (scope : Scope) :
    ¬ (o.text scope).toList <:+ ("\n".intercalate (c.lines scope)).toList := by
  rintro ⟨z, hz⟩
  obtain ⟨x, hx⟩ := o.exists_toList_text scope
  obtain ⟨y, hy⟩ := c.exists_toList_lines scope
  rw [hx, hy, ← List.append_assoc] at hz
  exact absurd (List.append_inj_right' hz rfl) (by decide)

namespace Service

/-- The term for members under any key, whether there is room for it or not. -/
def openTerm (s : Service) (facet : Facet) (t : TypeDecl) (m : MapClause) : OpenType where
  key := s.valueType facet m.key.asRequired
  values := ((orderedProperties facet t).map fun p => s.valueType facet p.value) ++
    [s.valueType facet m.value]
  mayBeAbsent := t.properties.any (·.value.isOptional) || m.value.isOptional
  isPartial :=
    match s.resolve m.key with
    | .enum _ => true
    | _ => false

variable {s : Service} {facet : Facet} {role : Role} {t : TypeDecl} {m : MapClause}

theorem openType?_eq (hm : t.mapClause = some m) :
    s.openType? facet t = if hasRoom t then some (s.openTerm facet t m) else none := by
  unfold openType?
  rw [hm]
  rfl

/-- A type can be written only if its limit is none or not below the number of named members. -/
theorem recordType_ok {r : RecordType} (hm : t.mapClause = some m) (hr : s.recordType facet t = .ok r) :
    r = .shaped (s.objectType? facet t) (s.openType? facet t) ∧
      ∀ n, t.maxProperties = some n → (t.definedCount : Int) ≤ n := by
  unfold recordType at hr
  simp only [hm, Option.isNone_some, Bool.and_false, Bool.false_eq_true, if_false] at hr
  split at hr
  · rename_i n hn
    split_ifs at hr with hlimit
    refine ⟨(Except.ok.inj hr).symm, fun k hk => ?_⟩
    obtain rfl := Option.some.inj (hn.symm.trans hk)
    omega
  · rename_i hn
    exact ⟨(Except.ok.inj hr).symm, fun k hk => by simp [hn] at hk⟩

theorem mem_alternatives {scope : Scope} {o : OpenType} {a : String} :
    a ∈ o.alternatives scope ↔
      (∃ v ∈ o.values, a ∈ v.parts scope) ∨ (o.mayBeAbsent = true ∧ a = "undefined") := by
  simp only [OpenType.alternatives, List.mem_mergeSort, List.mem_eraseDups, List.mem_append,
    List.mem_flatMap]
  refine or_congr_right ?_
  cases o.mayBeAbsent <;> simp

/-- The values of the open term are not those of the type without any. -/
theorem openTerm_not_suffix_never (scope : Scope) :
    ¬ ((s.openTerm facet t m).text scope).toList <:+ "Record<string, never>".toList := by
  obtain ⟨a, ha, hne⟩ := s.exists_part_ne_never facet m.value scope
  exact OpenType.not_suffix_never
    ⟨a, mem_alternatives.2 (.inl ⟨_, List.mem_append_right _ (List.mem_singleton_self _), ha⟩), hne⟩

/-- The text of a type with room ends with the open term, and no other does. -/
theorem openTerm_suffix_iff (hm : t.mapClause = some m) (scope : Scope) :
    ((s.openTerm facet t m).text scope).toList <:+
        ((RecordType.shaped (s.objectType? facet t) (s.openType? facet t)).text scope).toList ↔
      hasRoom t = true := by
  rw [openType?_eq hm]
  constructor
  · intro hsuffix
    by_contra hroom
    rw [if_neg hroom] at hsuffix
    cases hobject : s.objectType? facet t with
    | none =>
      rw [hobject] at hsuffix
      exact openTerm_not_suffix_never scope hsuffix
    | some c =>
      rw [hobject] at hsuffix
      exact c.not_suffix_lines _ scope (by simpa [RecordType.text] using hsuffix)
  · intro hroom
    rw [if_pos hroom]
    cases s.objectType? facet t with
    | none => simp [RecordType.text]
    | some c =>
      simp only [RecordType.text, Option.map_some, Option.toList_some, List.singleton_append,
        String.intercalate_cons_cons, String.intercalate_singleton, String.toList_append]
      exact List.suffix_append _ _

/-- The type without members is written only where none is named and there is no room for others. -/
theorem text_eq_never_iff (hm : t.mapClause = some m) (scope : Scope) :
    (RecordType.shaped (s.objectType? facet t) (s.openType? facet t)).text scope =
        "Record<string, never>" ↔
      t.definedCount = 0 ∧ hasRoom t = false := by
  constructor
  · intro htext
    have hroom : hasRoom t = false := by
      by_contra hroom
      have hsuffix : ((s.openTerm facet t m).text scope).toList <:+ _ :=
        (openTerm_suffix_iff hm scope).2 (by simpa using hroom)
      rw [htext] at hsuffix
      exact openTerm_not_suffix_never scope hsuffix
    refine ⟨?_, hroom⟩
    by_contra hdefined
    rw [openType?_eq hm, hroom, objectType?, if_neg hdefined] at htext
    simp only [RecordType.text, Option.map_some, Option.toList_some, String.intercalate_singleton,
      Bool.false_eq_true, if_false, Option.map_none, Option.toList_none, List.append_nil] at htext
    -- an object type ends with a brace
    obtain ⟨x, hx⟩ := ObjectType.exists_toList_lines _ scope
    have hnever : "Record<string, never>".toList = "Record<string, never".toList ++ ['>'] := by simp
    rw [htext, hnever] at hx
    exact absurd (List.append_inj_right' hx rfl) (by decide)
  · rintro ⟨hdefined, hroom⟩
    rw [openType?_eq hm, hroom, objectType?, if_pos hdefined]
    rfl

end Service

/-- Lines with a pass over the keys of something among them. -/
def HasPass (scope : Scope) (lines : List String) : Prop :=
  ∃ (f : Fold) (source initial : String), f.lines scope source initial <:+: lines

theorem HasPass.mono {scope : Scope} {ls ks : List String} (h : HasPass scope ls) (hsub : ls <:+: ks) :
    HasPass scope ks := by
  obtain ⟨f, source, initial, hf⟩ := h
  exact ⟨f, source, initial, hf.trans hsub⟩

def Quiet (line : String) : Prop :=
  ∀ source, line ≠ "return Object.keys(" ++ source ++ ").reduce((acc, key) => \x7b"

theorem not_hasPass_of_quiet {scope : Scope} {lines : List String} (h : ∀ l ∈ lines, Quiet l) :
    ¬ HasPass scope lines := by
  rintro ⟨f, source, initial, hpass⟩
  exact h _ (hpass.subset (List.mem_cons_self ..)) source rfl

theorem quiet_of_start {line : String} (h : ¬ "return O".toList <+: line.toList) : Quiet line := by
  rintro source rfl
  exact h (by simp [String.toList_append])

/-- The first character that is no part of an identifier. -/
def lead (line : String) : Option Char := (line.toList.dropWhile Naming.isTail).head?

/-- A line that starts with a key goes on with no blank. -/
theorem quiet_entry (name value : String) :
    Quiet (if Naming.memberKey name = value then Naming.memberKey name ++ ","
      else Naming.memberKey name ++ ": " ++ value ++ ",") := by
  have hpass : ∀ source,
      lead ("return Object.keys(" ++ source ++ ").reduce((acc, key) => \x7b") = some ' ' := by
    intro source
    simp [lead, Naming.isTail, Naming.isHead]
  refine fun source hline => absurd (hline ▸ hpass source) ?_
  obtain ⟨c, rest, htext, hc⟩ : ∃ c rest,
      (if Naming.memberKey name = value then Naming.memberKey name ++ ","
        else Naming.memberKey name ++ ": " ++ value ++ ",").toList =
          (Naming.memberKey name).toList ++ c :: rest ∧ Naming.isTail c = false ∧ c ≠ ' ' := by
    split_ifs
    · exact ⟨',', [], by simp, by decide⟩
    · exact ⟨':', ' ' :: (value ++ ",").toList, by simp, by decide⟩
  rw [lead, htext, Naming.memberKey]
  split
  · rename_i hname
    obtain ⟨i, hi, hname⟩ := Naming.isIdentifierChars_iff.1 hname
    have htail := Naming.forall_isTail hi
    rcases hname with hname | hname
    · simp [hname, List.dropWhile_append_of_pos htail, hc]
    · rw [hname, List.append_assoc, List.dropWhile_append_of_pos htail]
      simp [Naming.isTail, Naming.isHead]
  · rw [Naming.toList_quote]
    simp [Naming.isTail, Naming.isHead]

theorem quiet_signature (scope : Scope) (g : Signature) : Quiet (g.text scope ++ " \x7b") := by
  unfold Signature.text
  exact quiet_of_start (by simp)

namespace RecordBody

/-- The pass of a body over the members that are not named. -/
def fold? : RecordBody → Option Fold
  | .destructured _ _ rest => rest
  | .folded f => some f
  | _ => none

theorem quiet_fieldLines (scope : Scope) (fields : List Field) :
    ∀ l ∈ fieldLines scope "return " fields, Quiet l := by
  refine List.forall_mem_append.2 ⟨List.forall_mem_cons.2 ⟨?_, ?_⟩, ?_⟩
  · -- a call opens an object right after a bracket
    intro source h
    have hlast := congrArg (·.toList.reverse.tail.head?) h
    simp at hlast
  · exact List.forall_mem_map.2 fun f _ => quiet_entry f.name _
  · exact List.forall_mem_singleton.2 (quiet_of_start (by simp))

theorem quiet_lines (scope : Scope) (parameter : String) {b : RecordBody} (hb : b.fold? = none) :
    ∀ l ∈ b.lines scope parameter, Quiet l := by
  cases b with
  | empty => exact List.forall_mem_singleton.2 (quiet_of_start (by simp))
  | literal fields => exact quiet_fieldLines scope fields
  | destructured captures fields rest =>
    obtain rfl : rest = none := hb
    refine List.forall_mem_append.2 ⟨List.forall_mem_append.2 ⟨List.forall_mem_cons.2 ⟨?_, ?_⟩, ?_⟩,
      quiet_fieldLines scope fields⟩
    · exact quiet_of_start (by simp)
    · exact List.forall_mem_map.2 fun c _ => quiet_entry c.name _
    · exact List.forall_mem_cons.2 ⟨quiet_of_start (by simp),
        List.forall_mem_singleton.2 (quiet_of_start (by simp))⟩
  | folded f => cases hb

theorem lines_eq_iff (scope : Scope) (parameter : String) (b : RecordBody) :
    b.lines scope parameter = ["return \x7b\x7d;"] ↔ b = .empty := by
  refine ⟨fun h => ?_, fun h => h ▸ rfl⟩
  have hlength := congrArg List.length h
  cases b with
  | empty => rfl
  | literal fields => simp [lines, fieldLines] at hlength
  | destructured captures fields rest => cases rest <;> simp [lines, fieldLines] at hlength
  | folded f => simp [lines, Fold.lines] at hlength

end RecordBody

theorem RecordMapper.lines_eq_iff (scope : Scope) (g : RecordMapper) :
    g.lines scope = [g.signature.text scope ++ " \x7b", "return \x7b\x7d;", "\x7d"] ↔ g.body = .empty := by
  rw [← RecordBody.lines_eq_iff scope g.signature.role.parameter, lines, List.cons_append,
    List.cons_inj_right]
  show g.body.lines scope g.signature.role.parameter ++ ["\x7d"] = ["return \x7b\x7d;"] ++ ["\x7d"] ↔ _
  exact List.append_left_inj _

theorem RecordMapper.not_hasPass {g : RecordMapper} (hnone : g.body.fold? = none) (scope : Scope) :
    ¬ HasPass scope (g.lines scope) := by
  refine not_hasPass_of_quiet ?_
  refine List.forall_mem_append.2 ⟨List.forall_mem_cons.2 ⟨?_, ?_⟩, ?_⟩
  · exact quiet_signature scope g.signature
  · exact RecordBody.quiet_lines scope _ hnone
  · exact List.forall_mem_singleton.2 (quiet_of_start (by simp))

namespace Service

variable {s : Service} {role : Role} {t : TypeDecl} {m : MapClause}

/-- The pass over members under any key, whether there is room for them or not. -/
def pass (s : Service) (role : Role) (t : TypeDecl) (m : MapClause) : Fold where
  converted := s.expression role m.value (.raw (role.parameter ++ "[key]"))
    (match s.resolve m.value, m.value.name? with
      | .type _, some n | .union _, some n => some (.declared role.source (role.source.spell n))
      | _, _ => none)
  facet := role.target
  spelling := role.target.spell t.name

/-- The pass goes over what the named members leave, and starts from what they give. -/
def passLines (s : Service) (role : Role) (t : TypeDecl) (m : MapClause) (scope : Scope) : List String :=
  if t.definedCount = 0 then (s.pass role t m).lines scope role.parameter "\x7b\x7d"
  else (s.pass role t m).lines scope "__rest__" "__defined__"

theorem fold?_eq : s.fold? role t m =
    if t.maxProperties = some (t.definedCount : Int) then none else some (s.pass role t m) := rfl

theorem isSome_fold?_iff (hlimit : ∀ n, t.maxProperties = some n → (t.definedCount : Int) ≤ n) :
    (s.fold? role t m).isSome = true ↔ hasRoom t = true := by
  unfold fold? hasRoom
  cases hmax : t.maxProperties with
  | none => simp
  | some n =>
    have := hlimit n hmax
    by_cases hn : n = t.definedCount
    · simp [hn]
    · have hlt : (t.definedCount : Int) < n := by omega
      simp [hn, hlt]

theorem body_fold?_eq (hm : t.mapClause = some m) :
    (s.recordMapper role t).body.fold? = s.fold? role t m := by
  simp only [recordMapper, hm, openBody]
  split_ifs
  · cases s.fold? role t m <;> rfl
  · rfl

theorem hasPass_passLines (scope : Scope) : HasPass scope (s.passLines role t m scope) := by
  unfold passLines
  split_ifs
  · exact ⟨_, _, _, List.infix_rfl⟩
  · exact ⟨_, _, _, List.infix_rfl⟩

theorem passLines_suffix (hm : t.mapClause = some m) (hfold : (s.fold? role t m).isSome = true)
    (scope : Scope) :
    s.passLines role t m scope <:+ (s.recordMapper role t).body.lines scope role.parameter := by
  have hpass : s.fold? role t m = some (s.pass role t m) := by
    rw [fold?_eq] at hfold ⊢
    split_ifs with hmax
    · simp [hmax] at hfold
    · rfl
  simp only [recordMapper, hm, openBody, hpass, passLines]
  split_ifs
  · exact List.suffix_rfl
  · exact (List.suffix_cons _ _).trans (List.suffix_append _ _)

theorem fold?_of_hasPass (hm : t.mapClause = some m) {scope : Scope}
    (hpass : HasPass scope ((s.recordMapper role t).lines scope)) :
    (s.fold? role t m).isSome = true := by
  by_contra hnone
  refine RecordMapper.not_hasPass ?_ scope hpass
  rwa [body_fold?_eq hm, ← Option.not_isSome_iff_eq_none]

theorem passLines_infix_iff (hm : t.mapClause = some m) (scope : Scope) :
    s.passLines role t m scope <:+: (s.recordMapper role t).lines scope ↔
      (s.fold? role t m).isSome = true := by
  constructor
  · exact fun h => fold?_of_hasPass hm ((hasPass_passLines scope).mono h)
  · intro hfold
    obtain ⟨x, hx⟩ := passLines_suffix hm hfold scope
    refine ⟨((s.recordMapper role t).signature.text scope ++ " \x7b") :: x, ["\x7d"], ?_⟩
    rw [RecordMapper.lines, show (s.recordMapper role t).signature.role = role from rfl, ← hx]
    simp

/-- A mapper converts nothing only where no member is named and it has no pass. -/
theorem body_eq_empty_iff (hm : t.mapClause = some m) :
    (s.recordMapper role t).body = .empty ↔ t.definedCount = 0 ∧ (s.fold? role t m).isSome = false := by
  simp only [recordMapper, hm, openBody]
  split_ifs with hdefined
  · cases s.fold? role t m <;> simp [hdefined]
  · simp [hdefined]

end Service

/-- What a type says of members that are not named, and what a mapper does with them. -/
structure Agreement (s : Service) (facet : Facet) (role : Role) (t : TypeDecl) (m : MapClause)
    (r : RecordType) (types mappers : Scope) : Prop where
  /-- The type ends with the open term exactly if the mapper has its pass. -/
  term_iff_pass : ((s.openTerm facet t m).text types).toList <:+ (r.text types).toList ↔
    s.passLines role t m mappers <:+: (s.recordMapper role t).lines mappers
  /-- Nor is there any other pass. -/
  term_of_pass : HasPass mappers ((s.recordMapper role t).lines mappers) →
    ((s.openTerm facet t m).text types).toList <:+ (r.text types).toList
  /-- The type has no members exactly if the mapper does nothing but return an object without any. -/
  never_iff_empty : r.text types = "Record<string, never>" ↔
    (s.recordMapper role t).lines mappers =
      [(s.recordMapper role t).signature.text mappers ++ " \x7b", "return \x7b\x7d;", "\x7d"]
  /-- The open term admits the values of all properties. -/
  parts_mem : ∀ p ∈ t.properties, ∀ a ∈ (s.valueType facet p.value).parts types,
    a ∈ (s.openTerm facet t m).alternatives types
  undefined_mem : ∀ p ∈ t.properties, p.value.isOptional = true →
    "undefined" ∈ (s.openTerm facet t m).alternatives types

namespace Service

variable {s : Service} {facet : Facet} {role : Role} {t : TypeDecl} {m : MapClause}

theorem agreement_of_recordType (hm : t.mapClause = some m) {r : RecordType}
    (hr : s.recordType facet t = .ok r) (types mappers : Scope) :
    Agreement s facet role t m r types mappers := by
  obtain ⟨rfl, hlimit⟩ := recordType_ok hm hr
  have hfold : (s.fold? role t m).isSome = true ↔ hasRoom t = true := isSome_fold?_iff hlimit
  have hterm : ((s.openTerm facet t m).text types).toList <:+ _ ↔ hasRoom t = true :=
    openTerm_suffix_iff hm types
  constructor
  case term_iff_pass => rw [hterm, passLines_infix_iff hm, hfold]
  case term_of_pass => exact fun hpass => hterm.2 (hfold.1 (fold?_of_hasPass hm hpass))
  case never_iff_empty =>
    rw [text_eq_never_iff hm, RecordMapper.lines_eq_iff, body_eq_empty_iff hm, Bool.eq_false_iff,
      Bool.eq_false_iff, Ne, Ne, hfold]
  case parts_mem =>
    intro p hp a ha
    refine mem_alternatives.2 (.inl ⟨s.valueType facet p.value, ?_, ha⟩)
    exact List.mem_append_left _ (List.mem_map_of_mem (mem_orderedProperties.2 hp))
  case undefined_mem =>
    intro p hp hoptional
    refine mem_alternatives.2 (.inr ⟨?_, rfl⟩)
    rw [openTerm, Bool.or_eq_true, List.any_eq_true]
    exact .inl ⟨p, hp, hoptional⟩

/-- Where both types of a record with a map clause can be written, they agree with its mapper. -/
theorem open_terms_agree (s : Service) (role : Role) (t : TypeDecl) (m : MapClause)
    (hm : t.mapClause = some m) (source target : RecordType)
    (hsource : s.recordType role.source t = .ok source)
    (htarget : s.recordType role.target t = .ok target) (types mappers : Scope) :
    Agreement s role.source role t m source types mappers ∧
      Agreement s role.target role t m target types mappers :=
  ⟨agreement_of_recordType hm hsource types mappers, agreement_of_recordType hm htarget types mappers⟩

end Service

/-- A record of dates, one of which may be absent and one is required, with a limit. -/
def calendar (most : Int) : TypeDecl where
  name := "calendar"
  properties := [{ name := "start", value := { base := .primitive .date none, isOptional := true } }]
  mapClause := some
    { key := { base := .primitive .string none }, value := { base := .primitive .date none },
      requiredKeys := ["end"] }
  rules := [.atMost most]

def calendars (most : Int) : Service where
  title := "calendars"
  types := [calendar most]

namespace Service

/-- Two members are all that a limit of two admits, and a limit of three admits one more. -/
theorem calendars_agree : ∃ m,
    (calendar 2).mapClause = some m ∧ (calendar 3).mapClause = some m ∧
    (∃ source target, (calendars 2).recordType .wire (calendar 2) = .ok source ∧
      (calendars 2).recordType .internal (calendar 2) = .ok target ∧
      Agreement (calendars 2) .wire .serverInbound (calendar 2) m source {} {} ∧
      Agreement (calendars 2) .internal .serverInbound (calendar 2) m target {} {}) ∧
    ¬ HasPass {} (((calendars 2).recordMapper .serverInbound (calendar 2)).lines {}) ∧
    (∃ source target, (calendars 3).recordType .wire (calendar 3) = .ok source ∧
      (calendars 3).recordType .internal (calendar 3) = .ok target ∧
      Agreement (calendars 3) .wire .serverInbound (calendar 3) m source {} {} ∧
      Agreement (calendars 3) .internal .serverInbound (calendar 3) m target {} {}) ∧
    HasPass {} (((calendars 3).recordMapper .serverInbound (calendar 3)).lines {}) := by
  refine ⟨_, rfl, rfl, ⟨_, _, rfl, rfl, ?_⟩, ?_, ⟨_, _, rfl, rfl, ?_⟩, ?_⟩
  · exact open_terms_agree (calendars 2) .serverInbound (calendar 2) _ rfl _ _ rfl rfl {} {}
  · exact fun hpass => absurd (fold?_of_hasPass rfl hpass) (by decide)
  · exact open_terms_agree (calendars 3) .serverInbound (calendar 3) _ rfl _ _ rfl rfl {} {}
  · exact (hasPass_passLines {}).mono ((passLines_infix_iff rfl {}).2 (by decide))

end Service

end DtoGen
